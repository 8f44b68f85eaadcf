/-
Moving bytes. A read fills the caller's buffers in their order and a write
takes the segments in theirs, so a list of them acts as one. The plain forms
go on at the open file's position and move it; the positioned forms leave it
alone. Buffers that were filled stay filled even if the call fails
afterwards, so a read answers with its buffers in any case.
-/
import VirtualFs.Bytes
import VirtualFs.Location
import VirtualFs.Open

namespace VirtualFs

open Query (demand expect ofResult look)

/-- What a call that fills buffers leaves: the buffers, and how the call ended. -/
structure Received (α : Type) where
  result : Except Error α
  buffers : List ByteArray

/-- The position after a transfer, which must fit in a word. -/
def positionAfter (position count : Nat) : Except Error Nat :=
  if position + count < wordLimit then .ok (position + count) else .error .fileTooLarge

variable [Backends]

/-- Refuses what is no byte stream. -/
def FileKind.asStream : FileKind → Except Error Unit
  | .stream _ => .ok ()
  | .directory _ => .error .isADirectory
  | .path => .error .badHandle

/-- An open stream and its operations. -/
def streamOf (t : TaskId) (h : Handle) : Query (FileId × OpenFile × OpsKind) := do
  let f ← fileOf t h
  let file ← look (·.file f)
  ofResult file.kind.asStream
  pure (f, file, ← opsOf file.node)

/-- An open directory and its operations. -/
def directoryOf (t : TaskId) (h : Handle) : Query (FileId × OpenFile × OpsKind) := do
  let f ← fileOf t h
  let file ← look (·.file f)
  demand file.isDirectory .notADirectory
  pure (f, file, ← opsOf file.node)

/-- An open file that is more than a path, and its operations. -/
def operableOf (t : TaskId) (h : Handle) : Query (OpenFile × OpsKind) := do
  let file ← openFileOf t h
  demand (!file.isPath) .badHandle
  pure (file, ← opsOf file.node)

/-- A stream that may be read. -/
def readableOf (t : TaskId) (h : Handle) : Query (FileId × OpenFile × OpsKind) := do
  let (f, file, ops) ← streamOf t h
  demand file.flags.readable .badHandle
  pure (f, file, ops)

/-- A stream that may be written. -/
def writableOf (t : TaskId) (h : Handle) : Query (FileId × OpenFile × OpsKind) := do
  let (f, file, ops) ← streamOf t h
  demand file.flags.writable .badHandle
  pure (f, file, ops)

/-- The attributes of a node; on a read-only volume nobody may write. -/
def statusOf (n : NodeId) : Query Status := do
  let ops ← opsOf n
  let volume ← volumeOf n
  let status ← ops.status volume n
  look fun w =>
    if (w.volume volume).flags.isReadOnly then
      { status with mode := status.mode &&& ~~~Mode.writeBits }
    else status

/-- The bytes an action delivers, put into the buffers. What follows the delivery decides how the
call ends. -/
def receive {α : Type} (buffers : List ByteArray) (deliver : Act ByteArray)
    (finish : ByteArray → Act α) : Act (Received α) := do
  match ← Action.attempt deliver with
  | .error e => pure { result := .error e, buffers }
  | .ok data =>
    let result ← Action.attempt (finish data)
    pure { result, buffers := Bytes.scatter data buffers }

/-- Moves an open file past a transfer. -/
def moveBy (f : FileId) (position count : Nat) : Act Unit := do
  let next ← ofResult (positionAfter position count)
  Action.change (·.setFile f fun file => file.setPosition next)

/-- Fills buffers from the position of an open stream, and moves it. -/
def readv (t : TaskId) (h : Handle) (buffers : List ByteArray) : Act (Received Nat) := do
  match ← Query.attempt (readableOf t h) with
  | .error e => pure { result := .error e, buffers }
  | .ok (f, file, ops) =>
    receive buffers (ops.read file file.position (Bytes.room buffers)) fun data => do
      moveBy f file.position data.size
      pure data.size

/-- Fills buffers from a position. -/
def preadv (t : TaskId) (h : Handle) (position : Nat) (buffers : List ByteArray) :
    Act (Received Nat) :=
  receive buffers
    (do
      let (_, file, ops) ← readableOf t h
      ops.read file position (Bytes.room buffers))
    fun data => pure data.size

/-- Where a write goes: to the end of a file that is appended to, or else to the position. -/
def writePosition (file : OpenFile) : Query Nat :=
  if file.flags.appends then Status.size <$> statusOf file.node else pure file.position

/-- Writes segments at the position of an open stream, or at the end of a file that is appended to,
and moves the stream past them. -/
def writev (t : TaskId) (h : Handle) (segments : List ByteArray) : Act Nat := do
  let (f, file, ops) ← writableOf t h
  let position ← writePosition file
  let count ← ops.write file position (Bytes.gather segments)
  moveBy f position count
  pure count

/-- Writes segments at a position. -/
def pwritev (t : TaskId) (h : Handle) (position : Nat) (segments : List ByteArray) : Act Nat := do
  let (_, file, ops) ← writableOf t h
  ops.write file position (Bytes.gather segments)

/-- Takes a short transfer for a failure. -/
def exactly (wanted count : Nat) : Except Error Unit :=
  if count = wanted then .ok () else .error .ioError

/-- A read that fails unless it filled every buffer. -/
def Received.exactly (r : Received Nat) : Received Unit where
  result := r.result.bind (VirtualFs.exactly (Bytes.room r.buffers))
  buffers := r.buffers

def readFully (t : TaskId) (h : Handle) (buffer : ByteArray) : Act (Received Unit) :=
  Received.exactly <$> readv t h [buffer]

def preadFully (t : TaskId) (h : Handle) (position : Nat) (buffer : ByteArray) :
    Act (Received Unit) :=
  Received.exactly <$> preadv t h position [buffer]

def writeFully (t : TaskId) (h : Handle) (data : ByteArray) : Act Unit := do
  ofResult (exactly data.size (← writev t h [data]))

def pwriteFully (t : TaskId) (h : Handle) (position : Nat) (data : ByteArray) : Act Unit := do
  ofResult (exactly data.size (← pwritev t h position [data]))

/-- The size of a file, if a seek counts from its end. -/
def seekSize (file : OpenFile) (origin : SeekOrigin) : Query Nat :=
  if origin = .finish then Status.size <$> statusOf file.node else pure 0

/-- Moves a stream. The end of the file is only looked for if the seek counts from it. -/
def seek (t : TaskId) (h : Handle) (offset : Int) (origin : SeekOrigin) : Act Nat := do
  let (f, file, _) ← streamOf t h
  let size ← seekSize file origin
  let target ← ofResult (file.seekTarget offset origin size)
  Action.change (·.setFile f fun file => file.setPosition target)
  pure target

/-- Flushes an open file. -/
def flush (t : TaskId) (h : Handle) : Query Unit := do
  let (file, ops) ← operableOf t h
  ops.sync file

/-- Sends a request to a device, whose answer goes into a buffer. -/
def control (t : TaskId) (h : Handle) (request : UInt32) (input buffer : ByteArray) :
    Act (Received Nat) :=
  receive [buffer]
    (do
      let (file, ops) ← operableOf t h
      ops.control file request input buffer.size)
    fun data => pure data.size

/-- The next entry of an open directory, none at its end. -/
def nextEntry (t : TaskId) (h : Handle) : Act (Option DirEntry) := do
  let (f, file, ops) ← directoryOf t h
  let volume ← volumeOf file.node
  let entry ← ops.entry volume file.node file.cursor
  Action.when entry.isSome
    (Action.change (·.setFile f fun file => file.setCursor (file.cursor + 1)))
  pure entry

/-- Starts an open directory over. -/
def rewind (t : TaskId) (h : Handle) : Act Unit := do
  let (f, file, _) ← directoryOf t h
  let _ ← volumeOf file.node
  Action.change (·.setFile f fun file => file.setCursor 0)

/-- Reads at most so many entries of an open directory. -/
def takeEntries (t : TaskId) (h : Handle) : Nat → Act (List DirEntry)
  | 0 => pure []
  | count + 1 => do
    match ← nextEntry t h with
    | none => pure []
    | some entry => return entry :: (← takeEntries t h count)

/-- Reads an open directory up to its end, or as far as `entryBound` allows. -/
def remainingEntries (t : TaskId) (h : Handle) : Act (List DirEntry) := do
  let file ← openFileOf t h
  takeEntries t h (← look (entryBound · file.node))

end VirtualFs
