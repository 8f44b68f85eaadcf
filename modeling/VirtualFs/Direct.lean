/-
Reaching past the checked operations: nodes that a caller holds by name, a
context's table, a registered driver, and a node's operations. A file that
is opened here for one call is closed when the call is over.
-/
import VirtualFs.Boot
import VirtualFs.Inspect
import VirtualFs.Report

namespace VirtualFs

open Query (demand expect ofResult look)

/-- The node held under a name. The empty name and "/" stand for the root. -/
def World.held? (w : World) (name : String) : Option NodeId :=
  if name = "" ∨ name = "/" then some w.rootNode else w.pins.get? name

variable [Backends]

/-! ## Contexts -/

/-- What is bound to a context's handle. -/
def reportHandle (c : ContextId) (h : Handle) : Query FileReport := do
  let f ← lookupHandle c h
  look fun w => w.fileReport (w.file f)

/-- Reports an open file and drops it. -/
def reportAndDrop : Option FileId → Act (Option FileReport)
  | none => pure none
  | some f => do
    let report ← look fun w => w.fileReport (w.file f)
    dropFile f
    pure (some report)

/-- Frees a number of a context, with what was bound to it. -/
def freeReporting (c : ContextId) (h : Handle) : Act (Option FileReport) := do
  reportAndDrop (← freeHandle c h)

/-- Binds an open file to a number of the caller's choice, with what it displaces. -/
def installReporting (c : ContextId) (h : Handle) (f : FileId) : Act (Option FileReport) := do
  reportAndDrop (← installHandle c h f)

/-- Like `installReporting` for a new file, which is closed if it cannot be bound. -/
def installFresh (c : ContextId) (h : Handle) (file : OpenFile) : Act (Option FileReport) := do
  match ← Query.attempt (installable c h) with
  | .error e =>
    closeFile none file
    throw e
  | .ok () => installReporting c h (← addFile file)

/-- Reserves a number and binds an open file to it; without a file the number is free again. -/
def reserveFor (c : ContextId) : Option FileId → Act Handle
  | none => do
    let h ← allocateHandle c
    giveBack c h
    pure h
  | some f =>
    withReserved c fun h => do
      bindHandle c h f
      pure h

/-- Like `reserveFor` for a new file, which is closed if the table is full. -/
def reserveFresh (c : ContextId) (file : OpenFile) : Act Handle := do
  let h ← (allocateHandle c).orUndo (closeFile none file)
  (commitFile c h file).orUndo (giveBack c h)

/-! ## Drivers -/

/-- A registered driver and the volume to ask it about: one of the table, or else the parent's. -/
def driverAt (fs : String) (parent : NodeId) (volumeId : Option Nat) :
    Query (DriverKind × VolumeKey) := do
  let driver ← expect (← look (·.drivers.get? fs)) .noDevice
  match volumeId with
  | some id => pure (driver, ← expect (← look (·.mounted? id)) .noDevice)
  | none => pure (driver, ← volumeOf parent)

/-- Creates a file through a driver and closes it at once. -/
def createAndClose (driver : DriverKind) (volume : VolumeKey) (parent : NodeId) (name : String)
    (flags : OpenFlags) (mode : UInt32) : Act FileReport := do
  let file ← driver.createFile volume parent name flags mode
  let report ← look (·.fileReport file)
  closeFile none file
  pure report

/-- Mounts a volume without a mount point. Its root is held under a name; the volume itself goes
unless it is kept. -/
def mountDetached (fs : String) (id : Nat) (device : String) (flags : VolumeFlags) (args : String)
    (name : String) (keep : Bool) : Act VolumeReport := do
  let driver ← expect (← look (·.drivers.get? fs)) .noDevice
  let volume ← driver.mount id device flags args
  holdNode name (← look fun w => (w.volume volume).root)
  let report ← look (·.volumeReport volume)
  Action.when (!keep)
    (Action.change fun w => { w with volumes := w.volumes.remove volume }.settle)
  pure report

/-- The volume that devices go to: one of the table, or else the root volume. -/
def deviceVolume : Option Nat → Query VolumeKey
  | none => look (·.rootVolume)
  | some id => do expect (← look (·.mounted? id)) .noDevice

/-! ## Operations of a node -/

/-- Works with the operations of a node and its volume; nothing if it has no operations. -/
def withOps {α : Type} (n : NodeId) (work : OpsKind → VolumeKey → Act α) : Act (Option α) := do
  match ← look fun w => (w.node n).ops with
  | none => pure none
  | some ops =>
    let volume ← volumeOf n
    some <$> work ops volume

/-- Works with an open file and closes it afterwards. -/
def withFile {α : Type} (file : OpenFile) (work : Act α) : Act α :=
  work.andFinally (closeFile none file)

/-- Opens a node as a file and closes it at once. -/
def openAndClose (n : NodeId) (flags : OpenFlags) : Act (Option FileReport) :=
  withOps n fun ops volume => do
    let file ← ops.openFile volume n flags
    withFile file (look (·.fileReport file))

/-- Opens a node as a directory and closes it at once. -/
def openDirectoryAndClose (n : NodeId) (flags : OpenFlags) : Act (Option FileReport) :=
  withOps n fun ops volume => do
    let file ← ops.openDirectory volume n flags
    withFile file (look (·.fileReport file))

/-- Reads a node's bytes into a buffer; also says how many there were. -/
def readNode (n : NodeId) (position : Nat) (buffer : ByteArray) :
    Act (Option (Nat × ByteArray)) :=
  withOps n fun ops _ =>
    let file := OpenFile.stream n {}
    withFile file do
      let data ← ops.read file position buffer.size
      pure (data.size, (Bytes.scatter data [buffer]).headD buffer)

def writeNode (n : NodeId) (position : Nat) (data : ByteArray) : Act (Option Nat) :=
  withOps n fun ops _ =>
    let file := OpenFile.stream n {}
    withFile file (ops.write file position data)

def syncNode (n : NodeId) : Act (Option Unit) :=
  withOps n fun ops _ =>
    let file := OpenFile.stream n {}
    withFile file (ops.sync file)

/-- Sends a request to a node and counts the bytes of the answer. -/
def controlNode (n : NodeId) (request : UInt32) (input : ByteArray) (room : Nat) :
    Act (Option Nat) :=
  withOps n fun ops _ =>
    let file := OpenFile.stream n {}
    withFile file do
      let answer ← ops.control file request input room
      pure answer.size

/-- What reading an entry at a cursor leaves: the entry, the cursor then, and the cursor after the
directory was started over, if that was asked for. -/
structure EntryRead where
  entry : Option DirEntry
  cursor : Nat
  last : Nat

/-- Reads the entry of a node at a cursor. -/
def entryOfNode (n : NodeId) (cursor : Nat) (startOver : Bool) : Act (Option EntryRead) :=
  withOps n fun ops volume =>
    let file := (OpenFile.directory n {}).setCursor cursor
    withFile file do
      let entry ← ops.entry volume n file.cursor
      let file := if entry.isSome then file.setCursor (cursor + 1) else file
      let last := if startOver then file.setCursor 0 else file
      pure { entry, cursor := file.cursor, last := last.cursor }

/-- Seeks from a position in a file of a given size, counting from a raw origin; also says where the
position is then. -/
def seekNode (n : NodeId) (position : Nat) (offset : Int) (whence : UInt32) (size : Nat) :
    Act (Option (Except Error Nat × Nat)) :=
  withOps n fun _ _ =>
    let file := (OpenFile.stream n {}).setPosition position
    withFile file do
      let target := (SeekOrigin.ofRaw whence).bind fun origin => file.seekTarget offset origin size
      pure (target, target.toOption.getD file.position)

end VirtualFs
