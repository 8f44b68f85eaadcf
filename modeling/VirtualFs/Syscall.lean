/-
The system call boundary: raw integers in, a number or the number of an
error out. Each call first turns its arguments into what the operation
takes, and an argument that cannot be turned ends the call before anything
else happens. Descriptors never reach the kernel's table.
-/
import VirtualFs.Inspect
import VirtualFs.Mounting

namespace VirtualFs.Syscall

/-- The number of an error. -/
abbrev Errno := UInt32

/-- A system call: an action that fails with an error number. -/
abbrev Sys (α : Type) := Action Errno α

def ebadf : Errno := Error.badHandle.errno
def einval : Errno := Error.invalidArgument.errno
def erange : Errno := Error.outOfRange.errno

/-- The descriptor that stands for the task's own directory. -/
def atCwd : Int32 := -100

/-- Looks at a link itself. -/
def atNofollow : UInt32 := 0x100

/-- Removes a directory. -/
def atRemoveDirectory : UInt32 := 0x200

/-- The command that asks for the flags of a descriptor. -/
def getFlagsCommand : UInt32 := 3

/-- The command that changes the flags of a descriptor. -/
def setFlagsCommand : UInt32 := 4

/-- The number a cause is returned as; the cause is logged on the way. -/
def refusal {α : Type} (cause : Error) : Sys α := do
  Action.log (.callFailed cause)
  throw cause.errno

/-- Ends as an operation ended. -/
def settled {α : Type} : Except Error α → Sys α
  | .ok a => pure a
  | .error cause => refusal cause

/-- The operation a call stands for. -/
def perform {α : Type} (operation : Act α) : Sys α := do
  settled (← Action.attempt operation)

/-- An operation that cannot change the world. -/
def ask {α : Type} (operation : Query α) : Sys α := perform operation

/-- The handle of a descriptor, which must not be negative nor select the kernel's table. -/
def handleOf (fd : Int32) : Sys Handle :=
  match Handle.ofRaw? fd with
  | some h => if h.isKernel then throw ebadf else pure h
  | none => throw ebadf

/-- The handle that relative paths start from, none for the task's own directory. -/
def baseOf (fd : Int32) : Sys (Option Handle) :=
  if fd = atCwd then pure none else some <$> handleOf fd

/-- A position, which must not be negative. -/
def positionOf (offset : Int) : Sys Nat :=
  if 0 ≤ offset then pure offset.toNat else throw einval

variable [Backends]

def openat (t : TaskId) (dirfd : Int32) (path : String) (flags mode : UInt32) : Sys Int := do
  let base ← baseOf dirfd
  let flags := (OpenFlags.mk flags).without OpenFlags.kernelBit
  let h ← perform (openPath t base path flags mode)
  pure h.raw.toInt

def close (t : TaskId) (fd : Int32) : Sys Int := do
  let h ← handleOf fd
  perform (VirtualFs.close t h)
  pure 0

/-- What a call that fills buffers returns: a count, and the buffers. -/
structure Filled where
  count : Int
  buffers : List ByteArray

/-- Ends as a call that fills buffers ended. -/
def filled (r : Received Nat) : Sys Filled := do
  let count ← settled r.result
  pure { count, buffers := r.buffers }

def readv (t : TaskId) (fd : Int32) (buffers : List ByteArray) : Sys Filled := do
  let h ← handleOf fd
  filled (← perform (VirtualFs.readv t h buffers))

def read (t : TaskId) (fd : Int32) (buffer : ByteArray) : Sys Filled := readv t fd [buffer]

def writev (t : TaskId) (fd : Int32) (segments : List ByteArray) : Sys Int := do
  let h ← handleOf fd
  let count ← perform (VirtualFs.writev t h segments)
  pure count

def write (t : TaskId) (fd : Int32) (data : ByteArray) : Sys Int := writev t fd [data]

def pread64 (t : TaskId) (fd : Int32) (buffer : ByteArray) (offset : Int) : Sys Filled := do
  let h ← handleOf fd
  let position ← positionOf offset
  filled (← perform (preadv t h position [buffer]))

def pwrite64 (t : TaskId) (fd : Int32) (data : ByteArray) (offset : Int) : Sys Int := do
  let h ← handleOf fd
  let position ← positionOf offset
  let count ← perform (pwritev t h position [data])
  pure count

def lseek (t : TaskId) (fd : Int32) (offset : Int) (whence : UInt32) : Sys Int := do
  let origin ← settled (SeekOrigin.ofRaw whence)
  let h ← handleOf fd
  let position ← perform (seek t h offset origin)
  pure position

def sync : Sys Int := do
  ask VirtualFs.sync
  pure 0

def fsync (t : TaskId) (fd : Int32) : Sys Int := do
  let h ← handleOf fd
  ask (flush t h)
  pure 0

def ioctl (t : TaskId) (fd : Int32) (request : UInt32) (input buffer : ByteArray) :
    Sys Filled := do
  let h ← handleOf fd
  filled (← perform (control t h request input buffer))

def dup (t : TaskId) (fd : Int32) : Sys Int := do
  let h ← handleOf fd
  let copy ← perform (duplicate t h)
  pure copy.raw.toInt

/-- Duplicates onto a number that must differ; of the flags only close-on-exec is accepted, and it
has no effect. -/
def dup3 (t : TaskId) (oldfd newfd : Int32) (flags : UInt32) : Sys Int := do
  if oldfd = newfd ∨ flags &&& ~~~OpenFlags.closeOnExecBit ≠ 0 then throw einval
  else
    let h ← handleOf oldfd
    let target ← handleOf newfd
    let copy ← perform (duplicateTo t h target)
    pure copy.raw.toInt

/-- Asks for or changes the flags of a descriptor. -/
def fcntl (t : TaskId) (fd : Int32) (command argument : UInt32) : Sys Int := do
  let h ← handleOf fd
  if command = getFlagsCommand then
    let flags ← ask (flagsOf t h)
    pure flags.bits.toNat
  else if command = setFlagsCommand then
    perform (setFlags t h ⟨argument⟩)
    pure 0
  else throw einval

def readdir (t : TaskId) (fd : Int32) : Sys (Option DirEntry) := do
  let h ← handleOf fd
  perform (nextEntry t h)

def mkdirat (t : TaskId) (dirfd : Int32) (path : String) (mode : UInt32) : Sys Int := do
  let base ← baseOf dirfd
  perform (makeDirectory t base path mode)
  pure 0

/-- Removes a name; a flag says that it is a directory. -/
def unlinkat (t : TaskId) (dirfd : Int32) (path : String) (flags : UInt32) : Sys Int := do
  let base ← baseOf dirfd
  if flags &&& atRemoveDirectory ≠ 0 then perform (removeDirectory t base path)
  else perform (unlink t base path)
  pure 0

def renameat (t : TaskId) (olddirfd : Int32) (oldpath : String) (newdirfd : Int32)
    (newpath : String) : Sys Int := do
  let oldBase ← baseOf olddirfd
  let newBase ← baseOf newdirfd
  perform (rename t oldBase oldpath newBase newpath)
  pure 0

def symlinkat (t : TaskId) (target : String) (dirfd : Int32) (path : String) : Sys Int := do
  let base ← baseOf dirfd
  perform (makeSymlink t base path target)
  pure 0

/-- Reads a link into a buffer; a target that is too long is cut. -/
def readlinkat (t : TaskId) (dirfd : Int32) (path : String) (buffer : ByteArray) :
    Sys Filled := do
  let base ← baseOf dirfd
  let target ← ask (readLink t base path)
  let shown := target.toUTF8.extract 0 buffer.size
  pure { count := shown.size, buffers := Bytes.scatter shown [buffer] }

def fstat (t : TaskId) (fd : Int32) : Sys Status := do
  let h ← handleOf fd
  ask (handleStatus t h)

def fstatat (t : TaskId) (dirfd : Int32) (path : String) (flags : UInt32) : Sys Status := do
  let base ← baseOf dirfd
  if flags &&& atNofollow ≠ 0 then ask (linkStatus t base path) else ask (status t base path)

def faccessat (t : TaskId) (dirfd : Int32) (path : String) (mode : UInt32) : Sys Int := do
  let base ← baseOf dirfd
  ask (access t base path mode)
  pure 0

def mount (t : TaskId) (device dir fs : String) (flags : UInt32) (args : String) : Sys Int := do
  let volume ← perform (VirtualFs.mount t device dir fs (.ofBits flags) args)
  Action.look fun w => (w.volume volume).id

def chdir (t : TaskId) (path : String) : Sys Int := do
  perform (changeDirectory t path)
  pure 0

def fchdir (t : TaskId) (fd : Int32) : Sys Int := do
  let h ← handleOf fd
  perform (changeDirectoryTo t h)
  pure 0

/-- A path as it is handed out, with the zero byte that ends it. -/
def terminated (path : String) : ByteArray := path.toUTF8.push 0

/-- Puts the path of the task's directory into a buffer. -/
def receiveCwd (t : TaskId) (buffer : ByteArray) : Act (Received Nat) :=
  receive [buffer]
    (do
      let path ← workingDirectory t (buffer.size - 1)
      pure (terminated path))
    fun written => pure written.size

/-- Puts the path of the task's directory into a buffer. A path that does not fit is out of range,
and that alone is not logged. -/
def getcwd (t : TaskId) (buffer : ByteArray) : Sys Filled := do
  let r ← perform (receiveCwd t buffer)
  match r.result with
  | .error .nameTooLong => throw erange
  | _ => filled r

end VirtualFs.Syscall
