/-
Asking about nodes, changing their attributes, and a task's own directory.
-/
import VirtualFs.Location
import VirtualFs.Namespace

namespace VirtualFs

open Query (demand expect ofResult look)

variable [Backends]

/-- The attributes of the node a path leads to. -/
def status (t : TaskId) (base : Option Handle) (path : String) : Query Status := do
  let start ← startNode t base
  statusOf (← resolve t start path .full)

/-- The attributes of the node at a path; a link at its end is not followed. -/
def linkStatus (t : TaskId) (base : Option Handle) (path : String) : Query Status := do
  let start ← startNode t base
  statusOf (← resolve t start path .crossOnly)

/-- The attributes of the node behind a handle. -/
def handleStatus (t : TaskId) (h : Handle) : Query Status := do
  statusOf (← openFileOf t h).node

/-- Changes the selected attributes of the node behind a handle. -/
def writeStatus (t : TaskId) (h : Handle) (status : Status) (mask : StatusMask) : Act Unit := do
  let (file, ops) ← operableOf t h
  let volume ← volumeForWriting file.node
  ops.writeStatus volume file.node status mask

/-- The access bit that asks to write. -/
def writeAccess : UInt32 := 2

/-- Checks access bits for a path; no bits ask only whether it is there. -/
def access (t : TaskId) (base : Option Handle) (path : String) (mode : UInt32) : Query Unit := do
  let start ← startNode t base
  let n ← resolve t start path .full
  if mode = 0 then pure ()
  else
    let volume ← volumeOf n
    let frozen ← look fun w => (w.volume volume).flags.isReadOnly
    demand (!(mode &&& writeAccess != 0 && frozen)) .readOnly
    let ops ← opsOf n
    ops.checkAccess volume n mode

/-- Makes a directory the one that a task's relative paths start from. -/
def enterDirectory (t : TaskId) (n : NodeId) : Act Unit := do
  demand (← look (·.isDirectory n)) .notADirectory
  setWorkingDirectory (← look fun w => (w.task t).context) n

def changeDirectory (t : TaskId) (path : String) : Act Unit := do
  enterDirectory t (← resolve t none path .full)

/-- Like `changeDirectory`, to the directory behind a handle. -/
def changeDirectoryTo (t : TaskId) (h : Handle) : Act Unit := do
  enterDirectory t (← openFileOf t h).node

/-- The absolute path of a task's directory. -/
def workingDirectory (t : TaskId) (capacity : Nat) : Query String := do
  absolutePath t (← look (·.cwd t)) capacity

/-- The absolute path of the directory behind a handle. -/
def directoryPath (t : TaskId) (h : Handle) (capacity : Nat) : Query String := do
  let file ← openFileOf t h
  demand (← look (·.isDirectory file.node)) .notADirectory
  absolutePath t file.node capacity

end VirtualFs
