/-
Opening and closing. Every open reserves its number before anything else, so
a full table changes nothing, and a failed open leaves no number behind.
Duplicates share one open file; a reopened handle gets a file of its own at
the same position.
-/
import VirtualFs.HandleTable
import VirtualFs.Resolve

namespace VirtualFs

open Query (demand expect ofResult look)

variable [Backends]

/-- The directory behind the handle that relative paths start from. Without a handle there is none,
and the task's own directory is meant. -/
def startNode (t : TaskId) : Option Handle → Query (Option NodeId)
  | none => pure none
  | some base => do
    let file ← openFileOf t base
    demand (← look (·.isDirectory file.node)) .notADirectory
    pure (some file.node)

/-- A node's volume, which must live and may be written to. -/
def volumeForWriting (n : NodeId) : Query VolumeKey := do
  let volume ← volumeOf n
  demand (!(← look fun w => (w.volume volume).flags.isReadOnly)) .readOnly
  pure volume

/-- Opens a node that has been found. -/
def openFound (n : NodeId) (flags : OpenFlags) : Act OpenFile := do
  if flags.pathOnly then pure (.path n flags)
  else
    let w ← Action.world
    demand (!(flags.nofollow && w.isSymlink n)) .loop
    let ops ← opsOf n
    let volume ← volumeOf n
    let flags := flags.without OpenFlags.createBit
    if w.isDirectory n then
      demand (!flags.writable) .isADirectory
      ops.openDirectory volume n flags
    else
      demand (!flags.directoryOnly) .notADirectory
      demand (!(flags.writable && (w.volume volume).flags.isReadOnly)) .readOnly
      ops.openFile volume n flags

/-- Creates a regular file and opens it. -/
def createNode (parent : NodeId) (name : String) (flags : OpenFlags) (mode : UInt32) :
    Act OpenFile := do
  ofResult (checkName name)
  let volume ← volumeForWriting parent
  let driver ← look fun w => (w.node parent).driver
  driver.createFile volume parent name flags mode

/-- The open file for a name in a directory: the node that is there, or a new one if the flags ask
for it. -/
def openName (t : TaskId) (parent : NodeId) (name : String) (flags : OpenFlags) (mode : UInt32) :
    Act OpenFile := do
  let lookup := if flags.nofollow then LookupMode.crossOnly else .full
  match ← Query.attempt (resolveIn t parent name lookup) with
  | .ok n =>
    demand (!(flags.creates && flags.exclusive)) .alreadyExists
    openFound n flags
  | .error e =>
    if e = .notFound ∧ flags.creates then createNode parent name flags mode else throw e

/-- Opens a path. -/
def openPath (t : TaskId) (base : Option Handle) (path : String) (flags : OpenFlags)
    (mode : UInt32) : Act Handle := do
  let c ← look (·.contextOf t flags.forKernel)
  withReserved c fun h => do
    let start ← startNode t base
    let (parent, name) ← resolveParent t start path
    let file ← openName t parent name flags mode
    let handle ← commitFile c h file
    Action.log (.opened path handle)
    pure handle

/-- Opens a node that a caller has at hand. -/
def openHeld (t : TaskId) (n : NodeId) (flags : OpenFlags) : Act Handle := do
  let c ← look (·.contextOf t flags.forKernel)
  withReserved c fun h => do
    let file ← openFound n flags
    commitFile c h file

/-- Frees a handle; its file is closed once no duplicate is left. -/
def close (t : TaskId) (h : Handle) : Act Unit := do
  let c ← look (·.contextOf t h.isKernel)
  let _ ← lookupHandle c h
  giveBack c h

/-- A new handle for the open file of another. -/
def duplicate (t : TaskId) (h : Handle) : Act Handle := do
  let f ← fileOf t h
  let c ← look (·.contextOf t h.isKernel)
  withReserved c fun copy => do
    bindHandle c copy f
    pure copy

/-- Binds the open file of a handle to another number, closing what was there. -/
def duplicateTo (t : TaskId) (h target : Handle) : Act Handle := do
  let f ← fileOf t h
  if h = target then pure target
  else
    let c ← look (·.contextOf t target.isKernel)
    dropDisplaced (← installHandle c target f)
    pure target

/-- Opens the node behind a handle once more, at the same position. -/
def reopen (t : TaskId) (h : Handle) : Act Handle := do
  let file ← openFileOf t h
  let c ← look (·.contextOf t h.isKernel)
  withReserved c fun copy => do
    let fresh ← openFound file.node (file.flags.without OpenFlags.truncateBit)
    commitFile c copy (fresh.setPosition file.position)

/-- The flags of an open file. -/
def flagsOf (t : TaskId) (h : Handle) : Query OpenFlags := do
  pure (← openFileOf t h).flags

/-- Replaces the status flags of an open file. -/
def setFlags (t : TaskId) (h : Handle) (flags : OpenFlags) : Act Unit := do
  let f ← fileOf t h
  Action.change (·.setFile f fun file => { file with flags := file.flags.withStatus flags })

/-- Moves an open stream without a check. -/
def setPosition (t : TaskId) (h : Handle) (position : Nat) : Act Nat := do
  let f ← fileOf t h
  Action.change (·.setFile f fun file => file.setPosition position)
  Action.look fun w => (w.file f).position

/-- Moves an open directory without a check. -/
def setCursor (t : TaskId) (h : Handle) (cursor : Nat) : Act Nat := do
  let f ← fileOf t h
  Action.change (·.setFile f fun file => file.setCursor cursor)
  Action.look fun w => (w.file f).cursor

end VirtualFs
