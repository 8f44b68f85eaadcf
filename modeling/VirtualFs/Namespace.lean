/-
Changing what directories list. Each operation finds the parent of the name
it is about, checks the name, and only then asks the driver; the last name
is never followed or crossed. A slash at the end of a name is dropped where
directories are meant, and makes a rename insist on a directory.
-/
import VirtualFs.Open
import VirtualFs.Transfer

namespace VirtualFs

open Query (demand expect ofResult look)

variable [Backends]

/-- The parent and the last name of a path that starts at a handle or at the task's directory. -/
def resolveTarget (t : TaskId) (base : Option Handle) (path : String) :
    Query (NodeId × String) := do
  let start ← startNode t base
  resolveParent t start path

/-- Where a name may be changed: its directory, the name, and the volume and driver to ask. -/
structure Place where
  parent : NodeId
  name : String
  volume : VolumeKey
  driver : DriverKind

/-- The place a path names. -/
def placeOf (t : TaskId) (base : Option Handle) (path : String) : Query Place := do
  let (parent, name) ← resolveTarget t base path
  ofResult (checkName name)
  let volume ← volumeForWriting parent
  let driver ← look fun w => (w.node parent).driver
  pure { parent, name, volume, driver }

def makeDirectory (t : TaskId) (base : Option Handle) (path : String) (mode : UInt32) :
    Act Unit := do
  let place ← placeOf t base (stripSlashes path).1
  place.driver.createDirectory place.volume place.parent place.name mode

def removeDirectory (t : TaskId) (base : Option Handle) (path : String) : Act Unit := do
  let place ← placeOf t base (stripSlashes path).1
  place.driver.removeDirectory place.volume place.parent place.name

def unlink (t : TaskId) (base : Option Handle) (path : String) : Act Unit := do
  let place ← placeOf t base path
  place.driver.unlink place.volume place.parent place.name

/-- Creates a link at a path. The target must not be empty nor too long. -/
def makeSymlink (t : TaskId) (base : Option Handle) (path target : String) : Act Unit := do
  demand (target ≠ "") .notFound
  demand (target.utf8ByteSize ≤ (← look (·.limits.linkLength))) .nameTooLong
  let place ← placeOf t base path
  place.driver.createSymlink place.volume place.parent place.name target

/-- The target of the link at a path. -/
def readLink (t : TaskId) (base : Option Handle) (path : String) : Query String := do
  let start ← startNode t base
  let n ← resolve t start path .crossOnly
  demand (← look (·.isSymlink n)) .invalidArgument
  let ops ← opsOf n
  let volume ← volumeOf n
  let status ← statusOf n
  demand (status.size ≤ (← look (·.limits.linkLength))) .nameTooLong
  ops.readLink volume n (← look fun w => (w.task t).depth)

/-- Moves an entry within one volume. -/
def rename (t : TaskId) (oldBase : Option Handle) (oldPath : String) (newBase : Option Handle)
    (newPath : String) : Act Unit := do
  let (oldPath, oldIsDirectory) := stripSlashes oldPath
  let (newPath, newIsDirectory) := stripSlashes newPath
  let (oldParent, oldName) ← resolveTarget t oldBase oldPath
  let (newParent, newName) ← resolveTarget t newBase newPath
  ofResult (checkName oldName)
  ofResult (checkName newName)
  let w ← Action.world
  demand ((w.node oldParent).volumeId = (w.node newParent).volumeId) .crossDevice
  let volume ← volumeForWriting oldParent
  (w.node oldParent).driver.rename volume oldParent oldName newParent newName
    (oldIsDirectory || newIsDirectory)

end VirtualFs
