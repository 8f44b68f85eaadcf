/-
The whole state of an instance, and what can be read off it without asking
a driver. A key that refers to nothing reads as a blank thing: every key the
library holds on to is live, so a blank never shows.
-/
import VirtualFs.Limits
import VirtualFs.Node

namespace VirtualFs

/-- The state of an instance. -/
structure World where
  limits : Limits
  nodes : Arena Node := {}
  volumes : Arena Volume := {}
  /-- The mounted volumes by id, in the order of mounting, which is the order of the ids. -/
  table : List (Nat × VolumeKey) := []
  /-- The id the next mount gets. -/
  nextVolumeId : Nat := firstVolumeId
  /-- The volume mounted at "/". -/
  rootVolume : VolumeKey := 0
  drivers : NameMap DriverKind := .empty
  /-- The contexts; the first is the kernel's. -/
  contexts : Array Context := #[]
  tasks : Array Task := #[]
  files : Arena OpenFile := {}
  /-- Nodes that a caller holds under a name. -/
  pins : NameMap NodeId := .empty
  deriving Inhabited

/-- The context of the kernel. -/
def kernelContext : ContextId := 0

namespace World

def node (w : World) (n : NodeId) : Node := (w.nodes.get? n).getD default

def volume (w : World) (v : VolumeKey) : Volume := (w.volumes.get? v).getD default

def file (w : World) (f : FileId) : OpenFile := (w.files.get? f).getD default

def context (w : World) (c : ContextId) : Context := w.contexts.getD c default

def task (w : World) (t : TaskId) : Task := w.tasks.getD t default

/-- The root of everything. -/
def rootNode (w : World) : NodeId := (w.volume w.rootVolume).root

/-- A node's volume, while it lives. -/
def volumeOf (w : World) (n : NodeId) : Option VolumeKey :=
  let v := (w.node n).volume
  if w.volumes.has v then some v else none

def isDirectory (w : World) (n : NodeId) : Bool := Mode.isDirectory (w.node n).mode

def isSymlink (w : World) (n : NodeId) : Bool := Mode.isSymlink (w.node n).mode

/-- The same number on a volume of the same id. -/
def sameIdentity (w : World) (a b : NodeId) : Bool :=
  (w.node a).volumeId == (w.node b).volumeId && (w.node a).ino == (w.node b).ino

/-- The node a volume is mounted on: none for the root volume, nor once that node is gone or
carries another volume. -/
def mountPoint (w : World) (v : VolumeKey) : Option NodeId :=
  (w.volume v).point.filter fun p =>
    w.nodes.has p && (w.node p).mountRoot == some (w.volume v).root

/-- The node seen at `n`: the root of the volume mounted there, or `n` itself. -/
def cross (w : World) (n : NodeId) : NodeId := (w.node n).mountRoot.getD n

/-- The mounted volume of an id. -/
def mounted? (w : World) (id : Nat) : Option VolumeKey := w.table.lookup id

/-- The context a task's handle or open call belongs to. -/
def contextOf (w : World) (t : TaskId) (kernel : Bool) : ContextId :=
  if kernel then kernelContext else (w.task t).context

/-- The directory a task's relative paths start from. -/
def cwd (w : World) (t : TaskId) : NodeId := (w.context (w.task t).context).cwd

def setNode (w : World) (n : NodeId) (f : Node → Node) : World :=
  { w with nodes := w.nodes.modify n f }

/-- The world with a node's permissions changed; its type stays. -/
def setPermissions (w : World) (n : NodeId) (perms : UInt32) : World :=
  w.setNode n fun node => { node with mode := Mode.make node.mode perms }

def setVolume (w : World) (v : VolumeKey) (f : Volume → Volume) : World :=
  { w with volumes := w.volumes.modify v f }

def setFile (w : World) (i : FileId) (f : OpenFile → OpenFile) : World :=
  { w with files := w.files.modify i f }

def setContext (w : World) (c : ContextId) (f : Context → Context) : World :=
  { w with contexts := w.contexts.modify c f }

def setTask (w : World) (t : TaskId) (f : Task → Task) : World :=
  { w with tasks := w.tasks.modify t f }

end World

end VirtualFs
