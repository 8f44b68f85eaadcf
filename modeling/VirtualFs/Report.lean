/-
What is told about a node, a volume or an open file, taken at one moment.
-/
import VirtualFs.Driver
import VirtualFs.HandleTable

namespace VirtualFs

/-- A node as others refer to it: the id of its volume, then its number. -/
structure NodeName where
  volumeId : Nat
  ino : Nat
  deriving DecidableEq, Repr, Inhabited

structure NodeReport where
  name : NodeName
  mode : UInt32
  isFile : Bool
  hasOps : Bool
  /-- Whether the node's volume lives. -/
  live : Bool
  mountRoot : Option NodeName

structure VolumeReport where
  id : Nat
  device : String
  flags : VolumeFlags
  driver : String
  root : NodeName
  point : Option NodeName

structure FileReport where
  kind : FileKind
  position : Nat
  cursor : Nat
  flags : OpenFlags
  node : NodeName

namespace World

def nodeName (w : World) (n : NodeId) : NodeName :=
  ⟨(w.node n).volumeId, (w.node n).ino⟩

def nodeReport (w : World) (n : NodeId) : NodeReport :=
  let node := w.node n
  { name := w.nodeName n
    mode := node.mode
    isFile := Mode.isRegular node.mode
    hasOps := node.ops.isSome
    live := (w.volumeOf n).isSome
    mountRoot := node.mountRoot.map w.nodeName }

def volumeReport [Backends] (w : World) (v : VolumeKey) : VolumeReport :=
  let volume := w.volume v
  { id := volume.id
    device := volume.device
    flags := volume.flags
    driver := volume.driver.name
    root := w.nodeName volume.root
    point := (w.mountPoint v).map w.nodeName }

def fileReport (w : World) (file : OpenFile) : FileReport :=
  { kind := file.kind
    position := file.position
    cursor := file.cursor
    flags := file.flags
    node := w.nodeName file.node }

/-- All mounted volumes in the order of their ids. -/
def volumeReports [Backends] (w : World) : List VolumeReport :=
  w.table.map fun (_, volume) => w.volumeReport volume

end World

end VirtualFs
