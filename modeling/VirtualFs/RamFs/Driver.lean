/-
The driver of the memory filesystem. Each mount is a tree of its own whose
numbers start again; new nodes get the driver and the operations of the
directory they are made in.
-/
import VirtualFs.RamFs.Files

namespace VirtualFs.RamFs

open Query (demand expect ofResult look)

/-- The name the driver is registered under. -/
def driverName : String := "tmpfs"

/-- The operations of the directory a node is made in. -/
def inheritedOps (dir : NodeId) : Query (Option OpsKind) := look fun w => (w.node dir).ops

/-- Makes a volume that holds its root alone. -/
def mount (id : Nat) (device : String) (flags : VolumeFlags) : Act VolumeKey := do
  let w ← Action.world
  let volume := w.volumes.nextKey
  let root := w.nodes.nextKey
  Action.change fun w =>
    { w with
      volumes := w.volumes.push
        { id, device, flags, root, driver := .ram, nextIno := some (rootIno + 1) }
      nodes := w.nodes.push
        { ino := rootIno
          volumeId := id
          volume
          driver := .ram
          ops := some .ram
          mode := Mode.make Mode.directory 0o777
          payload := .ram { parent := none, content := .directory .empty } } }
  pure volume

def createFile (volume : VolumeKey) (parent : NodeId) (name : String) (flags : OpenFlags)
    (mode : UInt32) : Act OpenFile := do
  let ops ← inheritedOps parent
  let n ← insert volume parent name (Mode.make Mode.regular mode) (.file .empty) ops
  pure (.stream n flags)

def createDirectory (volume : VolumeKey) (parent : NodeId) (name : String) (mode : UInt32) :
    Act Unit := do
  let ops ← inheritedOps parent
  let _ ← insert volume parent name (Mode.make Mode.directory mode) (.directory .empty) ops

def createSymlink (volume : VolumeKey) (parent : NodeId) (name target : String) : Act Unit := do
  let ops ← inheritedOps parent
  let _ ← insert volume parent name (Mode.make Mode.symlink 0o777) (.symlink target) ops

/-- The driver of the memory filesystem. -/
def driver : Driver where
  name := driverName
  mount id device flags _ := mount id device flags
  locate _ parent name := lookup parent name
  createFile volume parent name flags mode := createFile volume parent name flags mode
  createDirectory volume parent name mode := createDirectory volume parent name mode
  createSymlink volume parent name target := createSymlink volume parent name target
  rename volume oldParent oldName newParent newName mustBeDirectory :=
    rename volume oldParent oldName newParent newName mustBeDirectory
  unlink volume parent name := unlink volume parent name
  removeDirectory volume parent name := removeDirectory volume parent name

end VirtualFs.RamFs
