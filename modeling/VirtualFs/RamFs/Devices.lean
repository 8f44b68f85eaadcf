/-
Device nodes. A device is published at a path below the device directory of
a memory volume; the directories on the way are made when they are missing.
Afterwards it is known by its number.
-/
import VirtualFs.RamFs.Driver

namespace VirtualFs.RamFs

open Query (demand expect ofResult look)

/-- The device directory of a volume. -/
def deviceDirectory (volume : VolumeKey) : Query NodeId := do
  lookup (← look fun w => (w.volume volume).root) deviceDir

/-- The names of a path that are not empty. -/
def components (path : String) : List String :=
  ((pieces path.toList).filter fun part => !part.isEmpty).map String.ofList

/-- The directory of a name, made if it is not there. -/
def ensureDirectory (volume : VolumeKey) (dir : NodeId) (name : String) : Act NodeId := do
  match ← Query.attempt (lookup dir name) with
  | .ok found => pure found
  | .error .notFound =>
    let ops ← inheritedOps dir
    insert volume dir name (Mode.make Mode.directory 0o755) (.directory .empty) ops
  | .error e => throw e

/-- Goes down a list of names, making directories on the way; ends at the directory of the last
name. -/
def descend (volume : VolumeKey) : NodeId → List String → Act (NodeId × String)
  | _, [] => throw .invalidArgument
  | dir, [name] => do
    ofResult (checkName name)
    pure (dir, name)
  | dir, name :: rest => do
    ofResult (checkName name)
    let next ← ensureDirectory volume dir name
    descend volume next rest

/-- The directory that will hold a device, and the device's name in it. -/
def devicePlace (volume : VolumeKey) (path : String) : Act (NodeId × String) := do
  let root ← deviceDirectory volume
  descend volume root (components path)

/-- Publishes a device and gives its number. -/
def publishDevice (volume : VolumeKey) (path : String) (ops : OpsKind) : Act Nat := do
  let (dir, name) ← devicePlace volume path
  let n ← insert volume dir name (Mode.make Mode.character 0o666) .device (some ops)
  look fun w => (w.node n).ino

/-- The entry of the device directory that holds a number. -/
def findDevice (volume : VolumeKey) (ino : Nat) : Query (NodeId × String) := do
  let root ← deviceDirectory volume
  expect (← findIno root ino) .notFound

/-- Moves a device to another path. -/
def moveDevice (volume : VolumeKey) (ino : Nat) (path : String) : Act Unit := do
  let (oldDir, oldName) ← findDevice volume ino
  let (newDir, newName) ← devicePlace volume path
  rename volume oldDir oldName newDir newName false

/-- Takes a device away. -/
def withdrawDevice (volume : VolumeKey) (ino : Nat) : Act Unit := do
  let (dir, name) ← findDevice volume ino
  unlink volume dir name

end VirtualFs.RamFs
