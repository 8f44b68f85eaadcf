/-
The operations of nodes of the memory filesystem. A file's bytes are kept
whole: a write past the end fills the gap with zeros, and no file grows
beyond `fileSizeMax`.
-/
import VirtualFs.Bytes
import VirtualFs.RamFs.Tree

namespace VirtualFs.RamFs

open Query (demand expect ofResult look)

/-- The largest file, in bytes. -/
def fileSizeMax : Nat := 16 * 1024 * 1024

def setBytes (n : NodeId) (bytes : ByteArray) : Act Unit :=
  modifyNode n fun node => { node with content := .file bytes }

/-- Empties a file; nothing else has bytes to lose. -/
def truncate (n : NodeId) : Act Unit := do
  match (← nodeOf n).content with
  | .file _ => setBytes n .empty
  | _ => pure ()

/-- Opens a file, emptied if that is asked for and the file may be written. -/
def openFile (n : NodeId) (flags : OpenFlags) : Act OpenFile := do
  Action.when (flags.truncates && flags.writable) (truncate n)
  pure (.stream n flags)

/-- The bytes from a position on. -/
def read (n : NodeId) (position room : Nat) : Query ByteArray := do
  match (← nodeOf n).content with
  | .file bytes => pure (bytes.extract position (position + room))
  | .directory _ => throw .isADirectory
  | .symlink _ | .device => throw .invalidArgument

/-- Writes at a position; writing nothing changes nothing. -/
def write (n : NodeId) (position : Nat) (data : ByteArray) : Act Nat := do
  match (← nodeOf n).content with
  | .file bytes =>
    if data.size = 0 then pure 0
    else
      demand (position + data.size ≤ fileSizeMax) .fileTooLarge
      setBytes n (Bytes.overwrite bytes position data)
      pure data.size
  | _ =>
    demand (!(← look (·.isDirectory n))) .isADirectory
    throw .invalidArgument

/-- The target of a link. -/
def readLink (n : NodeId) : Query String := do
  match (← nodeOf n).content with
  | .symlink target => pure target
  | _ => throw .invalidArgument

/-- The attributes of a node, on the volume it is asked about. -/
def status (volume : VolumeKey) (n : NodeId) : Query Status := do
  let ram ← nodeOf n
  let w ← Query.world
  pure
    { volume := (w.volume volume).id
      ino := (w.node n).ino
      mode := (w.node n).mode
      links := if w.isDirectory n then 2 else 1
      uid := ram.uid
      gid := ram.gid
      size := ram.content.size
      accessTime := ram.accessTime
      modifyTime := ram.modifyTime
      changeTime := ram.changeTime }

/-- Cuts or extends a file. -/
def setSize (n : NodeId) (size : Nat) : Act Unit := do
  demand (size ≤ fileSizeMax) .fileTooLarge
  match (← nodeOf n).content with
  | .file bytes => setBytes n (Bytes.resize bytes size)
  | .directory _ => throw .isADirectory
  | .symlink _ | .device => throw .invalidArgument

/-- A node with the owners and times that a mask selects. -/
def applyStatus (node : RamNode) (status : Status) (mask : StatusMask) : RamNode :=
  { node with
    uid := if mask.uid then status.uid else node.uid
    gid := if mask.gid then status.gid else node.gid
    accessTime := if mask.accessTime then status.accessTime else node.accessTime
    modifyTime := if mask.modifyTime then status.modifyTime else node.modifyTime
    changeTime := if mask.changeTime then status.changeTime else node.changeTime }

/-- Changes the selected attributes. The size comes first, and nothing is changed if it cannot be
set. -/
def writeStatus (n : NodeId) (status : Status) (mask : StatusMask) : Act Unit := do
  let _ ← nodeOf n
  Action.when mask.size (setSize n status.size)
  Action.when mask.mode (Action.change (·.setPermissions n status.mode))
  modifyNode n fun node => applyStatus node status mask

/-- The operations of the memory filesystem. -/
def ops : NodeOps where
  openFile _ n flags := openFile n flags
  read file position room := read file.node position room
  write file position data := write file.node position data
  readLink _ n := readLink n
  entry _ dir index := nthEntry dir index
  status volume n := status volume n
  writeStatus _ n status mask := writeStatus n status mask

end VirtualFs.RamFs
