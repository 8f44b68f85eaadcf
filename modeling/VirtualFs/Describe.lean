/-
Nodes, volumes and open files in words.
-/
import VirtualFs.Event
import VirtualFs.Text.Quoted

namespace VirtualFs

/-- The description of a volume. -/
def Volume.text (v : Volume) : String :=
  "Volume \x7b id: " ++ toString v.id ++ ", device: " ++ Text.quoted v.device ++
    ", flags: VolumeFlags(" ++ v.flags.text ++ "), .. \x7d"

/-- The name of a kind of open file. -/
def FileKind.text : FileKind → String
  | .stream _ => "file"
  | .directory _ => "directory"
  | .path => "path"

/-- The description of an open file. -/
def World.fileText (w : World) (file : OpenFile) : String :=
  "FileTableNode \x7b kind: " ++ Text.quoted file.kind.text ++ ", inode: " ++
    (w.tag file.node).text ++ ", flags: OpenFlags(" ++ toString file.flags.bits.toNat ++ ") \x7d"

end VirtualFs
