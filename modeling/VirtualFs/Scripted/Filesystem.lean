/-
Scripted filesystems as drivers. Mounting plants the whole tree; after that
nothing in it changes. Every upward name leads to the root of the volume.
-/
import VirtualFs.Lifetime
import VirtualFs.Scripted.Ops

namespace VirtualFs

open Query (demand expect ofResult look)

/-- Passes unless there is a cause to fail; a bare filesystem never fails. -/
def ScriptedFs.refuse (fs : ScriptedFs) (fault : Option Error) : Except Error Unit :=
  match fault with
  | some e => if fs.bare then .ok () else .error e
  | none => .ok ()

namespace Scripted

/-- The operations of a planted node. -/
def opsRef (fs : ScriptedFs) : ScriptedOps → Option OpsKind
  | .absent => none
  | .bare => some .bare
  | .script script => some (.scripted fs.meter script)

/-- The node of a tree's top, given its children. -/
def plantedNode (fs : ScriptedFs) (id : Nat) (volume : VolumeKey) (ino : Nat) (tree : ScriptedTree)
    (children : NameMap NodeId) : Node :=
  { ino := tree.ino.getD ino
    volumeId := id
    volume
    driver := .scripted fs
    ops := opsRef fs tree.ops
    mode := tree.mode
    payload := .scripted (if Mode.isDirectory tree.mode then some children else none) }

mutual

/-- Plants a tree whose top has the number `ino` unless it names its own. -/
def plant (fs : ScriptedFs) (id : Nat) (volume : VolumeKey) (ino : Nat) :
    ScriptedTree → Arena Node → NodeId × Arena Node
  | .node name mode own ops entries, nodes =>
    let (children, nodes) := plantAll fs id volume 2 entries nodes
    let node := plantedNode fs id volume ino (.node name mode own ops entries) (.ofList children)
    (nodes.nextKey, nodes.push node)

/-- Plants trees side by side, numbered from `ino` on. -/
def plantAll (fs : ScriptedFs) (id : Nat) (volume : VolumeKey) (ino : Nat) :
    List ScriptedTree → Arena Node → List (String × NodeId) × Arena Node
  | [], nodes => ([], nodes)
  | tree :: rest, nodes =>
    let (n, nodes) := plant fs id volume ino tree nodes
    let (others, nodes) := plantAll fs id volume (ino + 1) rest nodes
    ((tree.name, n) :: others, nodes)

end

/-- Makes a volume that holds the planted tree. Entries that another of their name hides go at
once. -/
def mount (fs : ScriptedFs) (id : Nat) (device : String) (flags : VolumeFlags) :
    Act VolumeKey := do
  ofResult (fs.refuse fs.mountFault)
  let volume ← Action.look (·.volumes.nextKey)
  Action.change fun w =>
    let (root, nodes) := plant fs id volume 1 fs.root w.nodes
    { w with
      nodes
      volumes := w.volumes.push { id, device, flags, root, driver := .scripted fs } }.settle
  pure volume

/-- Finds a name in a scripted directory. -/
def lookup (volume : VolumeKey) (parent : NodeId) (name : String) : Query NodeId := do
  let children ← childrenOf parent
  if name = "." ∨ name = ".." then look fun w => (w.volume volume).root
  else expect (children.get? name) .notFound

/-- The driver of a scripted filesystem. -/
def driver (fs : ScriptedFs) : Driver where
  name := fs.name
  mount id device flags _ := mount fs id device flags
  locate := lookup
  rename _ _ _ _ _ _ :=
    if fs.bare then throw .notImplemented else ofResult (fs.refuse fs.renameFault)
  sync _ := ofResult (fs.refuse fs.syncFault)

end Scripted

end VirtualFs
