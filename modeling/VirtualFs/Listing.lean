/-
The whole tree as a list of lines, as it is seen from the root: depth
first, names in order, and every mount point standing for what is mounted
on it. Only directories of memory volumes that live are entered, and the
names that lead to a directory itself or back up are left out, even where a
driver was made to store one.
-/
import VirtualFs.Resolve

namespace VirtualFs

open Query (demand expect look)

/-- What a line shows of a node's data. -/
inductive ListedData where
  | nothing
  /-- The size of a file and its first bytes. -/
  | bytes (size : Nat) (front : ByteArray)
  | target (text : String)

/-- One line of a listing. -/
structure ListedNode where
  path : String
  volumeId : Nat
  ino : Nat
  mode : UInt32
  data : ListedData

/-- How many bytes of a file a listing shows. -/
def listedBytes : Nat := 64

/-- What a line shows of a payload. -/
def Payload.listed : Payload → ListedData
  | .ram node =>
    match node.content with
    | .file bytes => .bytes bytes.size (bytes.extract 0 listedBytes)
    | .symlink target => .target target
    | .directory _ | .device => .nothing
  | .scripted _ => .nothing

/-- A directory of a memory volume that lives. -/
def World.isRamDirectory (w : World) (n : NodeId) : Bool :=
  w.isDirectory n &&
    match (w.volumeOf n).map fun volume => (w.volume volume).driver with
    | some .ram => true
    | some (.scripted _) | none => false

/-- A name that leads away from the names below a directory: to itself or back up. -/
def isDotName (name : String) : Bool := name = "." ∨ name = ".."

variable [Backends]

/-- The lines of a list of names in a directory, each with what is below it. -/
def listNames (below : String → NodeId → Query (List ListedNode)) (path : String) (dir : NodeId) :
    List String → Query (List ListedNode)
  | [] => pure []
  | name :: rest => do
    let volume ← volumeOf dir
    let driver ← look fun w => (w.node dir).driver
    let found ← driver.locate volume dir name
    let w ← Query.world
    let n := w.cross found
    let node := w.node n
    let line : ListedNode :=
      { path := path ++ "/" ++ name
        volumeId := node.volumeId
        ino := node.ino
        mode := node.mode
        data := node.payload.listed }
    let lower ← if w.isRamDirectory n then below line.path n else pure []
    return line :: lower ++ (← listNames below path dir rest)

/-- The lines below a directory, at most so many levels down. -/
def listBelow : Nat → String → NodeId → Query (List ListedNode)
  | 0, _, _ => pure []
  | levels + 1, path, dir => do
    let names ← look fun w => (w.node dir).payload.children.names
    listNames (listBelow levels) path dir (names.filter fun name => !isDotName name)

/-- The lines of the whole tree below the root. -/
def listTree : Query (List ListedNode) := do
  let w ← Query.world
  listBelow w.nodes.size "" w.rootNode

end VirtualFs
