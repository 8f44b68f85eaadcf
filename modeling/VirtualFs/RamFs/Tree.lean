/-
The tree of the memory filesystem. A directory holds its children by name
and each child points back at its directory; the pointer back keeps nothing
alive, and a directory whose parent is gone is its own parent. Numbers are
given in rising order within a volume.
-/
import VirtualFs.Lifetime
import VirtualFs.Resolve

namespace VirtualFs.RamFs

open Query (demand expect ofResult look)

/-- The number of a volume's root. -/
def rootIno : Nat := 1

/-- The memory filesystem's part of a node; a node of another driver has none. -/
def nodeOf (n : NodeId) : Query RamNode := do
  match ← look fun w => (w.node n).payload with
  | .ram node => pure node
  | .scripted _ => throw .ioError

/-- The number a volume gives next; a volume of another driver gives none. -/
def nextInoOf (volume : VolumeKey) : Query Nat := do
  expect (← look fun w => (w.volume volume).nextIno) .ioError

/-- The children of a directory. -/
def childrenOf (dir : NodeId) : Query (NameMap NodeId) := do
  match (← nodeOf dir).content with
  | .directory children => pure children
  | _ => throw .notADirectory

/-- The directory that holds a node, or the node itself if there is none. -/
def containerOf (n : NodeId) : Query NodeId := do
  let parent := (← nodeOf n).parent
  look fun w => (parent.filter w.nodes.has).getD n

/-- Finds a name in a directory. -/
def lookup (dir : NodeId) (name : String) : Query NodeId := do
  if name = "." then pure dir
  else if name = ".." then containerOf dir
  else expect ((← childrenOf dir).get? name) .notFound

/-- A node with its memory part changed. -/
def modifyNode (n : NodeId) (f : RamNode → RamNode) : Act Unit :=
  Action.change (·.setNode n fun node =>
    match node.payload with
    | .ram ram => { node with payload := .ram (f ram) }
    | .scripted _ => node)

def setChildren (dir : NodeId) (children : NameMap NodeId) : Act Unit :=
  modifyNode dir fun node => { node with content := .directory children }

/-- Makes a node of a volume with the volume's next number, in a directory whose driver it gets. -/
def makeNode (volume : VolumeKey) (dir : NodeId) (mode : UInt32) (content : Content)
    (ops : Option OpsKind) : Act NodeId := do
  let ino ← nextInoOf volume
  let w ← Action.world
  let node : Node :=
    { ino, mode, ops, volume
      volumeId := (w.volume volume).id
      driver := (w.node dir).driver
      payload := .ram { parent := some dir, content } }
  Action.change fun w =>
    { w.setVolume volume fun v => { v with nextIno := some (ino + 1) } with
      nodes := w.nodes.push node }
  pure w.nodes.nextKey

/-- Creates a node under a name that is free. -/
def insert (volume : VolumeKey) (dir : NodeId) (name : String) (mode : UInt32) (content : Content)
    (ops : Option OpsKind) : Act NodeId := do
  let _ ← nextInoOf volume
  let children ← childrenOf dir
  demand (!children.contains name) .alreadyExists
  let n ← makeNode volume dir mode content ops
  setChildren dir (children.insert name n)
  pure n

/-- A directory without children. -/
def isEmpty (dir : NodeId) : Query Bool := do
  pure (← childrenOf dir).isEmpty

/-- Removes an entry that is no directory. -/
def unlink (volume : VolumeKey) (dir : NodeId) (name : String) : Act Unit := do
  let _ ← nextInoOf volume
  let children ← childrenOf dir
  let child ← expect (children.get? name) .notFound
  demand (!(← look (·.isDirectory child))) .isADirectory
  setChildren dir (children.erase name)
  Action.change World.settle

/-- Removes an entry that is an empty directory and carries no volume. -/
def removeDirectory (volume : VolumeKey) (dir : NodeId) (name : String) : Act Unit := do
  let _ ← nextInoOf volume
  let children ← childrenOf dir
  let child ← expect (children.get? name) .notFound
  demand (← look (·.isDirectory child)) .notADirectory
  demand (← look fun w => (w.node child).mountRoot).isNone .busy
  demand (← isEmpty child) .directoryNotEmpty
  setChildren dir (children.erase name)
  Action.change World.settle

/-- Whether a node lies on the way up from another, within so many steps. -/
def isAboveWithin (ancestor : NodeId) : Nat → NodeId → Query Bool
  | 0, _ => pure false
  | steps + 1, n => do
    if n = ancestor then pure true
    else
      let parent ← containerOf n
      if parent = n then pure false else isAboveWithin ancestor steps parent

/-- Whether a node is another one or lies on its way up. No way up passes a node twice, so it has
fewer steps than there are nodes. -/
def isAbove (ancestor n : NodeId) : Query Bool := do
  isAboveWithin ancestor (← look (·.nodes.size + 1)) n

/-- Whether moving a node into a directory would put it below itself. -/
def closesCycle (moved newDir : NodeId) : Query Bool := do
  if ← look (·.isDirectory moved) then isAbove moved newDir else pure false

/-- Whether a moved node may take the place of another. -/
def checkReplace (moved target : NodeId) : Query Unit := do
  let w ← Query.world
  demand (w.node target).mountRoot.isNone .busy
  if w.isDirectory moved then
    demand (w.isDirectory target) .notADirectory
    demand (← isEmpty target) .directoryNotEmpty
  else demand (!w.isDirectory target) .isADirectory

/-- Edits both directories of a move and turns the moved node to its new parent. -/
def relink (moved oldDir : NodeId) (oldName : String) (newDir : NodeId) (newName : String) :
    Act Unit := do
  setChildren oldDir ((← childrenOf oldDir).erase oldName)
  setChildren newDir ((← childrenOf newDir).insert newName moved)
  modifyNode moved fun node => { node with parent := some newDir }

/-- Moves an entry, and lets go of what it replaces. -/
def move (moved oldDir : NodeId) (oldName : String) (newDir : NodeId) (newName : String) :
    Act Unit :=
  (relink moved oldDir oldName newDir newName).andFinally (Action.change World.settle)

/-- Moves an entry unless something forbids it. Moving a node onto itself does nothing. -/
def rename (volume : VolumeKey) (oldDir : NodeId) (oldName : String) (newDir : NodeId)
    (newName : String) (mustBeDirectory : Bool) : Act Unit := do
  let _ ← nextInoOf volume
  let moved ← lookup oldDir oldName
  let w ← Action.world
  demand (!(mustBeDirectory && !w.isDirectory moved)) .notADirectory
  demand (w.node moved).mountRoot.isNone .busy
  demand (!(← closesCycle moved newDir)) .invalidArgument
  match ← Query.attempt (lookup newDir newName) with
  | .ok target =>
    if target = moved then pure ()
    else
      checkReplace moved target
      move moved oldDir oldName newDir newName
  | .error .notFound => move moved oldDir oldName newDir newName
  | .error e => throw e

/-- The entry a node reads as under a name. -/
def entryFor (w : World) (volumeId : Nat) (name : String) (n : NodeId) : DirEntry :=
  { name, ino := (w.node n).ino, volume := volumeId, type := Mode.entryType (w.node n).mode }

/-- The entry of a directory with a number: itself, its parent, then the children in order. -/
def nthEntry (dir : NodeId) (index : Nat) : Query (Option DirEntry) := do
  let w ← Query.world
  let volumeId := (w.node dir).volumeId
  match index with
  | 0 => pure (some (entryFor w volumeId "." dir))
  | 1 => return some (entryFor w volumeId ".." (← containerOf dir))
  | index + 2 =>
    let children ← childrenOf dir
    pure (children.entries[index]?.map fun (name, child) => entryFor w volumeId name child)

/-- The first answer of a list of searches. -/
def firstFound {α β : Type} (search : α → Query (Option β)) : List α → Query (Option β)
  | [] => pure none
  | a :: rest => do
    match ← search a with
    | some found => pure (some found)
    | none => firstFound search rest

/-- Finds the entry below a directory that holds a number, at most so many levels down. -/
def findInoWithin (ino : Nat) : Nat → NodeId → Query (Option (NodeId × String))
  | 0, _ => pure none
  | levels + 1, dir => do
    let children ← childrenOf dir
    firstFound
      (fun (name, child) => do
        let w ← Query.world
        if (w.node child).ino = ino then pure (some (dir, name))
        else if w.isDirectory child then findInoWithin ino levels child
        else pure none)
      children.entries

/-- Finds the entry below a directory that holds a number. No way down passes a node twice, so it
has no more levels than there are nodes. -/
def findIno (dir : NodeId) (ino : Nat) : Query (Option (NodeId × String)) := do
  findInoWithin ino (← look (·.nodes.size)) dir

end VirtualFs.RamFs
