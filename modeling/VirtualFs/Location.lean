/-
Where a directory is. Paths are not stored: the path of a directory is
rebuilt by going up through ".." to the root, and by finding at each step
the entry of the parent that leads back down. Every entry takes some of the
room given for the path, which is what ends the climb.
-/
import VirtualFs.Lifetime
import VirtualFs.Resolve

namespace VirtualFs

open Query (demand expect look)

variable [Backends]

/-- Opens a directory to list it. -/
def openListing (dir : NodeId) : Query OpenFile := do
  let ops ← opsOf dir
  let volume ← volumeOf dir
  demand (← look (·.isDirectory dir)) .notADirectory
  ops.openDirectory volume dir ⟨OpenFlags.directoryBit⟩

/-- The name of the first entry from `index` on that passes, among so many entries. The directory
itself and its parent are passed over. -/
def findEntry (ops : OpsKind) (volume : VolumeKey) (dir : NodeId) (passes : DirEntry → Query Bool) :
    Nat → Nat → Query (Option String)
  | 0, _ => pure none
  | count + 1, index => do
    match ← ops.entry volume dir index with
    | none => pure none
    | some entry =>
      if entry.name = "." ∨ entry.name = ".." then
        findEntry ops volume dir passes count (index + 1)
      else if ← passes entry then pure (some entry.name)
      else findEntry ops volume dir passes count (index + 1)

/-- More than the number of entries of a directory that lists its children, itself and its parent.
Operations that list more than that are not read to their end: a search that has not found its entry
by then ends with `notFound`, and so would one whose entry comes later. -/
def entryBound (w : World) (dir : NodeId) : Nat := (w.node dir).payload.children.size + 3

/-- Whether an entry of `parent` leads to `child`. The root of a mounted volume is known by the
mount that leads to it, any other directory by its number. -/
def leadsTo (t : TaskId) (parent child : NodeId) (entry : DirEntry) : Query Bool := do
  let w ← Query.world
  if (w.node child).volumeId = (w.node parent).volumeId then pure (entry.ino == (w.node child).ino)
  else
    let point ← resolveIn t parent entry.name .plain
    look fun w => (w.node point).mountRoot.any fun root => w.sameIdentity root child

/-- Searches a directory for the entry that leads to a child. -/
def searchEntry (t : TaskId) (ops : OpsKind) (volume : VolumeKey) (parent child : NodeId) :
    Query String := do
  let bound ← look (entryBound · parent)
  match ← findEntry ops volume parent (leadsTo t parent child) bound 0 with
  | some name => pure name
  | none =>
    let w ← Query.world
    Query.log (.unlisted (w.tag child) (w.tag parent))
    throw .notFound

/-- The name under which `parent` lists `child`. The listing is closed in any case. -/
def entryName (t : TaskId) (parent child : NodeId) : Query String := do
  let ops ← opsOf parent
  let volume ← volumeOf parent
  let listing ← openListing parent
  (searchEntry t ops volume parent child).andFinally (closeFile none listing)

/-- Climbs from a directory to the root, in front of the path `below` already rebuilt, within so
many bytes. -/
def climb (t : TaskId) (room : Nat) (dir : NodeId) (below : String) : Query String := do
  let parent ← resolveIn t dir ".." .crossOnly
  let name ← entryName t parent dir
  if h : name.utf8ByteSize + 1 ≤ room then
    let path := "/" ++ name ++ below
    if ← look fun w => w.sameIdentity parent w.rootNode then pure path
    else climb t (room - (name.utf8ByteSize + 1)) parent path
  else throw .nameTooLong
termination_by room
decreasing_by omega

/-- The absolute path of a directory, which must fit both the capacity and the instance's limit. -/
def absolutePath (t : TaskId) (dir : NodeId) (capacity : Nat) : Query String := do
  let w ← Query.world
  let room := min capacity w.limits.pathLength
  if w.sameIdentity dir w.rootNode then
    demand (1 ≤ room) .nameTooLong
    pure "/"
  else climb t room dir ""

end VirtualFs
