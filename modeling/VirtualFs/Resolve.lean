/-
Finding the node a path names. A path is walked one name at a time; every
name but the last is resolved to the end, across mounts and through links,
and the caller says how the last one is treated.

Two bounds end every walk. Links inside link targets may nest only so deep,
and only so many links in a row are followed; both count down here, so
resolution is a recursion on them.
-/
import VirtualFs.Driver
import VirtualFs.Path

namespace VirtualFs

open Query (demand expect ofResult look)

/-- How the last name of a path is treated. -/
structure LookupMode where
  /-- A mount point stands for the root mounted on it. -/
  crossMounts : Bool
  /-- A link stands for its target. -/
  followLinks : Bool
  deriving DecidableEq, Repr, Inhabited

namespace LookupMode

/-- The treatment of every name but the last. -/
def full : LookupMode := ⟨true, true⟩

/-- Mounts are crossed and links are not followed. -/
def crossOnly : LookupMode := ⟨true, false⟩

/-- The node as its directory lists it. -/
def plain : LookupMode := ⟨false, false⟩

/-- The flags of a word: 1 crosses mounts, 2 follows links. -/
def ofBits (bits : UInt32) : LookupMode := ⟨bits &&& 1 != 0, bits &&& 2 != 0⟩

end LookupMode

/-- A node's volume, which must live. -/
def volumeOf (n : NodeId) : Query VolumeKey := do expect (← look (·.volumeOf n)) .notFound

/-- A node's operations, which must be there. -/
def opsOf (n : NodeId) : Query OpsKind := do
  expect (← look fun w => (w.node n).ops) .notImplemented

variable [Backends]

/-- The directory that a name is looked up in, none if the name is ".." of the root of everything.
Above the root of a mounted volume comes the directory that holds its mount point. -/
def lookupDirectory (parent : NodeId) (name : String) : Query (Option NodeId) := do
  if name = ".." then
    let volume ← volumeOf parent
    let w ← Query.world
    if w.sameIdentity parent (w.volume volume).root then
      if (w.volume volume).id = rootVolumeId then pure none
      else some <$> expect (w.mountPoint volume) .notFound
    else pure (some parent)
  else pure (some parent)

/-- What a step of a walk does with a link: the directory it was found in, then the link. -/
abbrev Follow := NodeId → NodeId → Query NodeId

/-- Looks one name up. The empty name is the directory itself. -/
def resolveName (follow : Follow) (parent : NodeId) (name : String) (flags : LookupMode) :
    Query NodeId := do
  if name = "" then pure parent
  else if name = "." then
    demand (← look (·.isDirectory parent)) .notADirectory
    pure parent
  else
    match ← lookupDirectory parent name with
    | none => pure parent
    | some dir =>
      demand (← look (·.isDirectory dir)) .notADirectory
      let volume ← volumeOf dir
      let driver ← look fun w => (w.node dir).driver
      let found ← driver.locate volume dir name
      let w ← Query.world
      Query.log (.looked (w.tag dir) name (w.tag found))
      let seen := if flags.crossMounts then w.cross found else found
      if flags.followLinks then follow dir seen else pure seen

/-- Passes through the directories of a path. -/
def walk (follow : Follow) (start : NodeId) (dirs : List String) : Query NodeId :=
  dirs.foldlM (fun dir name => resolveName follow dir name .full) start

/-- Where a route starts: an absolute one at the root. -/
def Route.start (route : Route) (w : World) (start : NodeId) : NodeId :=
  if route.absolute then w.rootNode else start

/-- The directory a path ends in and the name it ends with. -/
def parentOfPath (follow : Follow) (start : NodeId) (path : String) :
    Query (NodeId × String) := do
  let route := Route.ofPath path
  let dir ← walk follow (← look (route.start · start)) route.dirs
  pure (dir, route.name)

/-- The target of a link, whose length is checked before it is read. -/
def linkTarget (link : NodeId) (depth : UInt32) : Query String := do
  let ops ← opsOf link
  let volume ← volumeOf link
  let status ← ops.status volume link
  demand (status.size ≤ (← look (·.limits.linkLength))) .nameTooLong
  ops.readLink volume link depth

/-- The node at the end of a link's target, as its directory lists it: links are the chain's. -/
def resolveTargetEnd (follow : Follow) (dir : NodeId) (name : String) : Query NodeId :=
  if name = "" ∨ name = "." then pure dir else resolveName follow dir name .crossOnly

/-- Follows links in a row, at most so many, at one depth. `follow` treats the links within their
targets. -/
def followChain (follow : Follow) (depth : UInt32) : Nat → Follow
  | 0, _, n => do
    if ← look (·.isSymlink n) then
      Query.log (.chainTooLong (← look (·.tag n)))
      throw .loop
    else pure n
  | hops + 1, dir, n => do
    if ← look (·.isSymlink n) then
      let target ← linkTarget n depth
      let (targetDir, name) ← parentOfPath follow dir target
      let next ← resolveTargetEnd follow targetDir name
      followChain follow depth hops targetDir next
    else pure n

/-- Follows links with so many nestings left, from a depth that counts those already entered. -/
def followLinks : Nat → UInt32 → Follow
  | 0, _, _, n => do
    if ← look (·.isSymlink n) then
      Query.log (.nestedTooDeep (← look (·.tag n)))
      throw .loop
    else pure n
  | left + 1, depth, dir, n => do
    if ← look (·.isSymlink n) then
      let hops ← look (·.limits.linkChain.toNat)
      followChain (followLinks left (depth + 1)) (depth + 1) hops dir n
    else pure n

/-- How many nestings a task may still enter. Entering adds one to its depth, and the word that
counts them wraps. -/
def nestingsLeft (limit depth : UInt32) : Nat :=
  if depth + 1 = 0 then limit.toNat + 1 else limit.toNat - depth.toNat

/-- The treatment of links for a task at its present depth. -/
def followFor (t : TaskId) : Follow := fun dir n => do
  let w ← Query.world
  let depth := (w.task t).depth
  followLinks (nestingsLeft w.limits.linkDepth depth) depth dir n

/-- Everything but the last name of a path, from a directory or else from the task's own. -/
def resolveParent (t : TaskId) (start : Option NodeId) (path : String) :
    Query (NodeId × String) := do
  let cwd ← look (·.cwd t)
  parentOfPath (followFor t) (start.getD cwd) path

/-- One name in a directory, for a task. -/
def resolveIn (t : TaskId) (parent : NodeId) (name : String) (flags : LookupMode) :
    Query NodeId :=
  resolveName (followFor t) parent name flags

/-- The node a path names. -/
def resolve (t : TaskId) (start : Option NodeId) (path : String) (flags : LookupMode) :
    Query NodeId := do
  let (parent, name) ← resolveParent t start path
  resolveIn t parent name flags

end VirtualFs
