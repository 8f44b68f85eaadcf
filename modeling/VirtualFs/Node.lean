/-
The things an instance is made of: nodes, volumes, open files, the contexts
that number open files, and tasks. They refer to each other by key
(`VirtualFs.Arena`). Which references keep a thing alive is said in
`VirtualFs.Lifetime`; here a link to a parent, to a mount point or to a
volume is marked as one that does not.
-/
import VirtualFs.Arena
import VirtualFs.Handle
import VirtualFs.Limits
import VirtualFs.Mode
import VirtualFs.NameMap
import VirtualFs.OpenFlags
import VirtualFs.Scripted.Script
import VirtualFs.ReservationTable
import VirtualFs.Status

namespace VirtualFs

abbrev NodeId := Nat
abbrev VolumeKey := Nat
abbrev FileId := Nat
abbrev ContextId := Nat
abbrev TaskId := Nat

/-- The driver of a volume: the built-in memory filesystem, or a scripted one. -/
inductive DriverKind where
  | ram
  | scripted (fs : ScriptedFs)
  deriving Inhabited

/-- The operations of a node. Scripted ones are counted under a number. -/
inductive OpsKind where
  | ram
  | bare
  | scripted (meter : Nat) (script : Script)
  deriving Inhabited

/-- What a node of the memory filesystem holds. -/
inductive Content where
  | directory (children : NameMap NodeId)
  | file (bytes : ByteArray)
  | symlink (target : String)
  /-- The data lives behind the node's own operations. -/
  | device
  deriving Inhabited

/-- The size that is reported for a content. -/
def Content.size : Content → Nat
  | .file bytes => bytes.size
  | .symlink target => target.utf8ByteSize
  | .directory _ | .device => 0

/-- The memory filesystem's part of a node. -/
structure RamNode where
  /-- The containing directory, which this link does not keep; none for the root of a volume. -/
  parent : Option NodeId
  content : Content
  uid : UInt32 := 0
  gid : UInt32 := 0
  accessTime : UInt64 := 0
  modifyTime : UInt64 := 0
  changeTime : UInt64 := 0
  deriving Inhabited

/-- The part of a node that belongs to its driver. -/
inductive Payload where
  | ram (node : RamNode)
  /-- A scripted node; a directory has its children. -/
  | scripted (children : Option (NameMap NodeId))
  deriving Inhabited

/-- One node of a filesystem. -/
structure Node where
  /-- The node's number, its own only within its volume. -/
  ino : Nat
  /-- The id of the node's volume. -/
  volumeId : Nat
  /-- The node's volume, which this link does not keep. -/
  volume : VolumeKey
  driver : DriverKind
  /-- Without operations, every request is unimplemented. -/
  ops : Option OpsKind
  mode : UInt32
  /-- The root of the volume mounted here. -/
  mountRoot : Option NodeId := none
  payload : Payload
  deriving Inhabited

/-- The children of a directory, by name. -/
def Payload.children : Payload → NameMap NodeId
  | .ram node =>
    match node.content with
    | .directory children => children
    | _ => .empty
  | .scripted (some children) => children
  | .scripted none => .empty

/-- A mounted filesystem. -/
structure Volume where
  id : Nat
  device : String
  flags : VolumeFlags
  driver : DriverKind
  root : NodeId
  /-- The node the volume is mounted on, which this link does not keep. -/
  point : Option NodeId := none
  /-- The number the next node gets; none if the volume's nodes are fixed. -/
  nextIno : Option Nat := none
  deriving Inhabited

/-- What an open file can do. -/
inductive FileKind where
  /-- A byte stream with the position of the next transfer. -/
  | stream (position : Nat)
  /-- A directory with the number of the next entry. -/
  | directory (cursor : Nat)
  /-- A node and nothing more. -/
  | path
  deriving DecidableEq, Repr, Inhabited

/-- What a handle refers to. Handles that were duplicated share one. -/
structure OpenFile where
  node : NodeId
  flags : OpenFlags
  kind : FileKind
  deriving DecidableEq, Repr, Inhabited

namespace OpenFile

/-- An open file remembers its flags, but not that it was created or whose handle was asked for. -/
def ofKind (node : NodeId) (flags : OpenFlags) (kind : FileKind) : OpenFile :=
  ⟨node, flags.without (OpenFlags.createBit ||| OpenFlags.kernelBit), kind⟩

def stream (node : NodeId) (flags : OpenFlags) : OpenFile := ofKind node flags (.stream 0)

def directory (node : NodeId) (flags : OpenFlags) : OpenFile := ofKind node flags (.directory 0)

def path (node : NodeId) (flags : OpenFlags) : OpenFile := ofKind node flags .path

def isStream (f : OpenFile) : Bool :=
  match f.kind with
  | .stream _ => true
  | _ => false

def isDirectory (f : OpenFile) : Bool :=
  match f.kind with
  | .directory _ => true
  | _ => false

def isPath (f : OpenFile) : Bool :=
  match f.kind with
  | .path => true
  | _ => false

/-- The position of a stream; zero for anything else. -/
def position (f : OpenFile) : Nat :=
  match f.kind with
  | .stream position => position
  | _ => 0

/-- The cursor of a directory; zero for anything else. -/
def cursor (f : OpenFile) : Nat :=
  match f.kind with
  | .directory cursor => cursor
  | _ => 0

/-- Moves a stream; anything else stays as it is. -/
def setPosition (f : OpenFile) (position : Nat) : OpenFile :=
  match f.kind with
  | .stream _ => { f with kind := .stream position }
  | _ => f

/-- Moves a directory; anything else stays as it is. -/
def setCursor (f : OpenFile) (cursor : Nat) : OpenFile :=
  match f.kind with
  | .directory _ => { f with kind := .directory cursor }
  | _ => f

/-- The position a seek leads to; it must not be negative nor pass `positionMax`. -/
def seekTarget (f : OpenFile) (offset : Int) (origin : SeekOrigin) (size : Nat) :
    Except Error Nat :=
  let base : Nat :=
    match origin with
    | .start => 0
    | .current => f.position
    | .finish => size
  let target := (base : Int) + offset
  if 0 ≤ target ∧ target ≤ positionMax then .ok target.toNat else .error .invalidArgument

end OpenFile

/-- The numbers of open files, and the directory that relative paths start from. -/
structure Context where
  kernel : Bool
  files : ReservationTable FileId
  cwd : NodeId
  deriving Inhabited

/-- A thread of work: the context it works in, and how deeply it is nested in links. -/
structure Task where
  context : ContextId
  depth : UInt32 := 0
  deriving DecidableEq, Repr, Inhabited

end VirtualFs
