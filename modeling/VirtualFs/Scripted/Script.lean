/-
Scripts: filesystems and devices whose answers are written down beforehand.
A script says what a node's operations answer and which of them fail; a tree
of scripts is a filesystem that never changes.
-/
import VirtualFs.Error

namespace VirtualFs

/-- The operations a script can make fail. -/
inductive ScriptedCall where
  | opening
  | closing
  | read
  | write
  | readLink
  | listing
  | status
  | control
  | sync
  deriving DecidableEq, Repr, Inhabited

/-- What the operations of one node answer. -/
structure Script where
  /-- The byte that fills every read. -/
  value : UInt8 := 0
  /-- The most bytes one transfer moves. -/
  most : Option Nat := none
  /-- The size to report; without one the node's own attributes are reported. -/
  size : Option Nat := none
  /-- The target of a link. -/
  target : String := ""
  /-- The access bits that are denied. -/
  deny : UInt32 := 0
  /-- The bytes a control request can fetch. -/
  control : ByteArray := .empty
  /-- The operations that fail, each with its cause. -/
  faults : List (ScriptedCall × Error) := []
  deriving Inhabited

namespace Script

/-- The cause an operation fails with, if the script has one. -/
def fault? (s : Script) (call : ScriptedCall) : Option Error := s.faults.lookup call

/-- Passes unless the script makes the operation fail. -/
def pass (s : Script) (call : ScriptedCall) : Except Error Unit :=
  match s.fault? call with
  | some e => .error e
  | none => .ok ()

/-- How many of `n` bytes one transfer moves. -/
def share (s : Script) (n : Nat) : Nat :=
  match s.most with
  | some most => min n most
  | none => n

end Script

/-- How the operations of a node in a scripted tree are given. -/
inductive ScriptedOps where
  /-- The node has no operations. -/
  | absent
  /-- Every operation keeps its default. -/
  | bare
  | script (script : Script)
  deriving Inhabited

/-- A node of a scripted filesystem, with everything below it. -/
inductive ScriptedTree where
  | node (name : String) (mode : UInt32) (ino : Option Nat) (ops : ScriptedOps)
      (entries : List ScriptedTree)

namespace ScriptedTree

instance : Inhabited ScriptedTree := ⟨.node "" 0 none .absent []⟩

def name : ScriptedTree → String
  | .node name _ _ _ _ => name

def mode : ScriptedTree → UInt32
  | .node _ mode _ _ _ => mode

def ino : ScriptedTree → Option Nat
  | .node _ _ ino _ _ => ino

def ops : ScriptedTree → ScriptedOps
  | .node _ _ _ ops _ => ops

def entries : ScriptedTree → List ScriptedTree
  | .node _ _ _ _ entries => entries

end ScriptedTree

/-- A scripted filesystem. -/
structure ScriptedFs where
  name : String
  /-- The number its calls are counted under. -/
  meter : Nat
  root : ScriptedTree
  /-- Whether renaming and flushing keep their defaults. -/
  bare : Bool := false
  mountFault : Option Error := none
  renameFault : Option Error := none
  syncFault : Option Error := none
  deriving Inhabited

end VirtualFs
