/-
Cleanups that are due when a scope ends. Each guard holds a value that its
cleanup will get; a guard may be disarmed before the end, and the cleanups
that remain run in the opposite order of their making.
-/

namespace VirtualFs

/-- A value with a cleanup that is due while the guard is armed. -/
structure Guard (α : Type) where
  value : α
  armed : Bool := true
  deriving DecidableEq, Repr, Inhabited

/-- The guards of a scope in the order they were made, and the values cleaned up so far. -/
structure Scope (α : Type) where
  guards : List (Guard α) := []
  fired : List α := []
  deriving DecidableEq, Repr, Inhabited

namespace Scope

variable {α : Type}

/-- Makes a guard for a value. -/
def arm (s : Scope α) (value : α) : Scope α := { s with guards := s.guards ++ [⟨value, true⟩] }

/-- Changes the value behind a guard. -/
def change (s : Scope α) (i : Nat) (f : α → α) : Scope α :=
  { s with guards := s.guards.modify i fun g => { g with value := f g.value } }

/-- The values behind the guards. -/
def values (s : Scope α) : List α := s.guards.map Guard.value

/-- Disarms a guard and hands its value over; nothing if there is none or it is disarmed. -/
def dismiss (s : Scope α) (i : Nat) : Option α × Scope α :=
  match s.guards[i]? with
  | some ⟨value, true⟩ =>
    (some value, { s with guards := s.guards.modify i fun g => { g with armed := false } })
  | _ => (none, s)

/-- Ends the scope: the armed guards fire, the last one first. -/
def exit (s : Scope α) : Scope α :=
  { guards := [], fired := s.fired ++ ((s.guards.filter Guard.armed).reverse.map Guard.value) }

end Scope

end VirtualFs
