/-
Computations on a world. A `Query` looks at the world and cannot change it;
an `Action` may change it, and what it changed stays when it fails. Both
leave a trace of what was seen on the way. The result of a query is computed
from the world alone, so the trace never feeds back (`result_bind`).
-/
import VirtualFs.Event

namespace VirtualFs

/-- What a query leaves. -/
structure Finding (α : Type) where
  result : Except Error α
  trace : List Event := []

/-- A computation that reads the world. -/
def Query (α : Type) : Type := World → Finding α

namespace Query

variable {α β : Type}

instance : Monad Query where
  pure a := fun _ => { result := .ok a }
  bind x f := fun w =>
    match x w with
    | { result := .ok a, trace } =>
      let rest := f a w
      { rest with trace := trace ++ rest.trace }
    | { result := .error e, trace } => { result := .error e, trace }

instance : MonadExceptOf Error Query where
  throw e := fun _ => { result := .error e }
  tryCatch x handle := fun w =>
    match x w with
    | { result := .ok a, trace } => { result := .ok a, trace }
    | { result := .error e, trace } =>
      let rest := handle e w
      { rest with trace := trace ++ rest.trace }

/-- The world as it is. -/
def world : Query World := fun w => { result := .ok w }

/-- A value read off the world. -/
def look (f : World → α) : Query α := fun w => { result := .ok (f w) }

/-- Puts an event on the trace. -/
def note (event : Event) : Query Unit := fun _ => { result := .ok (), trace := [event] }

/-- Writes a line to the log. -/
def log (message : Message) : Query Unit := note (.logged message)

/-- Runs a query only if a condition holds. -/
def when (c : Prop) [Decidable c] (x : Query Unit) : Query Unit := if c then x else pure ()

/-- Fails with `e` unless `p` holds. -/
def demand (p : Prop) [Decidable p] (e : Error) : Query Unit :=
  if p then pure () else throw e

/-- A value that must be there. -/
def expect (value : Option α) (e : Error) : Query α :=
  match value with
  | some a => pure a
  | none => throw e

/-- The value of a computation that has already failed or not. -/
def ofResult : Except Error α → Query α
  | .ok a => pure a
  | .error e => throw e

/-- Runs a query to its end and hands over how it ended. -/
def attempt (x : Query α) : Query (Except Error α) := fun w =>
  let found := x w
  { result := .ok found.result, trace := found.trace }

/-- Runs a query, then `last` however the query ended, and ends as the query did. -/
def andFinally (x : Query α) (last : Query Unit) : Query α := do
  let ended ← attempt x
  last
  ofResult ended

@[simp] theorem result_pure (a : α) (w : World) : (pure a : Query α) w = { result := .ok a } := rfl

theorem result_bind (x : Query α) (f : α → Query β) (w : World) :
    ((x >>= f) w).result = (x w).result.bind fun a => (f a w).result := by
  simp only [bind]
  rcases x w with ⟨_ | _, _⟩ <;> rfl

end Query

/-- What an action leaves. -/
structure Outcome (ε α : Type) where
  result : Except ε α
  world : World
  trace : List Event := []

/-- A computation that may change the world and fail with an `ε`. -/
def Action (ε α : Type) : Type := World → Outcome ε α

/-- An action that fails for one of the library's causes. -/
abbrev Act (α : Type) : Type := Action Error α

namespace Action

variable {ε ε' α : Type}

instance : Monad (Action ε) where
  pure a := fun w => { result := .ok a, world := w }
  bind x f := fun w =>
    match x w with
    | { result := .ok a, world, trace } =>
      let rest := f a world
      { rest with trace := trace ++ rest.trace }
    | { result := .error e, world, trace } => { result := .error e, world, trace }

instance : MonadExceptOf ε (Action ε) where
  throw e := fun w => { result := .error e, world := w }
  tryCatch x handle := fun w =>
    match x w with
    | { result := .ok a, world, trace } => { result := .ok a, world, trace }
    | { result := .error e, world, trace } =>
      let rest := handle e world
      { rest with trace := trace ++ rest.trace }

instance : MonadLift Query (Action Error) where
  monadLift q := fun w =>
    let found := q w
    { result := found.result, world := w, trace := found.trace }

/-- The world as it is. -/
def world : Action ε World := fun w => { result := .ok w, world := w }

/-- A value read off the world. -/
def look (f : World → α) : Action ε α := fun w => { result := .ok (f w), world := w }

/-- Changes the world. -/
def change (f : World → World) : Action ε Unit := fun w => { result := .ok (), world := f w }

/-- Runs an action only if a condition holds. -/
def when (c : Prop) [Decidable c] (x : Action ε Unit) : Action ε Unit := if c then x else pure ()

/-- Puts an event on the trace. -/
def note (event : Event) : Action ε Unit := fun w =>
  { result := .ok (), world := w, trace := [event] }

/-- Writes a line to the log. -/
def log (message : Message) : Action ε Unit := note (.logged message)

/-- Runs an action to its end and hands over how it ended. What it changed stays. -/
def attempt (x : Action ε α) : Action ε' (Except ε α) := fun w =>
  let done := x w
  { result := .ok done.result, world := done.world, trace := done.trace }

/-- Runs an action, then `last` however the action ended, and ends as the action did. -/
def andFinally (x : Action ε α) (last : Action ε Unit) : Action ε α := fun w =>
  let done := x w
  let after := last done.world
  { result := done.result, world := after.world, trace := done.trace ++ after.trace }

/-- Runs `undo` if the action fails, and fails as it did. -/
def orUndo (x : Action ε α) (undo : Action ε Unit) : Action ε α := fun w =>
  match x w with
  | { result := .ok a, world, trace } => { result := .ok a, world, trace }
  | { result := .error e, world, trace } =>
    let undone := undo world
    { result := .error e, world := undone.world, trace := trace ++ undone.trace }

end Action

end VirtualFs
