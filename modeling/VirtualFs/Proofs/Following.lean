/-
Every operation, told once for whatever one wants to know of it. A relation
between the worlds before and after follows an instance (`World.Following`) if it
follows each of the few things that operations are made of: drivers that mind
their own, an open file that is moved, the table of a context, an open file that
comes or goes.
-/
import VirtualFs.Proofs.Turnover

namespace VirtualFs

open World (Aside Sparing)
open VirtualFs.Action (does_pure does_throw does_look does_note does_bind does_change)

/-- Opens a file. -/
def Operation.Opens : Operation → Prop
  | .openPath .. | .openPinned .. | .reopen .. => True
  | _ => False

/-- All operations but those that open a file. -/
theorem Operation.does_of_not_opens {R : World → List Event → World → Prop} [World.Moving R]
    [World.Turning R] [World.Tabular R] (haside : ∀ w t w', Aside w t w' → R w t w') [Backends]
    {full : Prop} (hlaws : Backends.Discreet full) {op : Operation} (hop : ¬op.Opens) :
    op.act.Does R True := by
  cases op with
  | openPath | openPinned | reopen => exact absurd True.intro hop
  | close | duplicate | duplicateTo | closeAll | retireContext =>
    exact Operation.Tabular.does True.intro
  | nextEntry | rewind => exact Operation.Turning.does hlaws True.intro
  | readv | writev | pwritev | seek | setFlags | writeStatus =>
    exact Operation.Moving.does hlaws (hlaws.writes haside) True.intro
  | preadv | control | makeDirectory | removeDirectory | unlink | makeSymlink | rename
  | changeDirectory | changeDirectoryTo | mount | addDevice | moveDevice | withdrawDevice | hold
  | release | addContext | addTask | setDepth =>
    exact Operation.Aloof.does hlaws (hlaws.names haside) True.intro

/-- Follows whatever an instance does. -/
class World.Following (R : World → List Event → World → Prop) : Prop extends
    World.Moving R, World.Turning R, World.Tabular R where
  spared : ∀ {w t w'}, w.Spares w' → R w t w'
  pushed : ∀ w file, R w [] { w with files := w.files.push file }

section

variable {R : World → List Event → World → Prop} [World.Following R] {full : Prop}

theorem Action.Does.followed {α : Type} {x : Act α} (h : x.Does Sparing full) : x.Does R True :=
  h.mono (fun _ _ _ => World.Following.spared) fun _ => trivial

variable [Backends]

theorem commitFile_does (c : ContextId) (handle : Handle) (file : OpenFile) :
    (commitFile c handle file).Does R True := by
  have hadd : (addFile file).Does R True :=
    does_bind (does_look _) fun _ =>
      does_bind (does_change fun w => World.Following.pushed w file) fun _ => does_pure _
  refine does_bind (does_any _) fun bindable => ?_
  cases bindable with
  | error e => exact does_bind (does_any _) fun _ => does_throw fun _ => trivial
  | ok => exact does_bind hadd fun _ => does_bind (bindHandle_does c handle _) fun _ => does_pure _

variable (hlaws : Backends.Discreet full)

include hlaws

theorem openPath_does (t : TaskId) (base : Option Handle) (path : String) (flags : OpenFlags)
    (mode : UInt32) : (openPath t base path flags mode).Does R True := by
  rw [openPath_eq]
  exact does_bind (does_any _) fun c => withReserved_does c fun handle =>
    does_bind (pathOpening_spares hlaws t base path flags mode).followed fun file =>
      does_bind (commitFile_does c handle file) fun _ => does_bind (does_note rfl) fun _ =>
        does_pure _

theorem openHeld_does (t : TaskId) (n : NodeId) (flags : OpenFlags) :
    (openHeld t n flags).Does R True :=
  does_bind (does_any _) fun c => withReserved_does c fun handle =>
    does_bind (openFound_spares hlaws n flags).followed fun file => commitFile_does c handle file

theorem reopen_does (t : TaskId) (h : Handle) : (reopen t h).Does R True :=
  does_bind (does_any _) fun file => does_bind (does_any _) fun c => withReserved_does c fun copy =>
    does_bind (openFound_spares hlaws file.node _).followed fun _ => commitFile_does c copy _

/-- **Every operation is followed.** -/
theorem Operation.does (op : Operation) : op.act.Does R True := by
  cases op with
  | openPath t base path flags mode => exact (openPath_does hlaws t base path flags mode).only
  | openPinned t name flags =>
    exact Action.Does.only (does_bind (does_any _) fun _ => does_bind (does_any _) fun n =>
      openHeld_does hlaws t n flags)
  | reopen t h => exact (reopen_does hlaws t h).only
  | _ =>
    exact Operation.does_of_not_opens (fun _ _ _ h => World.Following.spared h.1) hlaws not_false

end

/-- What follows an instance holds of every operation of memory volumes and devices. -/
theorem Operation.follows {R : World → List Event → World → Prop} [World.Following R]
    (op : Operation) (w : World) : R w (op.act w).trace (op.run w) := by
  rw [op.run_eq_after]
  exact (op.does standard_discreet w).1

end VirtualFs
