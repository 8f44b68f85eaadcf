/-
Calls on a context itself. Besides what its tasks do, a caller may have a
context give out a number, bind a file to it, free it, or put a file under a
number of its choice; so tables come up in which numbers are reserved between
one operation and the next. Whatever is called, and in whatever order, the world
stays well-formed, its tables stay in order, and its limits are those it was
made with (`World.Attained`). How large the tables are makes no difference.
-/
import VirtualFs.Proofs.Descriptors
import VirtualFs.Proofs.ReopenedFiles

namespace VirtualFs

open World (Sparing)
open VirtualFs.Action (renders_map ended_bind leads_query_bind leads_bind leads_pure leads_throw)

/-! ## Tables stay in order -/

namespace World

variable {w w' : World}

/-- A stretch of a run in which tables stay in order. -/
def StaysOrderly (w : World) (_ : List Event) (w' : World) : Prop := w.Orderly → w'.Orderly

instance : Stretch StaysOrderly where
  quiet _ hw := hw
  trans h h' hw := h' (h hw)

theorem Spares.staysOrderly (h : w.Spares w') (t : List Event) : w.StaysOrderly t w' :=
  fun hw => hw.congr h.contexts h.tasks h.files

theorem staysOrderly_setFile (f : FileId) {g : OpenFile → OpenFile}
    (hg : ∀ file, (g file).node = file.node ∧ (g file).isPath = file.isPath) :
    w.StaysOrderly [] (w.setFile f g) :=
  (sameFiles_setFile w f hg).orderly (fun c context hget hw => hw.neat c context hget) rfl

instance : Moving StaysOrderly where
  beside h := (SameFiles.of_files h.files).orderly (fun _ _ hget => h.neat_context hget) h.slots
  settled w := w.spares_settle.staysOrderly []
  moved _ f _ :=
    staysOrderly_setFile f fun file => ⟨file.setPosition_node _, file.setPosition_isPath _⟩
  flagged _ f _ := staysOrderly_setFile f fun _ => ⟨rfl, rfl⟩

instance : Turning StaysOrderly where
  turned _ f _ := staysOrderly_setFile f fun file => ⟨file.setCursor_node _, file.setCursor_isPath _⟩

end World

section

variable {w : World} {c : ContextId}

/-- Work on a reserved number may succeed or fail; either way the tables are in order after it if
they are when it ends. -/
theorem withReserved_orderly (hw : w.Orderly) {work : Handle → Act Handle}
    (hwork : ∀ h, (allocateHandle c w).result = .ok h → (work h (w.reserving c)).world.Orderly) :
    (withReserved c work w).world.Orderly := by
  have hreserved := (allocateHandle_renders hw c).orderly
  rcases hallocate : (allocateHandle c).ended w with ⟨e | h, w₁⟩ <;>
    obtain ⟨hallocated, hreserving⟩ := Prod.mk.inj hallocate
  · have hworld := (Prod.mk.inj (ended_withReserved_error work hallocate)).2
    rw [hworld, ← hreserving]
    exact hreserved
  · have hdone := hwork h hallocated
    have hworld := ended_withReserved work hallocate
    obtain rfl : w.reserving c = w₁ := hreserving
    rcases hrun : (work h).ended (w.reserving c) with ⟨e | copy, w₂⟩ <;>
      rw [hrun] at hworld <;> obtain ⟨-, rfl⟩ := Prod.mk.inj hrun <;>
      rw [(Prod.mk.inj hworld).2]
    · have hgiven : (giveBack c h).Renders w.numbering _ _ := giveBack_renders hdone c h
      exact hgiven.orderly
    · exact hdone

theorem openInto_orderly (hw : w.Orderly) {opening : Act OpenFile}
    (hspares : opening.Does Sparing True) : (openInto c opening w).world.Orderly := by
  refine withReserved_orderly hw fun h _ => ?_
  obtain ⟨-, hopened, -, -⟩ := opening_keeps (c := c) hw hspares
  have hended : (opening >>= commitFile c h).ended (w.reserving c) = _ :=
    ended_bind opening (commitFile c h)
  rcases hrun : opening.ended (w.reserving c) with ⟨e | file, w₁⟩ <;> rw [hrun] at hended <;>
    obtain ⟨-, rfl⟩ := Prod.mk.inj hrun <;> rw [(Prod.mk.inj hended).2]
  · exact hopened
  · exact (commitFile_renders hopened c h file).orderly

theorem duplicate_orderly (hw : w.Orderly) (t : TaskId) (h : Handle) :
    (duplicate t h w).world.Orderly := by
  cases hf : (fileOf t h w).result with
  | error e =>
    rw [(Prod.mk.inj (ended_duplicate_error hf)).2]
    exact hw
  | ok f =>
    rw [(Prod.mk.inj (ended_duplicate hf)).2]
    refine withReserved_orderly hw fun copy _ => ?_
    have hopen : (w.reserving (w.contextOf t h.isKernel)).files.has f = true := by
      rw [World.reserving_files]
      exact hw.has_of_found ((result_fileOf t h).symm.trans hf)
    have hbind := renders_map (g := fun _ => copy)
      (bindHandle_renders (allocateHandle_renders hw _).orderly (w.contextOf t h.isKernel) copy
        hopen)
    rw [← bind_pure_comp] at hbind
    exact hbind.orderly

theorem emptyTable_orderly (hw : w.Orderly) (c : ContextId) :
    (emptyTable c w).world.Orderly := by
  have hemptied : (emptyTable c).Renders w.numbering w _ := emptyTable_renders hw c
  exact hemptied.orderly

theorem retireContext_orderly (hw : w.Orderly) (c : ContextId) :
    (retireContext c w).world.Orderly := by
  have hemptied := emptyTable_orderly hw c
  have hended : (retireContext c).ended w = _ := ended_bind (emptyTable c) _
  rcases hrun : (emptyTable c).ended w with ⟨e | _, w₁⟩ <;> rw [hrun] at hended <;>
    obtain ⟨-, rfl⟩ := Prod.mk.inj hrun <;> rw [(Prod.mk.inj hended).2]
  · exact hemptied
  · exact (setWorkingDirectory_does (R := World.StaysOrderly) c _ _).1 hemptied

/-- **Every operation leaves the tables in order.** -/
theorem Operation.orderly (hw : w.Orderly) (op : Operation) : (op.run w).Orderly := by
  have haside : ∀ w t w', World.Aside w t w' → World.StaysOrderly w t w' :=
    fun _ t _ h => h.1.staysOrderly t
  cases op with
  | openPath t base path flags mode =>
    show (VirtualFs.openPath t base path flags mode w).world.Orderly
    rw [(Prod.mk.inj (ended_openPath t base path flags mode)).2]
    exact openInto_orderly hw (pathOpening_spares standard_discreet t base path flags mode)
  | openPinned t name flags =>
    show (VirtualFs.openPinned t name flags w).world.Orderly
    cases hheld : w.held? name with
    | none =>
      rw [(Prod.mk.inj (ended_openPinned_error t flags hheld)).2]
      exact hw
    | some n =>
      rw [(Prod.mk.inj (ended_openPinned t flags hheld)).2]
      exact openInto_orderly hw (openFound_spares standard_discreet n flags)
  | reopen t h =>
    show (VirtualFs.reopen t h w).world.Orderly
    cases hfile : (openFileOf t h w).result with
    | error e =>
      rw [(Prod.mk.inj (ended_reopen_error hfile)).2]
      exact hw
    | ok file =>
      rw [(Prod.mk.inj (ended_reopen hfile)).2]
      exact openInto_orderly hw (reopening_spares file)
  | close t h => exact (close_renders hw t h).orderly
  | duplicate t h => exact duplicate_orderly hw t h
  | duplicateTo t h target => exact (duplicateTo_renders hw t h target).orderly
  | closeAll c => exact emptyTable_orderly hw c
  | retireContext c => exact retireContext_orderly hw c
  | preadv | control | makeDirectory | removeDirectory | unlink | makeSymlink | rename
  | changeDirectory | changeDirectoryTo | mount | addDevice | moveDevice | withdrawDevice | hold
  | release | addContext | addTask | setDepth =>
    rw [Operation.run_eq_after]
    refine (Operation.Aloof.does standard_discreet (standard_discreet.names haside) ?_ w).1 hw
    exact True.intro
  | readv | writev | pwritev | seek | setFlags | writeStatus =>
    rw [Operation.run_eq_after]
    refine (Operation.Moving.does standard_discreet (standard_discreet.writes haside) ?_ w).1 hw
    exact True.intro
  | nextEntry | rewind =>
    rw [Operation.run_eq_after]
    refine (Operation.Turning.does (R := World.StaysOrderly) standard_discreet ?_ w).1 hw
    exact True.intro

end

/-! ## Calls on a context -/

/-- What a caller binds is there: a file in hand is one of a node that is. -/
def Given.Fits (w : World) : Given → Prop
  | .bound .. => True
  | .fresh file => w.Live file.node

/-- The calls on a context itself that change its table: they give a number out, bind it, free it,
or put a file under it. -/
def TableCall.OnContext (w : World) : TableCall → Prop
  | .allocate _ | .free .. => True
  | .bind _ _ given | .install _ _ given => given.Fits w
  | _ => False

namespace TableCall.OnContext

variable {w : World} {call : TableCall} (hcall : call.OnContext w)

include hcall

theorem orderly (hw : w.Orderly) : (call.act w).world.Orderly := by
  refine (act_renders_of_not_reserves hw (fun hreserves => ?_) (.ok ())).orderly
  cases call with
  | openPath | openHeld | duplicate | reopen => exact hcall
  | _ => exact hreserves

/-- What is called on a context is a sequence of turns, as an operation is. -/
theorem turns (h : w.WellFormed) : (call.act).LeadsOnly (World.Turn .all) w := by
  have hsteady : w.Steady .all := h.steady
  cases call with
  | allocate c =>
    rw [act, ← bind_pure_comp]
    exact leads_bind (allocateHandle_turns hsteady c) fun _ _ _ _ => leads_pure trivial
  | free c handle =>
    exact leads_bind (freeHandle_turns hsteady c handle) fun displaced _ hturns _ =>
      leads_bind (dropDisplaced_turns (hsteady.turned hturns) displaced) fun _ _ _ _ =>
        leads_pure trivial
  | bind c handle given =>
    refine leads_bind (P := fun _ _ => True) ?_ fun _ _ _ _ => leads_pure trivial
    cases given with
    | bound c' handle' =>
      exact leads_query_bind fun f _ => bindHandle_turns hsteady c handle f
    | fresh file =>
      exact leads_bind (commitFile_turns hsteady c handle (h.known hcall)) fun _ _ _ _ =>
        leads_pure trivial
  | install c handle given =>
    rw [act, ← bind_pure_comp]
    refine leads_bind (P := fun _ _ => True) ?_ fun _ _ _ _ => leads_pure trivial
    cases given with
    | bound c' handle' =>
      exact leads_query_bind fun f _ => leads_bind (installHandle_turns hsteady c handle f)
        fun displaced _ hturns _ =>
          leads_bind (dropDisplaced_turns (hsteady.turned hturns) displaced) fun _ _ _ _ =>
            leads_pure trivial
    | fresh file =>
      refine leads_query_bind fun installable _ => ?_
      split
      · exact leads_query_bind fun _ _ => leads_throw
      · exact leads_bind (addFile_turns hsteady (h.known hcall)) fun f _ hturns _ =>
          leads_bind (installHandle_turns (hsteady.turned hturns) c handle f)
            fun displaced _ hturns' _ =>
              leads_bind (dropDisplaced_turns ((hsteady.turned hturns).turned hturns') displaced)
                fun _ _ _ _ => leads_pure trivial
  | _ => exact hcall.elim

end TableCall.OnContext

/-! ## What comes up -/

namespace World

/-- The worlds that an instance of some limits may come to, by operations and by calls on its
contexts. -/
inductive Attained (limits : Limits) : World → Prop where
  | fresh : Attained limits (World.fresh limits)
  | operated {w : World} (op : Operation) : Attained limits w → Attained limits (op.run w)
  | called {w : World} (call : TableCall) :
    Attained limits w → call.OnContext w → Attained limits (call.act w).world

/-- Where operations lead by themselves is included. -/
theorem Reachable.attained {w : World} (hw : w.Reachable) : ∃ limits, w.Attained limits := by
  obtain ⟨limits, hsteps⟩ := hw
  refine ⟨limits, ?_⟩
  induction hsteps with
  | refl => exact .fresh
  | tail _ hstep ih =>
    obtain ⟨op, rfl⟩ := hstep
    exact .operated op ih

namespace Attained

variable {limits : Limits} {w : World}

theorem wellFormed (hw : w.Attained limits) : w.WellFormed := by
  induction hw with
  | fresh => exact wellFormed_fresh limits
  | operated op _ ih => exact Edits.wellFormed (op.edits ih) ih
  | called call _ hcall ih => exact Edits.wellFormed (ih.edits_of_moves (hcall.turns ih).moves.1) ih

theorem orderly (hw : w.Attained limits) : w.Orderly := by
  induction hw with
  | fresh => exact (kept_fresh limits).orderly
  | operated op _ ih => exact op.orderly ih
  | called call _ hcall ih => exact hcall.orderly ih

/-- The limits are settled when the instance is made. -/
theorem limits_eq (hw : w.Attained limits) : w.limits = limits := by
  induction hw with
  | fresh => rfl
  | operated op hw ih => exact (hw.wellFormed.limits_run op).trans ih
  | called call hw hcall ih =>
    exact (hw.wellFormed.limits_of_moves (hcall.turns hw.wellFormed).moves.1).trans ih

theorem limit_le (hw : w.Attained limits) (c : ContextId) :
    w.numbering.limit c ≤ limits.handles := by
  rw [← hw.limits_eq]
  exact hw.wellFormed.limit_le c

/-- A number may be given out at any time. -/
theorem reserving (hw : w.Attained limits) (c : ContextId) : (w.reserving c).Attained limits := by
  have hworld : ((TableCall.allocate c).act w).world = w.reserving c :=
    Action.after_map (allocateHandle c) Reply.handle w
  rw [← hworld]
  exact hw.called (.allocate c) trivial

end Attained

end World

end VirtualFs
