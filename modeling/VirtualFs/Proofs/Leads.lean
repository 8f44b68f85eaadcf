/-
Actions as sequences of steps. `x.Leads S w Q` says that run in `w`, the action
changes the world by steps of `S` alone, and that `Q` holds of its value and of
the world it leaves if it succeeds. An action that fails may have taken steps
before it did.

There is a rule for each way actions are put together. What runs after an
action runs in a world that the steps so far have led to, and each rule hands
that on; so what every step keeps may be used on the way.
-/
import VirtualFs.Action.Lemmas
import Mathlib.Logic.Relation

namespace VirtualFs.Action

/-- The world an action leaves. -/
def after {ε α : Type} (x : Action ε α) (w : World) : World := (x w).world

open Relation (ReflTransGen)

variable {ε ε' α β : Type} {S : World → World → Prop} {w : World} {Q : α → World → Prop}

/-- What is made of the value in the end does nothing to the world. -/
theorem after_map (x : Action ε α) (g : α → β) (w : World) : (g <$> x).after w = x.after w := by
  rcases hrun : x w with ⟨e | a, w', t⟩ <;> simp only [after, Functor.map, hrun]
  rfl

/-- Takes only steps of `S`, and succeeds only so that `Q` holds. -/
def Leads (S : World → World → Prop) (x : Action ε α) (w : World) (Q : α → World → Prop) : Prop :=
  ReflTransGen S w (x w).world ∧ ∀ a, (x w).result = .ok a → Q a (x w).world

/-- An action that is no concern of what runs after it. -/
abbrev LeadsOnly (S : World → World → Prop) (x : Action ε α) (w : World) : Prop :=
  x.Leads S w fun _ _ => True

theorem Leads.imp {P : α → World → Prop} {x : Action ε α} (h : x.Leads S w P)
    (hPQ : ∀ a w', ReflTransGen S w w' → P a w' → Q a w') : x.Leads S w Q :=
  ⟨h.1, fun a ha => hPQ a _ h.1 (h.2 a ha)⟩

theorem Leads.only {x : Action ε α} (h : x.Leads S w Q) : x.LeadsOnly S w :=
  h.imp fun _ _ _ _ => trivial

theorem Leads.mono {T : World → World → Prop} {x : Action ε α} (h : x.Leads S w Q)
    (hST : ∀ w w', S w w' → T w w') : x.Leads T w Q :=
  ⟨ReflTransGen.mono hST _ _ h.1, h.2⟩

/-- An action that can take no step leaves the world as it was. -/
theorem Leads.world_eq {x : Action ε α} (h : x.Leads (fun _ _ => False) w Q) :
    (x w).world = w := by
  rcases Relation.ReflTransGen.cases_head h.1 with heq | ⟨_, hstep, -⟩
  · exact heq.symm
  · exact hstep.elim

/-- What every step keeps is kept. -/
theorem Leads.kept {P : World → Prop} {x : Action ε α}
    (h : x.LeadsOnly (fun w w' => P w → P w') w) (hw : P w) : P (x w).world := by
  have hkept : ∀ w', ReflTransGen (fun w w' => P w → P w') w w' → P w' := by
    intro w' hsteps
    induction hsteps with
    | refl => exact hw
    | tail _ hstep ih => exact hstep ih
  exact hkept _ h.1

theorem leads_any {x : Action ε α} : x.LeadsOnly (fun _ _ => True) w :=
  ⟨.single trivial, fun _ _ => trivial⟩

/-! ## Single actions -/

theorem leads_pure {a : α} (h : Q a w) : (pure a : Action ε α).Leads S w Q := by
  refine ⟨.refl, fun b hb => ?_⟩
  cases hb
  exact h

theorem leads_throw {e : ε} : (throw e : Action ε α).Leads S w Q := ⟨.refl, nofun⟩

theorem leads_change {f : World → World} {Q : Unit → World → Prop} (hf : ReflTransGen S w (f w))
    (h : Q () (f w)) : (change f : Action ε Unit).Leads S w Q :=
  ⟨hf, fun _ _ => h⟩

theorem leads_note {event : Event} {Q : Unit → World → Prop} (h : Q () w) :
    (note event : Action ε Unit).Leads S w Q :=
  ⟨.refl, fun _ _ => h⟩

/-- A query takes no step. -/
theorem leads_query {q : Query α} (h : ∀ a, (q w).result = .ok a → Q a w) :
    (liftM q : Act α).Leads S w Q :=
  ⟨.refl, h⟩

/-! ## Sequences -/

theorem leads_bind {x : Action ε α} {f : α → Action ε β} {P : α → World → Prop}
    {Q : β → World → Prop} (hx : x.Leads S w P)
    (hf : ∀ a w', ReflTransGen S w w' → P a w' → (f a).Leads S w' Q) : (x >>= f).Leads S w Q := by
  obtain ⟨hsteps, hok⟩ := hx
  rcases hrun : x w with ⟨_ | a, w', t⟩
  · rw [hrun] at hsteps
    rw [Leads, bind_error hrun]
    exact ⟨hsteps, nofun⟩
  · rw [hrun] at hsteps hok
    obtain ⟨hrest, hresult⟩ := hf a w' hsteps (hok a rfl)
    rw [Leads, bind_ok hrun]
    exact ⟨hsteps.trans hrest, hresult⟩

theorem leads_query_bind {q : Query α} {f : α → Act β} {Q : β → World → Prop}
    (hf : ∀ a, (q w).result = .ok a → (f a).Leads S w Q) :
    ((liftM q : Act α) >>= f).Leads S w Q := by
  cases hq : (q w).result with
  | error e =>
    rw [Leads, liftM_bind_error hq]
    exact ⟨.refl, nofun⟩
  | ok a =>
    rw [Leads, liftM_bind_ok hq]
    exact hf a hq

theorem leads_demand_bind {p : Prop} [Decidable p] {e : Error} {f : Unit → Act β}
    {Q : β → World → Prop} (hf : p → (f ()).Leads S w Q) :
    ((liftM (Query.demand p e) : Act Unit) >>= f).Leads S w Q :=
  leads_query_bind fun _ h => hf (Query.result_demand_eq_ok.1 h)

/-- A value that is read off the world is the value it has there. -/
theorem leads_ask_bind {g : World → α} {f : α → Act β} {Q : β → World → Prop}
    (hf : (f (g w)).Leads S w Q) : ((liftM (Query.look g) : Act α) >>= f).Leads S w Q :=
  leads_query_bind fun _ h => by
    cases h
    exact hf

theorem leads_look_bind {g : World → α} {f : α → Action ε β} {Q : β → World → Prop}
    (hf : (f (g w)).Leads S w Q) : ((look g : Action ε α) >>= f).Leads S w Q := by
  rw [Leads, bind_ok (look_apply g w)]
  exact hf

theorem leads_world_bind {f : World → Action ε β} {Q : β → World → Prop}
    (hf : (f w).Leads S w Q) : ((world : Action ε World) >>= f).Leads S w Q := by
  rw [Leads, bind_ok (world_apply w)]
  exact hf

theorem leads_note_bind {event : Event} {f : Unit → Action ε β} {Q : β → World → Prop}
    (hf : (f ()).Leads S w Q) : ((note event : Action ε Unit) >>= f).Leads S w Q := by
  rw [Leads, bind_ok (note_apply event w)]
  exact hf

theorem leads_change_bind {g : World → World} {f : Unit → Action ε β} {Q : β → World → Prop}
    (hg : ReflTransGen S w (g w)) (hf : (f ()).Leads S (g w) Q) :
    ((change g : Action ε Unit) >>= f).Leads S w Q := by
  obtain ⟨hrest, hresult⟩ := hf
  rw [Leads, bind_ok (change_apply g w)]
  exact ⟨hg.trans hrest, hresult⟩

/-! ## Other ways to put actions together -/

theorem leads_when {c : Prop} [Decidable c] {x : Action ε Unit} {Q : Unit → World → Prop}
    (hx : c → x.Leads S w Q) (hnot : ¬c → Q () w) : (when c x).Leads S w Q := by
  rw [when]
  split
  · next h => exact hx h
  · next h => exact leads_pure (hnot h)

theorem leads_attempt {x : Action ε α} (hx : x.Leads S w Q) :
    (attempt x : Action ε' _).Leads S w fun r w' => ∀ a, r = .ok a → Q a w' := by
  refine ⟨hx.1, fun r hr a ha => ?_⟩
  cases hr
  exact hx.2 a ha

theorem leads_andFinally {x : Action ε α} {last : Action ε Unit} (hx : x.LeadsOnly S w)
    (hlast : ∀ w', ReflTransGen S w w' → last.LeadsOnly S w') :
    (x.andFinally last).LeadsOnly S w :=
  ⟨hx.1.trans (hlast _ hx.1).1, fun _ _ => trivial⟩

theorem leads_orUndo {x : Action ε α} {undo : Action ε Unit} (hx : x.Leads S w Q)
    (hundo : ∀ w', ReflTransGen S w w' → undo.LeadsOnly S w') : (x.orUndo undo).Leads S w Q := by
  obtain ⟨hsteps, hok⟩ := hx
  rw [Leads, orUndo]
  rcases hrun : x w with ⟨_ | a, w', t⟩ <;> rw [hrun] at hsteps hok
  · exact ⟨hsteps.trans (hundo w' hsteps).1, nofun⟩
  · exact ⟨hsteps, hok⟩

end VirtualFs.Action
