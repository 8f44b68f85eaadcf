/-
Actions that leave nothing behind when they fail. `x.FailsTo start w Q` says of
an action that is run in `w` that if it fails, the world it leaves is `start`,
and that `Q` holds of its value and its world if it succeeds. At the start of
an operation the two worlds are the same, and anything may fail. Once the world
has changed, what follows must not fail, or must put back what was there.
-/
import VirtualFs.Proofs.Leads

namespace VirtualFs.Action

open Relation (ReflTransGen)

variable {ε ε' α β : Type} {start w : World} {Q : α → World → Prop}

/-- Leaves a given world if it fails, and succeeds only so that `Q` holds. -/
def FailsTo (start : World) (x : Action ε α) (w : World) (Q : α → World → Prop) : Prop :=
  (∀ e, (x w).result = .error e → (x w).world = start) ∧
    ∀ a, (x w).result = .ok a → Q a (x w).world

/-- Changes nothing if it fails. -/
abbrev Atomic (x : Action ε α) (w : World) : Prop := x.FailsTo w w fun _ _ => True

theorem FailsTo.imp {P : α → World → Prop} {x : Action ε α} (h : x.FailsTo start w P)
    (hPQ : ∀ a w', P a w' → Q a w') : x.FailsTo start w Q :=
  ⟨h.1, fun a ha => hPQ a _ (h.2 a ha)⟩

theorem FailsTo.and {P : α → World → Prop} {x : Action ε α} (hP : x.FailsTo start w P)
    (hQ : x.FailsTo start w Q) : x.FailsTo start w fun a w' => P a w' ∧ Q a w' :=
  ⟨hP.1, fun a ha => ⟨hP.2 a ha, hQ.2 a ha⟩⟩

/-- What holds before, and after every success, holds afterwards in any case. -/
theorem FailsTo.after {x : Action ε α} (hx : x.FailsTo w w Q) {P : World → Prop} (hw : P w)
    (hQ : ∀ a w', Q a w' → P w') : P (x.after w) := by
  cases hresult : (x w).result with
  | error e =>
    rw [Action.after, hx.1 e hresult]
    exact hw
  | ok a => exact hQ a _ (hx.2 a hresult)

/-- An action that fails for nothing takes the steps that its successes take. -/
theorem FailsTo.leads {S : World → World → Prop} {P : α → World → Prop} {x : Action ε α}
    (hx : x.FailsTo w w P) (hP : ∀ a w', P a w' → ReflTransGen S w w' ∧ Q a w') :
    x.Leads S w Q :=
  ⟨hx.after (P := ReflTransGen S w) .refl fun a w' ha => (hP a w' ha).1,
    fun a ha => (hP a _ (hx.2 a ha)).2⟩

/-! ## Single actions -/

theorem fails_pure {a : α} (h : Q a w) : (pure a : Action ε α).FailsTo start w Q := by
  refine ⟨nofun, fun b hb => ?_⟩
  cases hb
  exact h

theorem fails_throw {e : ε} : (throw e : Action ε α).FailsTo w w Q := ⟨fun _ _ => rfl, nofun⟩

theorem fails_change {f : World → World} {Q : Unit → World → Prop} (h : Q () (f w)) :
    (change f : Action ε Unit).FailsTo start w Q :=
  ⟨nofun, fun _ _ => h⟩

/-- A query may fail as long as nothing has changed. -/
theorem fails_query {q : Query α} (h : ∀ a, (q w).result = .ok a → Q a w) :
    (liftM q : Act α).FailsTo w w Q :=
  ⟨fun _ _ => rfl, h⟩

/-! ## Sequences -/

theorem fails_bind {x : Action ε α} {f : α → Action ε β} {P : α → World → Prop}
    {Q : β → World → Prop} (hx : x.FailsTo start w P)
    (hf : ∀ a w', P a w' → (f a).FailsTo start w' Q) : (x >>= f).FailsTo start w Q := by
  obtain ⟨hfail, hok⟩ := hx
  rcases hrun : x w with ⟨_ | a, w', t⟩ <;> rw [hrun] at hfail hok
  · rw [FailsTo, bind_error hrun]
    exact ⟨fun _ _ => hfail _ rfl, nofun⟩
  · rw [FailsTo, bind_ok hrun]
    exact hf a w' (hok a rfl)

theorem fails_query_bind {q : Query α} {f : α → Act β} {Q : β → World → Prop}
    (hf : ∀ a, (q w).result = .ok a → (f a).FailsTo w w Q) :
    ((liftM q : Act α) >>= f).FailsTo w w Q := by
  refine fails_bind (P := fun a w' => (q w).result = .ok a ∧ w' = w)
    (fails_query fun a ha => ⟨ha, rfl⟩) ?_
  rintro a _ ⟨ha, rfl⟩
  exact hf a ha

theorem fails_demand_bind {p : Prop} [Decidable p] {e : Error} {f : Unit → Act β}
    {Q : β → World → Prop} (hf : p → (f ()).FailsTo w w Q) :
    ((liftM (Query.demand p e) : Act Unit) >>= f).FailsTo w w Q :=
  fails_query_bind fun _ h => hf (Query.result_demand_eq_ok.1 h)

/-- A query that is known to succeed may come at any time. -/
theorem fails_sure_bind {q : Query α} {f : α → Act β} {Q : β → World → Prop} {a : α}
    (ha : (q w).result = .ok a) (hf : (f a).FailsTo start w Q) :
    ((liftM q : Act α) >>= f).FailsTo start w Q := by
  rw [FailsTo, liftM_bind_ok ha]
  exact hf

theorem fails_ask_bind {g : World → α} {f : α → Act β} {Q : β → World → Prop}
    (hf : (f (g w)).FailsTo start w Q) :
    ((liftM (Query.look g) : Act α) >>= f).FailsTo start w Q :=
  fails_sure_bind rfl hf

theorem fails_look_bind {g : World → α} {f : α → Action ε β} {Q : β → World → Prop}
    (hf : (f (g w)).FailsTo start w Q) : ((look g : Action ε α) >>= f).FailsTo start w Q := by
  rw [FailsTo, bind_ok (look_apply g w)]
  exact hf

theorem fails_world_bind {f : World → Action ε β} {Q : β → World → Prop}
    (hf : (f w).FailsTo start w Q) : ((world : Action ε World) >>= f).FailsTo start w Q := by
  rw [FailsTo, bind_ok (world_apply w)]
  exact hf

theorem fails_note_bind {event : Event} {f : Unit → Action ε β} {Q : β → World → Prop}
    (hf : (f ()).FailsTo start w Q) :
    ((note event : Action ε Unit) >>= f).FailsTo start w Q := by
  rw [FailsTo, bind_ok (note_apply event w)]
  exact hf

theorem fails_change_bind {g : World → World} {f : Unit → Action ε β} {Q : β → World → Prop}
    (hf : (f ()).FailsTo start (g w) Q) :
    ((change g : Action ε Unit) >>= f).FailsTo start w Q := by
  rw [FailsTo, bind_ok (change_apply g w)]
  exact hf

/-! ## Other ways to put actions together -/

theorem fails_when {c : Prop} [Decidable c] {x : Action ε Unit} {Q : Unit → World → Prop}
    (hx : c → x.FailsTo start w Q) (hnot : ¬c → Q () w) : (when c x).FailsTo start w Q := by
  rw [when]
  split
  · next h => exact hx h
  · next h => exact fails_pure (hnot h)

/-- An action that is run to its end does not fail; how it ended is its value. -/
theorem fails_attempt {x : Action ε α} (hx : x.FailsTo w w Q) :
    (attempt x : Action ε' _).FailsTo start w fun r w' =>
      (∀ e, r = .error e → w' = w) ∧ ∀ a, r = .ok a → Q a w' := by
  refine ⟨nofun, fun r hr => ?_⟩
  cases hr
  exact hx

/-- What is undone after a failure may lead back from one world to another. -/
theorem fails_orUndo {x : Action ε α} {undo : Action ε Unit} {back : World}
    (hx : x.FailsTo back w Q) (hundo : (undo back).world = start) :
    (x.orUndo undo).FailsTo start w Q := by
  obtain ⟨hfail, hok⟩ := hx
  rw [FailsTo, orUndo]
  rcases hrun : x w with ⟨_ | a, w', t⟩ <;> rw [hrun] at hfail hok
  · obtain rfl : w' = back := hfail _ rfl
    exact ⟨fun _ _ => hundo, fun _ ha => by cases ha⟩
  · exact ⟨fun _ he => (by cases he), hok⟩

end VirtualFs.Action
