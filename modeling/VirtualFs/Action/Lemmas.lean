/-
How queries and actions run. A query is known by its result and its trace;
the result of a sequence comes from the results of its parts, whatever they
put on the trace. Both kinds of computation are lawful monads, and a query
that is run as an action leaves the world as it was. Where the trace does not
matter, an action is known by how it ends and the world it leaves.
-/
import VirtualFs.Action

namespace VirtualFs

namespace Query

variable {α β : Type}

@[simp] theorem result_throw (e : Error) (w : World) :
    ((throw e : Query α) w).result = .error e := rfl

@[simp] theorem result_world (w : World) : (world w).result = .ok w := rfl

@[simp] theorem result_look (f : World → α) (w : World) : (look f w).result = .ok (f w) := rfl

@[simp] theorem result_note (event : Event) (w : World) : (note event w).result = .ok () := rfl

@[simp] theorem result_log (message : Message) (w : World) : (log message w).result = .ok () := rfl

@[simp] theorem result_demand (p : Prop) [Decidable p] (e : Error) (w : World) :
    (demand p e w).result = if p then .ok () else .error e := by
  unfold demand; split <;> rfl

@[simp] theorem result_expect (value : Option α) (e : Error) (w : World) :
    (expect value e w).result = value.elim (.error e) .ok := by
  cases value <;> rfl

@[simp] theorem result_ofResult (r : Except Error α) (w : World) : (ofResult r w).result = r := by
  cases r <;> rfl

@[simp] theorem result_attempt (x : Query α) (w : World) :
    (attempt x w).result = .ok (x w).result := rfl

/-- A query ends as it does by itself if what is run after it in any case succeeds. -/
theorem result_andFinally {x : Query α} {last : Query Unit} {w : World}
    (h : (last w).result = .ok ()) : (x.andFinally last w).result = (x w).result := by
  rw [andFinally, result_bind, result_attempt, Except.bind, result_bind, h, Except.bind,
    result_ofResult]

/-- A sequence succeeds exactly when each step succeeds in turn. -/
theorem result_bind_eq_ok {x : Query α} {f : α → Query β} {w : World} {b : β} :
    ((x >>= f) w).result = .ok b ↔ ∃ a, (x w).result = .ok a ∧ (f a w).result = .ok b := by
  rw [result_bind]
  cases (x w).result <;> simp [Except.bind]

theorem result_demand_eq_ok {p : Prop} [Decidable p] {e : Error} {w : World} {u : Unit} :
    (demand p e w).result = .ok u ↔ p := by
  by_cases h : p <;> simp [h]

theorem result_expect_eq_ok {value : Option α} {e : Error} {w : World} {a : α} :
    (expect value e w).result = .ok a ↔ value = some a := by
  cases value <;> simp

@[simp] theorem trace_look (f : World → α) (w : World) : (look f w).trace = [] := rfl

@[simp] theorem trace_world (w : World) : (world w).trace = [] := rfl

@[simp] theorem trace_note (event : Event) (w : World) : (note event w).trace = [event] := rfl

@[simp] theorem trace_demand (p : Prop) [Decidable p] (e : Error) (w : World) :
    (demand p e w).trace = [] := by
  unfold demand; split <;> rfl

@[simp] theorem trace_expect (value : Option α) (e : Error) (w : World) :
    (expect value e w).trace = [] := by
  cases value <;> rfl

theorem trace_bind_ok {x : Query α} {f : α → Query β} {w : World} {a : α}
    (h : (x w).result = .ok a) : ((x >>= f) w).trace = (x w).trace ++ (f a w).trace := by
  simp only [bind]
  rcases hx : x w with ⟨_ | _, _⟩ <;> simp_all

theorem trace_bind_error {x : Query α} {f : α → Query β} {w : World} {e : Error}
    (h : (x w).result = .error e) : ((x >>= f) w).trace = (x w).trace := by
  simp only [bind]
  rcases hx : x w with ⟨_ | _, _⟩ <;> simp_all

/-- What comes after a query that succeeded. -/
theorem bind_ok {x : Query α} {f : α → Query β} {w : World} {a : α} {t : List Event}
    (h : x w = { result := .ok a, trace := t }) :
    (x >>= f) w = { result := (f a w).result, trace := t ++ (f a w).trace } := by
  simp only [bind, h]

/-- Nothing comes after a query that failed. -/
theorem bind_error {x : Query α} {f : α → Query β} {w : World} {e : Error} {t : List Event}
    (h : x w = { result := .error e, trace := t }) :
    (x >>= f) w = { result := .error e, trace := t } := by
  simp only [bind, h]

/-- A value that is read off the world leaves nothing on the trace. -/
theorem look_bind (f : World → α) (g : α → Query β) (w : World) :
    (look f >>= g) w = g (f w) w := by
  rw [bind_ok (show look f w = { result := .ok (f w) } from rfl)]
  simp

theorem world_bind (g : World → Query β) (w : World) : (world >>= g) w = g w w := look_bind id g w

/-- A sequence depends on what comes after it only in the world it runs in. -/
theorem bind_congr_at {x : Query α} {f g : α → Query β} {w : World} (h : ∀ a, f a w = g a w) :
    (x >>= f) w = (x >>= g) w := by
  simp only [bind]
  rcases x w with ⟨_ | a, _⟩
  · rfl
  · simp only [h a]

theorem id_map_query (x : Query α) : id <$> x = x := by
  funext w
  simp only [Functor.map]
  rcases x w with ⟨_ | _, _⟩ <;> simp [Function.comp]

theorem bind_assoc_query {γ : Type} (x : Query α) (f : α → Query β) (g : β → Query γ) :
    x >>= f >>= g = x >>= fun a => f a >>= g := by
  funext w
  simp only [bind]
  rcases x w with ⟨_ | a, _⟩
  · rfl
  · rcases h : f a w with ⟨_ | b, _⟩ <;> simp [h]

instance : LawfulMonad Query :=
  LawfulMonad.mk' Query id_map_query (fun _ _ => rfl) bind_assoc_query

end Query

namespace Action

variable {ε α β : Type}

/-- What comes after an action that succeeded. -/
theorem bind_ok {x : Action ε α} {f : α → Action ε β} {w w' : World} {a : α} {t : List Event}
    (h : x w = { result := .ok a, world := w', trace := t }) :
    (x >>= f) w = { f a w' with trace := t ++ (f a w').trace } := by
  simp only [bind, h]

/-- Nothing comes after an action that failed. -/
theorem bind_error {x : Action ε α} {f : α → Action ε β} {w w' : World} {e : ε} {t : List Event}
    (h : x w = { result := .error e, world := w', trace := t }) :
    (x >>= f) w = { result := .error e, world := w', trace := t } := by
  simp only [bind, h]

/-- A sequence succeeds exactly when each step succeeds in the world the last one left. -/
theorem result_bind_eq_ok {x : Action ε α} {f : α → Action ε β} {w : World} {b : β} :
    ((x >>= f) w).result = .ok b ↔
      ∃ a, (x w).result = .ok a ∧ (f a (x w).world).result = .ok b := by
  simp only [bind]
  rcases x w with ⟨_ | a, _, _⟩ <;> simp

@[simp] theorem pure_apply (a : α) (w : World) :
    (pure a : Action ε α) w = { result := .ok a, world := w } := rfl

@[simp] theorem throw_apply (e : ε) (w : World) :
    (throw e : Action ε α) w = { result := .error e, world := w } := rfl

@[simp] theorem change_apply (f : World → World) (w : World) :
    (change f : Action ε Unit) w = { result := .ok (), world := f w } := rfl

@[simp] theorem look_apply (f : World → α) (w : World) :
    (look f : Action ε α) w = { result := .ok (f w), world := w } := rfl

@[simp] theorem world_apply (w : World) :
    (world : Action ε World) w = { result := .ok w, world := w } := rfl

@[simp] theorem note_apply (event : Event) (w : World) :
    (note event : Action ε Unit) w = { result := .ok (), world := w, trace := [event] } := rfl

/-- A query that is run as an action leaves the world as it was. -/
@[simp] theorem liftM_apply (q : Query α) (w : World) :
    (liftM q : Action Error α) w = { result := (q w).result, world := w, trace := (q w).trace } :=
  rfl

/-- A query that succeeds at the front of an action. -/
theorem liftM_bind_ok {q : Query α} {f : α → Action Error β} {w : World} {a : α}
    (h : (q w).result = .ok a) :
    ((liftM q : Action Error α) >>= f) w =
      { f a w with trace := (q w).trace ++ (f a w).trace } :=
  bind_ok (by rw [liftM_apply, h])

/-- A query that fails at the front of an action: the world stays as it was. -/
theorem liftM_bind_error {q : Query α} {f : α → Action Error β} {w : World} {e : Error}
    (h : (q w).result = .error e) :
    ((liftM q : Action Error α) >>= f) w =
      { result := .error e, world := w, trace := (q w).trace } :=
  bind_error (by rw [liftM_apply, h])

theorem id_map_action (x : Action ε α) : id <$> x = x := by
  funext w
  simp only [Functor.map]
  rcases x w with ⟨_ | _, _, _⟩ <;> simp [Function.comp]

theorem bind_assoc_action {γ : Type} (x : Action ε α) (f : α → Action ε β) (g : β → Action ε γ) :
    x >>= f >>= g = x >>= fun a => f a >>= g := by
  funext w
  simp only [bind]
  rcases x w with ⟨_ | a, w', _⟩
  · rfl
  · rcases h : f a w' with ⟨_ | b, _, _⟩ <;> simp [h]

instance : LawfulMonad (Action ε) :=
  LawfulMonad.mk' (Action ε) id_map_action (fun _ _ => rfl) bind_assoc_action

theorem result_map_eq_ok {x : Action ε α} {g : α → β} {w : World} {b : β} :
    ((g <$> x) w).result = .ok b ↔ ∃ a, (x w).result = .ok a ∧ g a = b := by
  rw [← bind_pure_comp, result_bind_eq_ok]
  exact exists_congr fun _ => and_congr_right fun _ => by rw [pure_apply, Except.ok.injEq]

/-- A query leaves the world to what comes after it. -/
theorem result_query_bind (q : Query α) (f : α → Act β) (w : World) :
    (((liftM q : Act α) >>= f) w).result = (q w).result.bind fun a => (f a w).result := by
  cases hq : (q w).result with
  | error e => rw [liftM_bind_error hq]; rfl
  | ok a => rw [liftM_bind_ok hq]; rfl

theorem result_world_bind (f : World → Action ε β) (w : World) :
    (((world : Action ε World) >>= f) w).result = (f w w).result := by
  rw [bind_ok (world_apply w)]

theorem result_note_bind (event : Event) (f : Unit → Action ε β) (w : World) :
    (((note event : Action ε Unit) >>= f) w).result = (f () w).result := by
  rw [bind_ok (note_apply event w)]

/-- What only hands on a value in the end hands on how it came. -/
theorem result_bind_tail {x : Action ε α} {f : α → Action ε β} {g : α → β} {w : World}
    (hf : ∀ a w', (f a w').result = .ok (g a)) : ((x >>= f) w).result = (x w).result.map g := by
  rcases hrun : x w with ⟨e | a, w', t⟩
  · rw [bind_error hrun]
    rfl
  · rw [bind_ok hrun]
    exact hf a w'

/-! ## How actions end -/

/-- How an action ends and the world it leaves, whatever is seen on the way. -/
def ended (x : Action ε α) (w : World) : Except ε α × World := ((x w).result, (x w).world)

variable {ε' : Type} {w : World}

theorem ended_pure (a : α) : (pure a : Action ε α).ended w = (.ok a, w) := rfl

theorem ended_throw (e : ε) : (throw e : Action ε α).ended w = (.error e, w) := rfl

theorem ended_change (g : World → World) : (change g : Action ε Unit).ended w = (.ok (), g w) := rfl

theorem ended_query {q : Query α} {r : Except Error α} (h : (q w).result = r) :
    (liftM q : Act α).ended w = (r, w) := by
  rw [← h]
  rfl

theorem ended_bind (x : Action ε α) (f : α → Action ε β) : (x >>= f).ended w =
    match x.ended w with
    | (.ok a, w') => (f a).ended w'
    | (.error e, w') => (.error e, w') := by
  simp only [ended, bind]
  rcases x w with ⟨_ | _, _, _⟩ <;> rfl

theorem ended_query_bind {q : Query α} {f : α → Act β} {a : α} (h : (q w).result = .ok a) :
    ((liftM q : Act α) >>= f).ended w = (f a).ended w := by
  rw [ended_bind, ended_query h]

theorem ended_query_bind_error {q : Query α} {f : α → Act β} {e : Error}
    (h : (q w).result = .error e) : ((liftM q : Act α) >>= f).ended w = (.error e, w) := by
  rw [ended_bind, ended_query h]

theorem ended_note_bind (event : Event) (f : Unit → Action ε β) :
    (note event >>= f).ended w = (f ()).ended w := ended_bind _ _

theorem ended_look_bind (g : World → α) (f : α → Action ε β) :
    (look g >>= f).ended w = (f (g w)).ended w := ended_bind _ _

theorem ended_ask_bind (g : World → α) (f : α → Act β) :
    ((liftM (Query.look g) : Act α) >>= f).ended w = (f (g w)).ended w := ended_bind _ _

theorem ended_attempt (x : Action ε α) :
    (attempt x : Action ε' (Except ε α)).ended w = (.ok (x.ended w).1, (x.ended w).2) := rfl

theorem ended_when (c : Prop) [Decidable c] (x : Action ε Unit) :
    (when c x).ended w = if c then x.ended w else (.ok (), w) := by
  rw [when]
  split <;> rfl

end Action

end VirtualFs
