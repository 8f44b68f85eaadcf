/-
Computations that keep to themselves. A query is discreet if it neither opens
nor closes a file; every query of the library is, as far as the drivers' are,
but those that list a directory. The same account keeps track of one cause of
failure, a full table: `F` is what must hold for the query to fail for it,
so that `False` says that it never does.

An action does `R` (`Action.Does`) if in any world the trace and the world it
leaves stand in `R` to the world it ran in. `R` is about a stretch of a run,
so it holds where nothing happens and of two stretches that follow each other.
-/
import VirtualFs.Action.Lemmas

namespace VirtualFs

/-- A file was opened or closed. -/
def Event.isTurnover : Event → Bool
  | .opened _ => true
  | .used _ (.close ..) => true
  | _ => false

/-- Nothing was opened and nothing closed. -/
def Quiet (trace : List Event) : Prop := ∀ event ∈ trace, event.isTurnover = false

theorem quiet_nil : Quiet [] := by
  intro event hevent
  cases hevent

theorem quiet_singleton {event : Event} (h : event.isTurnover = false) : Quiet [event] := by
  intro other hother
  rw [List.mem_singleton] at hother
  rw [hother, h]

theorem Quiet.append {s t : List Event} (hs : Quiet s) (ht : Quiet t) : Quiet (s ++ t) := by
  intro event hevent
  rcases List.mem_append.1 hevent with hevent | hevent
  · exact hs event hevent
  · exact ht event hevent

/-! ## Queries -/

namespace Query

variable {α β : Type} {F : Prop}

/-- Opens nothing, closes nothing, and fails for a full table only if `F` holds. -/
def Discreet (F : Prop) (x : Query α) : Prop :=
  ∀ w, Quiet (x w).trace ∧ ((x w).result = .error .tooManyOpenFiles → F)

namespace Discreet

theorem pure (a : α) : Discreet F (pure a : Query α) := fun _ => ⟨quiet_nil, nofun⟩

theorem throw {e : Error} (he : e = .tooManyOpenFiles → F) :
    Discreet F (throw e : Query α) := by
  refine fun w => ⟨quiet_nil, fun herror => he ?_⟩
  rw [result_throw] at herror
  exact Except.error.inj herror

theorem look (f : World → α) : Discreet F (look f) := fun _ => ⟨quiet_nil, nofun⟩

theorem world : Discreet F Query.world := fun _ => ⟨quiet_nil, nofun⟩

theorem note {event : Event} (h : event.isTurnover = false) : Discreet F (note event) :=
  fun _ => ⟨quiet_singleton h, nofun⟩

theorem demand (p : Prop) [Decidable p] {e : Error} (he : e = .tooManyOpenFiles → F) :
    Discreet F (demand p e) := by
  rw [Query.demand]
  split
  · exact pure ()
  · exact throw he

theorem expect (value : Option α) {e : Error} (he : e = .tooManyOpenFiles → F) :
    Discreet F (expect value e) := by
  cases value with
  | none => exact throw he
  | some a => exact pure a

theorem ofResult {r : Except Error α} (hr : r = .error .tooManyOpenFiles → F) :
    Discreet F (ofResult r) := by
  cases r with
  | ok a => exact pure a
  | error e => exact throw fun he => hr (by rw [he])

theorem bind {x : Query α} {f : α → Query β} (hx : Discreet F x)
    (hf : ∀ a, Discreet F (f a)) : Discreet F (x >>= f) := by
  intro w
  obtain ⟨htrace, hfull⟩ := hx w
  cases hresult : (x w).result with
  | error e =>
    rw [trace_bind_error hresult, result_bind, hresult]
    refine ⟨htrace, fun herror => hfull ?_⟩
    rw [hresult, Except.error.inj herror]
  | ok a =>
    rw [trace_bind_ok hresult, result_bind, hresult]
    exact ⟨htrace.append (hf a w).1, (hf a w).2⟩

theorem map {f : α → β} {x : Query α} (hx : Discreet F x) : Discreet F (f <$> x) := by
  rw [← bind_pure_comp]
  exact hx.bind fun a => pure (f a)

theorem ite {p : Prop} [Decidable p] {x y : Query α} (hx : Discreet F x)
    (hy : Discreet F y) : Discreet F (if p then x else y) := by
  split
  · exact hx
  · exact hy

theorem attempt {x : Query α} (hx : Discreet F x) : Discreet F (attempt x) :=
  fun w => ⟨(hx w).1, nofun⟩

theorem mono {F' : Prop} {x : Query α} (hx : Discreet F x) (h : F → F') :
    Discreet F' x :=
  fun w => ⟨(hx w).1, fun hresult => h ((hx w).2 hresult)⟩

end Discreet

end Query

/-! ## Actions -/

/-- A relation between a world, what was seen from there on, and the world after it. -/
class Stretch (R : World → List Event → World → Prop) : Prop where
  quiet : ∀ {w t}, Quiet t → R w t w
  trans : ∀ {w t w' t' w''}, R w t w' → R w' t' w'' → R w (t ++ t') w''

namespace Action

variable {R : World → List Event → World → Prop} {F : Prop} {α β : Type}

/-- Leaves a trace and a world that stand in `R` to the world it runs in, and fails for a full table
only if `F` holds. -/
def Does (R : World → List Event → World → Prop) (F : Prop) (x : Act α) : Prop :=
  ∀ w, R w (x w).trace (x w).world ∧ ((x w).result = .error .tooManyOpenFiles → F)

theorem Does.mono {R' : World → List Event → World → Prop} {F' : Prop} {x : Act α}
    (h : x.Does R F) (hR : ∀ w t w', R w t w' → R' w t w') (hfull : F → F') :
    x.Does R' F' :=
  fun w => ⟨hR _ _ _ (h w).1, fun hresult => hfull ((h w).2 hresult)⟩

theorem does_change {f : World → World} (hf : ∀ w, R w [] (f w)) :
    (change f : Act Unit).Does R F :=
  fun w => ⟨hf w, nofun⟩

variable [Stretch R]

theorem does_pure (a : α) : (pure a : Act α).Does R F :=
  fun _ => ⟨Stretch.quiet quiet_nil, nofun⟩

theorem does_throw {e : Error} (he : e = .tooManyOpenFiles → F) :
    (throw e : Act α).Does R F := by
  refine fun w => ⟨Stretch.quiet quiet_nil, fun herror => he ?_⟩
  rw [throw_apply] at herror
  exact Except.error.inj herror

theorem does_look (f : World → α) : (look f : Act α).Does R F :=
  fun _ => ⟨Stretch.quiet quiet_nil, nofun⟩

theorem does_world : (world : Act World).Does R F :=
  fun _ => ⟨Stretch.quiet quiet_nil, nofun⟩

theorem does_note {event : Event} (h : event.isTurnover = false) :
    (note event : Act Unit).Does R F :=
  fun _ => ⟨Stretch.quiet (quiet_singleton h), nofun⟩

theorem does_query {q : Query α} (h : q.Discreet F) : (liftM q : Act α).Does R F :=
  fun w => ⟨Stretch.quiet (h w).1, (h w).2⟩

theorem does_bind {x : Act α} {f : α → Act β} (hx : x.Does R F)
    (hf : ∀ a, (f a).Does R F) : (x >>= f).Does R F := by
  intro w
  obtain ⟨hstretch, hfull⟩ := hx w
  rcases hrun : x w with ⟨e | a, w', t⟩ <;> rw [hrun] at hstretch hfull
  · rw [bind_error hrun]
    refine ⟨hstretch, fun herror => hfull ?_⟩
    rw [Except.error.inj herror]
  · rw [bind_ok hrun]
    exact ⟨Stretch.trans hstretch (hf a w').1, (hf a w').2⟩

/-- What runs after a query may be told what the query found somewhere. -/
theorem does_query_bind {q : Query α} {f : α → Act β} (hq : q.Discreet F)
    (hf : ∀ a w, (q w).result = .ok a → (f a).Does R F) :
    ((liftM q : Act α) >>= f).Does R F := by
  intro w
  cases hresult : (q w).result with
  | error e =>
    rw [liftM_bind_error hresult]
    refine ⟨Stretch.quiet (hq w).1, fun herror => (hq w).2 ?_⟩
    rw [hresult, Except.error.inj herror]
  | ok a =>
    rw [liftM_bind_ok hresult]
    obtain ⟨hstretch, hfull⟩ := hf a w hresult w
    exact ⟨Stretch.trans (Stretch.quiet (hq w).1) hstretch, hfull⟩

theorem does_when {c : Prop} [Decidable c] {x : Act Unit} (hx : x.Does R F) :
    (when c x).Does R F := by
  rw [when]
  split
  · exact hx
  · exact does_pure ()

omit [Stretch R] in
theorem does_attempt {x : Act α} (hx : x.Does R F) : (attempt x : Act _).Does R F :=
  fun w => ⟨(hx w).1, nofun⟩

theorem does_andFinally {x : Act α} {last : Act Unit} (hx : x.Does R F)
    (hlast : last.Does R F) : (x.andFinally last).Does R F :=
  fun w => ⟨Stretch.trans (hx w).1 (hlast _).1, (hx w).2⟩

theorem does_orUndo {x : Act α} {undo : Act Unit} (hx : x.Does R F)
    (hundo : undo.Does R F) : (x.orUndo undo).Does R F := by
  intro w
  obtain ⟨hstretch, hfull⟩ := hx w
  rw [orUndo]
  rcases hrun : x w with ⟨e | a, w', t⟩ <;> rw [hrun] at hstretch hfull
  · exact ⟨Stretch.trans hstretch (hundo w').1, hfull⟩
  · exact ⟨hstretch, hfull⟩

end Action

end VirtualFs
