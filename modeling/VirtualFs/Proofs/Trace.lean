/-
What a query can put on the trace. A bound on the events of a query is put
together from bounds on its parts, whatever they find.
-/
import VirtualFs.Action.Lemmas

namespace VirtualFs.Query

variable {α β : Type} {P : Event → Prop}

/-- Every event the query leaves satisfies `P`, in any world. -/
def Emits (P : Event → Prop) (x : Query α) : Prop := ∀ w, ∀ event ∈ (x w).trace, P event

namespace Emits

theorem of_trace_nil {x : Query α} (h : ∀ w, (x w).trace = []) : Emits P x := by
  intro w event hevent
  simp [h w] at hevent

/-- What is known of the trace of one run. -/
theorem of_apply {x : Query α} (h : Emits P x) {w : World} {found : Finding α} (heq : x w = found) :
    ∀ event ∈ found.trace, P event := heq ▸ h w

theorem pure (a : α) : Emits P (pure a : Query α) := of_trace_nil fun _ => rfl

theorem throw (e : Error) : Emits P (throw e : Query α) := of_trace_nil fun _ => rfl

theorem look (f : World → α) : Emits P (look f) := of_trace_nil fun _ => rfl

theorem world : Emits P Query.world := of_trace_nil fun _ => rfl

theorem demand (p : Prop) [Decidable p] (e : Error) : Emits P (demand p e) :=
  of_trace_nil fun _ => by simp

theorem expect (value : Option α) (e : Error) : Emits P (expect value e) :=
  of_trace_nil fun _ => by simp

theorem ofResult (r : Except Error α) : Emits P (ofResult r) := by
  cases r
  · exact throw _
  · exact pure _

theorem note {event : Event} (h : P event) : Emits P (note event) := by
  intro w other hother
  obtain rfl : other = event := by simpa using hother
  exact h

theorem bind {x : Query α} {f : α → Query β} (hx : Emits P x) (hf : ∀ a, Emits P (f a)) :
    Emits P (x >>= f) := by
  intro w event hevent
  cases h : (x w).result with
  | error e =>
    rw [trace_bind_error h] at hevent
    exact hx w event hevent
  | ok a =>
    rw [trace_bind_ok h] at hevent
    rcases List.mem_append.1 hevent with hevent | hevent
    · exact hx w event hevent
    · exact hf a w event hevent

end Emits

end VirtualFs.Query
