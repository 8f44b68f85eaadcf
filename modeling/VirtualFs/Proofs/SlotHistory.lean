/-
What is put into a table of slots comes out of it once. Any requests may be
made, in any order and with any numbers and values; what was put at a number
then comes out there in the same order, each value with a reply of its own,
and at most the last one is still to be seen.

The history of a table keeps the table that each request met. A reply to
`drain` lists values without their numbers, so the numbers are read off that
table, and a reply is shown to list just these values in the order of their
numbers (`values_serve`).
-/
import VirtualFs.ReservationTable.Lemmas
import Mathlib.Data.List.Basic

namespace VirtualFs

/-- What may be asked of a table. -/
inductive SlotRequest (α : Type) where
  | reserve
  | fill (i : Nat) (value : α)
  | replace (i : Nat) (value : α)
  | release (i : Nat)
  | drain
  deriving DecidableEq, Repr

/-- How a table replies. -/
inductive SlotReply (α : Type) where
  /-- The number that is reserved now, none if all are used. -/
  | reserved (i : Option Nat)
  /-- The value was put in, and another one came out if there was one. -/
  | stored (displaced : Option α)
  /-- The value was not put in and is handed back. -/
  | refused (value : α)
  | released (value : Option α)
  | drained (values : List α)
  deriving DecidableEq, Repr

/-- A request with the table that it met and the reply that it got. -/
structure SlotRecord (α : Type) where
  table : ReservationTable α
  request : SlotRequest α
  reply : SlotReply α

variable {α : Type}

namespace SlotRequest

/-- The reply to a request, and the table after it. A table that refuses stays as it is. -/
def serve (t : ReservationTable α) : SlotRequest α → SlotReply α × ReservationTable α
  | reserve =>
    match t.reserve with
    | some (i, t') => (.reserved (some i), t')
    | none => (.reserved none, t)
  | fill i value =>
    match t.fill i value with
    | .ok t' => (.stored none, t')
    | .error back => (.refused back, t)
  | replace i value =>
    match t.replace i value with
    | .ok (displaced, t') => (.stored displaced, t')
    | .error back => (.refused back, t)
  | release i => (.released (t.release i).1, (t.release i).2)
  | drain => (.drained t.drain.1, t.drain.2)

/-- The table after one request after the other. -/
def serveAll (requests : List (SlotRequest α)) (t : ReservationTable α) : ReservationTable α :=
  requests.foldl (fun t request => (request.serve t).2) t

/-- What became of one request after the other. -/
def history : List (SlotRequest α) → ReservationTable α → List (SlotRecord α)
  | [], _ => []
  | request :: rest, t =>
    ⟨t, request, (request.serve t).1⟩ :: history rest (request.serve t).2

end SlotRequest

/-- The values that a reply gives away. A value that is handed back was never in the table. -/
def SlotReply.values : SlotReply α → List α
  | stored displaced => displaced.toList
  | released value => value.toList
  | drained values => values
  | reserved _ | refused _ => []

namespace SlotRecord

/-- What was put in at a number. -/
def putAt (i : Nat) (s : SlotRecord α) : Option α :=
  match s.request, s.reply with
  | .fill j value, .stored _ | .replace j value, .stored _ => if i = j then some value else none
  | _, _ => none

/-- What came out at a number. -/
def takenAt (i : Nat) (s : SlotRecord α) : Option α :=
  match s.request, s.reply with
  | .replace j _, .stored value | .release j, .released value => if i = j then value else none
  | .drain, .drained _ => s.table.get? i
  | _, _ => none

end SlotRecord

/-- One number's share is all there is if nothing is at the others. -/
theorem filterMap_range_single {value : Option α} {n j : Nat} (h : n ≤ j → value = none) :
    ((List.range n).filterMap fun i => if i = j then value else none) = value.toList := by
  induction n with
  | zero => simp [h (Nat.zero_le j)]
  | succ n ih =>
    rw [List.range_succ, List.filterMap_append]
    by_cases hj : n = j
    · have hbelow : ((List.range n).filterMap fun i => if i = j then value else none) = [] := by
        simp only [List.filterMap_eq_nil_iff, List.mem_range]
        intro i hi
        rw [if_neg (by omega)]
      rw [hbelow]
      cases value <;> simp [hj]
    · rw [ih (fun hle => h (by omega))]
      simp [hj]

namespace SlotRequest

open ReservationTable (displaced_of_replace exists_fill exists_replace fill_eq_error get?_eq
  release_fst released_of_reserve replace_eq_error slotAt_fill slotAt_of_fill slotAt_release
  slotAt_replace slotAt_reserve)

variable {t : ReservationTable α} {limit : Nat}

/-! ## One request -/

theorem neat_serve (h : t.Neat limit) (request : SlotRequest α) :
    (request.serve t).2.Neat limit := by
  cases request with
  | reserve =>
    rw [serve]
    split
    · next hreserve => exact h.reserve hreserve
    · exact h
  | fill i value =>
    rw [serve]
    split
    · next hfill => exact h.fill hfill
    · exact h
  | replace i value =>
    rw [serve]
    split
    · next hreplace => exact h.replace hreplace
    · exact h
  | release i => exact h.release i
  | drain => exact h.drain

/-- Where one number changes, what goes in and comes out is balanced if it is so at that number. -/
theorem balance_at {t' : ReservationTable α} {j : Nat} {slot : Slot α} (put taken : Option α)
    (hslot : ∀ i, t'.slotAt i = if i = j then slot else t.slotAt i)
    (hat : (t.slotAt j).value?.toList ++ put.toList = taken.toList ++ slot.value?.toList) (i : Nat) :
    (t.get? i).toList ++ (if i = j then put else none).toList =
      (if i = j then taken else none).toList ++ (t'.get? i).toList := by
  rw [get?_eq, get?_eq, hslot]
  by_cases hi : i = j
  · subst hi
    simpa using hat
  · simp [hi]

/-- What is there at a number and what a request puts in there is what comes out there and what is
there afterwards. -/
theorem serve_balances (t : ReservationTable α) (request : SlotRequest α) (i : Nat) :
    let s : SlotRecord α := ⟨t, request, (request.serve t).1⟩
    (t.get? i).toList ++ (s.putAt i).toList =
      (s.takenAt i).toList ++ ((request.serve t).2.get? i).toList := by
  cases request with
  | reserve =>
    simp only [serve]
    split
    · next j t' hreserve =>
      obtain ⟨hfree, -, hslot⟩ := slotAt_reserve hreserve
      have hbalance := balance_at none none hslot (by simp [hfree, Slot.value?]) i
      simpa [SlotRecord.putAt, SlotRecord.takenAt] using hbalance
    · simp [SlotRecord.putAt, SlotRecord.takenAt]
  | fill j value =>
    simp only [serve]
    split
    · next t' hfill =>
      have hreserved := slotAt_of_fill hfill
      have hbalance := balance_at (some value) none (slotAt_fill hfill)
        (by simp [hreserved, Slot.value?]) i
      simpa [SlotRecord.putAt, SlotRecord.takenAt] using hbalance
    · simp [SlotRecord.putAt, SlotRecord.takenAt]
  | replace j value =>
    simp only [serve]
    split
    · next displaced t' hreplace =>
      have hdisplaced := displaced_of_replace hreplace
      exact balance_at (some value) displaced (slotAt_replace hreplace)
        (by simp [hdisplaced, get?_eq, Slot.value?]) i
    · simp [SlotRecord.putAt, SlotRecord.takenAt]
  | release j =>
    have hbalance := balance_at none (t.release j).1 (slotAt_release t j)
      (by simp [release_fst, get?_eq, Slot.value?]) i
    simpa [SlotRecord.putAt, SlotRecord.takenAt, serve] using hbalance
  | drain =>
    simp [serve, SlotRecord.putAt, SlotRecord.takenAt, ReservationTable.drain,
      ReservationTable.get?]

/-- A reply gives away what came out at the numbers, in their order. -/
theorem values_serve (h : t.Neat limit) (request : SlotRequest α) :
    let s : SlotRecord α := ⟨t, request, (request.serve t).1⟩
    s.reply.values = (List.range limit).filterMap (s.takenAt ·) := by
  cases request with
  | reserve =>
    simp only [serve]
    split <;> simp [SlotReply.values, SlotRecord.takenAt]
  | fill j value =>
    simp only [serve]
    split <;> simp [SlotReply.values, SlotRecord.takenAt]
  | replace j value =>
    simp only [serve]
    split
    · next displaced t' hreplace =>
      refine (filterMap_range_single fun hle => ?_).symm
      rw [displaced_of_replace hreplace, h.get?_of_le hle]
    · simp [SlotReply.values, SlotRecord.takenAt]
  | release j =>
    refine (filterMap_range_single fun hle => ?_).symm
    rw [release_fst, h.get?_of_le hle]
  | drain => exact h.values_eq

/-! ## Histories -/

theorem neat_serveAll (h : t.Neat limit) (requests : List (SlotRequest α)) :
    (serveAll requests t).Neat limit := by
  induction requests generalizing t with
  | nil => exact h
  | cons request rest ih => exact ih (neat_serve h request)

/-- What was there at first and what was put in comes out in that order, up to what is there at
last. -/
theorem history_balances (requests : List (SlotRequest α)) (t : ReservationTable α) (i : Nat) :
    (t.get? i).toList ++ (history requests t).filterMap (·.putAt i) =
      (history requests t).filterMap (·.takenAt i) ++ ((serveAll requests t).get? i).toList := by
  induction requests generalizing t with
  | nil => simp [history, serveAll]
  | cons request rest ih =>
    have hone := serve_balances t request i
    have hrest := ih (request.serve t).2
    simp only [List.filterMap_eq_flatMap_toList] at hrest ⊢
    simp only [history, serveAll, List.flatMap_cons, List.foldl_cons] at hone hrest ⊢
    rw [← List.append_assoc, hone, List.append_assoc, hrest, List.append_assoc]

theorem values_of_mem_history (h : t.Neat limit) {requests : List (SlotRequest α)}
    {s : SlotRecord α} (hs : s ∈ history requests t) :
    s.reply.values = (List.range limit).filterMap (s.takenAt ·) := by
  induction requests generalizing t with
  | nil => cases hs
  | cons request rest ih =>
    rcases List.mem_cons.1 hs with rfl | hs
    · exact values_serve h request
    · exact ih (neat_serve h request) hs

/-- **What is put into a table comes out once.** Whatever is asked of a table of a limit, it has no
more slots than that and no free one at its end. A number is reserved as long as one below the limit
is free, and it is the lowest of these; one that is reserved and released again leaves the table as
it was. A value is filled into reserved slots only, and put in the place of another one at a number
below the limit that is not reserved; else it is handed back. What a reply gives away is what came
out at the numbers, in their order; and what was put in at a number came out there in the same
order, up to what is still there. -/
theorem put_comes_out_once (limit : Nat) (requests : List (SlotRequest α)) :
    let t := serveAll requests { limit }
    let served := history requests { limit }
    (t.slots.length ≤ limit ∧ t.slots.getLast? ≠ some .free) ∧
    (t.reserve = none ↔ ∀ i < limit, t.slotAt i ≠ .free) ∧
    (∀ i t', t.reserve = some (i, t') →
      (i < limit ∧ t.slotAt i = .free ∧ (∀ j < i, t.slotAt j ≠ .free) ∧
        ∀ j, t'.slotAt j = if j = i then .reserved else t.slotAt j) ∧
      t'.release i = (none, t)) ∧
    (∀ i value,
      (t.slotAt i = .reserved → ∃ t', t.fill i value = .ok t') ∧
      (t.slotAt i ≠ .reserved → t.fill i value = .error value)) ∧
    (∀ i value,
      (i < limit ∧ t.slotAt i ≠ .reserved → ∃ t', t.replace i value = .ok (t.get? i, t')) ∧
      (limit ≤ i ∨ t.slotAt i = .reserved → t.replace i value = .error value)) ∧
    (∀ s ∈ served, s.reply.values = (List.range limit).filterMap (s.takenAt ·)) ∧
    ∀ i, served.filterMap (·.putAt i) = served.filterMap (·.takenAt i) ++ (t.get? i).toList := by
  intro t served
  have hempty : ({ limit } : ReservationTable α).Neat limit := .empty limit
  have h : t.Neat limit := neat_serveAll hempty requests
  have hlimit := h.limit_eq
  refine ⟨⟨hlimit ▸ h.length_le, h.last⟩, h.reserve_eq_none_iff,
    fun i t' hreserve => ⟨?_, ?_⟩, fun i value => ⟨?_, ?_⟩, fun i value => ⟨?_, ?_⟩,
    fun s hs => values_of_mem_history hempty hs, fun i => ?_⟩
  · exact ⟨h.lt_of_reserve hreserve, slotAt_reserve hreserve⟩
  · exact Prod.ext (released_of_reserve hreserve) (h.release_reserve hreserve)
  · exact fun hreserved => exists_fill hreserved value
  · exact fun hother => fill_eq_error hother value
  · rintro ⟨hlt, hother⟩
    rw [get?_eq]
    exact exists_replace (hlimit ▸ hlt) hother value
  · intro hrefused
    rw [← hlimit] at hrefused
    exact replace_eq_error hrefused value
  · have hbalance := history_balances requests ({ limit } : ReservationTable α) i
    simpa [ReservationTable.get?] using hbalance

example :
    (history
      [.reserve, .replace 2 'a', .fill 0 'b', .replace 2 'c', .fill 1 'd', .release 0, .drain]
      { limit := 3 }).map SlotRecord.reply =
    [.reserved (some 0), .stored none, .stored none, .stored (some 'a'), .refused 'd',
      .released (some 'b'), .drained ['c']] := by decide

end SlotRequest

end VirtualFs
