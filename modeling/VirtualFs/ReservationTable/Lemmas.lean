/-
How the operations of a table change the state of its numbers: each one
changes a single number, and reserving takes the lowest that is free.
-/
import VirtualFs.ReservationTable

namespace VirtualFs

theorem Slot.value?_eq_some {α : Type} {slot : Slot α} {value : α} :
    slot.value? = some value ↔ slot = .taken value := by
  cases slot <;> simp [value?]

namespace ReservationTable

variable {α : Type}

theorem getD_trim (l : List (Slot α)) (i : Nat) :
    (trim l)[i]?.getD .free = l[i]?.getD .free := by
  induction l generalizing i with
  | nil => rfl
  | cons slot rest ih =>
    simp only [trim]
    split
    · next h =>
      have hrest : ∀ j, rest[j]?.getD .free = Slot.free := fun j => by rw [← ih j, h]; rfl
      cases i with
      | zero => cases slot <;> rfl
      | succ i => cases slot <;> simp [Slot.isFree, hrest]
    · cases i with
      | zero => rfl
      | succ i => simpa using ih i

theorem get?_eq (t : ReservationTable α) (i : Nat) : t.get? i = (t.slotAt i).value? := by
  simp only [get?, slotAt]
  cases t.slots[i]? <;> rfl

theorem isReserved_iff {t : ReservationTable α} {i : Nat} :
    t.isReserved i = true ↔ t.slotAt i = .reserved := by
  simp only [isReserved, slotAt]
  rcases t.slots[i]? with _ | (_ | _ | _) <;> simp

theorem mem_values_iff {t : ReservationTable α} {value : α} :
    value ∈ t.values ↔ ∃ i, t.slotAt i = .taken value := by
  rw [values, List.mem_filterMap]
  constructor
  · rintro ⟨slot, hslot, hvalue⟩
    obtain ⟨i, hi⟩ := List.mem_iff_getElem?.1 hslot
    refine ⟨i, ?_⟩
    rw [slotAt, hi, Option.getD_some]
    cases slot with
    | free | reserved => cases hvalue
    | taken other =>
      cases hvalue
      rfl
  · rintro ⟨i, hi⟩
    rw [slotAt] at hi
    cases hslot : t.slots[i]? with
    | none =>
      rw [hslot] at hi
      cases hi
    | some slot =>
      rw [hslot, Option.getD_some] at hi
      exact ⟨slot, List.mem_of_getElem? hslot, by rw [hi]; rfl⟩

theorem getD_set {l : List (Slot α)} {i : Nat} (h : i < l.length) (slot : Slot α) (j : Nat) :
    (l.set i slot)[j]?.getD .free = if j = i then slot else l[j]?.getD .free := by
  rw [List.getElem?_set]
  by_cases hj : i = j
  · subst hj; simp [h]
  · simp [hj, Ne.symm hj]

theorem getD_append_free (l : List (Slot α)) (n j : Nat) :
    (l ++ List.replicate n .free)[j]?.getD .free = l[j]?.getD .free := by
  by_cases hj : j < l.length
  · rw [List.getElem?_append_left hj]
  · rw [List.getElem?_append_right (Nat.not_lt.1 hj), List.getElem?_eq_none (Nat.not_lt.1 hj),
      List.getElem?_replicate]
    split <;> rfl

theorem isFree_iff {slot : Slot α} : slot.isFree = true ↔ slot = .free := by
  cases slot <;> simp [Slot.isFree]

/-- Only the reserved number changes, and it was the lowest free one. -/
theorem slotAt_reserve {t t' : ReservationTable α} {i : Nat} (h : t.reserve = some (i, t')) :
    t.slotAt i = .free ∧ (∀ j < i, t.slotAt j ≠ .free) ∧
      ∀ j, t'.slotAt j = if j = i then .reserved else t.slotAt j := by
  simp only [reserve] at h
  split at h
  · next k hk =>
    obtain ⟨rfl, rfl⟩ := by simpa using h
    obtain ⟨hlt, hfree, hlow⟩ := List.findIdx?_eq_some_iff_getElem.1 hk
    refine ⟨by simpa [slotAt, hlt, isFree_iff] using hfree, fun j hj => ?_,
      getD_set hlt .reserved⟩
    have : j < t.slots.length := Nat.lt_trans hj hlt
    simpa [slotAt, this, isFree_iff] using hlow j hj
  · next hk =>
    split at h
    · obtain ⟨rfl, rfl⟩ := by simpa using h
      refine ⟨by simp [slotAt], fun j hj => ?_, fun j => ?_⟩
      · have := List.findIdx?_eq_none_iff.1 hk t.slots[j] (List.getElem_mem hj)
        intro hf
        simp [slotAt, hj] at hf
        simp [hf, Slot.isFree] at this
      · simp only [slotAt, List.getElem?_append, List.getElem?_singleton]
        rcases Nat.lt_trichotomy j t.slots.length with hj | hj | hj
        · simp [hj, Nat.ne_of_lt hj]
        · simp [hj]
        · have : ¬j < t.slots.length := by omega
          simp [this, Nat.ne_of_gt hj, Nat.sub_ne_zero_of_lt hj]
    · cases h

/-- A table that has nothing to reserve has no free number. -/
theorem slotAt_ne_free_of_reserve {t : ReservationTable α} (hreserve : t.reserve = none) :
    ∀ j < t.limit, t.slotAt j ≠ .free := by
  rw [ReservationTable.reserve] at hreserve
  split at hreserve
  · cases hreserve
  · next hfind =>
    split at hreserve
    · cases hreserve
    next hlt =>
    intro j hj hfree
    have hlength : j < t.slots.length := Nat.lt_of_lt_of_le hj (Nat.not_lt.1 hlt)
    have hnot := List.findIdx?_eq_none_iff.1 hfind t.slots[j] (List.getElem_mem hlength)
    rw [slotAt, List.getElem?_eq_getElem hlength, Option.getD_some] at hfree
    rw [hfree] at hnot
    cases hnot

theorem slotAt_fill {t t' : ReservationTable α} {i : Nat} {value : α}
    (h : t.fill i value = .ok t') (j : Nat) :
    t'.slotAt j = if j = i then .taken value else t.slotAt j := by
  simp only [fill] at h
  split at h
  · next hr =>
    obtain rfl := by simpa using h
    have hlt : i < t.slots.length := Decidable.byContradiction fun hle => by
      simp [isReserved, List.getElem?_eq_none (Nat.not_lt.1 hle)] at hr
    exact getD_set hlt _ j
  · cases h

/-- A reserved number can be filled. -/
theorem exists_fill {t : ReservationTable α} {i : Nat} (h : t.slotAt i = .reserved) (value : α) :
    ∃ t', t.fill i value = .ok t' :=
  ⟨_, if_pos (isReserved_iff.2 h)⟩

/-- No other number can be filled; the value is handed back. -/
theorem fill_eq_error {t : ReservationTable α} {i : Nat} (h : t.slotAt i ≠ .reserved) (value : α) :
    t.fill i value = .error value :=
  if_neg (mt isReserved_iff.1 h)

theorem slotAt_of_fill {t t' : ReservationTable α} {i : Nat} {value : α}
    (h : t.fill i value = .ok t') : t.slotAt i = .reserved := by
  unfold fill at h
  split at h
  · next hreserved => exact isReserved_iff.1 hreserved
  · cases h

/-- A number of the table that is not reserved can be given a value. -/
theorem exists_replace {t : ReservationTable α} {i : Nat} (hlt : i < t.limit)
    (h : t.slotAt i ≠ .reserved) (value : α) :
    ∃ t', t.replace i value = .ok ((t.slotAt i).value?, t') := by
  have hput : ¬(t.limit ≤ i ∨ t.isReserved i = true) := by
    rw [isReserved_iff]
    exact fun hor => hor.elim (Nat.not_le.2 hlt) h
  rw [← get?_eq]
  exact ⟨_, if_neg hput⟩

/-- A number past the limit or one that is reserved cannot; the value is handed back. -/
theorem replace_eq_error {t : ReservationTable α} {i : Nat}
    (h : t.limit ≤ i ∨ t.slotAt i = .reserved) (value : α) : t.replace i value = .error value := by
  rw [← isReserved_iff] at h
  exact if_pos h

/-- What comes with a number that was given a value is what was bound to it. -/
theorem displaced_of_replace {t t' : ReservationTable α} {i : Nat} {value : α} {old : Option α}
    (h : t.replace i value = .ok (old, t')) : old = t.get? i := by
  unfold replace at h
  split at h
  · cases h
  · cases h
    rfl

theorem slotAt_replace {t t' : ReservationTable α} {i : Nat} {value : α} {old : Option α}
    (h : t.replace i value = .ok (old, t')) (j : Nat) :
    t'.slotAt j = if j = i then .taken value else t.slotAt j := by
  simp only [replace] at h
  split at h
  · cases h
  · obtain ⟨-, rfl⟩ := by simpa using h
    have hlen :
        i < (t.slots ++ List.replicate (i + 1 - t.slots.length) (Slot.free : Slot α)).length := by
      simp; omega
    rw [slotAt, getD_set hlen, getD_append_free]; rfl

theorem slotAt_release (t : ReservationTable α) (i j : Nat) :
    (t.release i).2.slotAt j = if j = i then .free else t.slotAt j := by
  simp only [release]
  split
  · next hlt => rw [slotAt, getD_trim, getD_set hlt]; rfl
  · next hle =>
    split
    · next hj => simp [slotAt, hj, List.getElem?_eq_none (Nat.not_lt.1 hle)]
    · rfl

/-- What comes with a freed number is what was bound to it. -/
theorem release_fst (t : ReservationTable α) (i : Nat) : (t.release i).1 = t.get? i := by
  rw [release]
  split
  · rfl
  · next hle => rw [get?, List.getElem?_eq_none (Nat.not_lt.1 hle)]; rfl

/-- Nothing comes with a number that was only reserved. -/
theorem released_of_reserve {t t' : ReservationTable α} {i : Nat}
    (h : t.reserve = some (i, t')) : (t'.release i).1 = none := by
  obtain ⟨-, -, hslot⟩ := slotAt_reserve h
  rw [release_fst, get?_eq, hslot, if_pos rfl]
  rfl

/-- Values by number, for so many numbers that none is left out. -/
theorem filterMap_value?_eq (l : List (Slot α)) {n : Nat} (h : l.length ≤ n) :
    l.filterMap Slot.value? = (List.range n).filterMap fun i => l[i]?.bind Slot.value? := by
  induction l generalizing n with
  | nil => simp
  | cons slot rest ih =>
    cases n with
    | zero => simp at h
    | succ n =>
      rw [List.range_succ_eq_map, List.filterMap_cons, List.filterMap_cons, List.filterMap_map,
        ih (Nat.le_of_succ_le_succ h)]
      rfl

/-! ## Tables without loose ends -/

/-- A table of a limit: no more slots than that, and none at the end that is free. -/
structure Neat (t : ReservationTable α) (limit : Nat) : Prop where
  limit_eq : t.limit = limit
  length_le : t.slots.length ≤ t.limit
  last : t.slots.getLast? ≠ some .free

theorem length_trim_le (l : List (Slot α)) : (trim l).length ≤ l.length := by
  induction l with
  | nil => exact Nat.le_refl _
  | cons slot rest ih =>
    simp only [trim]
    split
    · split <;> simp
    · next h => simpa using ih

theorem getLast?_trim (l : List (Slot α)) : (trim l).getLast? ≠ some .free := by
  induction l with
  | nil => simp [trim]
  | cons slot rest ih =>
    simp only [trim]
    split
    · cases slot <;> simp [Slot.isFree]
    · next h =>
      cases htrim : trim rest with
      | nil => exact absurd htrim h
      | cons next kept =>
        rw [htrim] at ih
        rwa [List.getLast?_cons_cons]

theorem trim_eq_self {l : List (Slot α)} (h : l.getLast? ≠ some .free) : trim l = l := by
  induction l with
  | nil => rfl
  | cons slot rest ih =>
    cases rest with
    | nil => cases slot <;> simp_all [trim, Slot.isFree]
    | cons next rest =>
      rw [List.getLast?_cons_cons] at h
      rw [trim, ih h]

/-- A free slot at the end makes no difference. -/
theorem trim_append_free (l : List (Slot α)) : trim (l ++ [.free]) = trim l := by
  induction l with
  | nil => rfl
  | cons slot rest ih => rw [List.cons_append, trim, trim, ih]

theorem getLast?_set_ne {l : List (Slot α)} (h : l.getLast? ≠ some .free) (i : Nat) {slot : Slot α}
    (hslot : slot ≠ .free) : (l.set i slot).getLast? ≠ some .free := by
  rw [List.getLast?_eq_getElem?, List.length_set, List.getElem?_set]
  split
  · split
    · simpa using hslot
    · simp
  · rwa [← List.getLast?_eq_getElem?]

namespace Neat

theorem empty (limit : Nat) : ({ limit } : ReservationTable α).Neat limit :=
  ⟨rfl, Nat.zero_le _, nofun⟩

variable {t t' : ReservationTable α} {limit : Nat} (h : t.Neat limit) {i : Nat} {value : α}

include h

/-- A slot that is there may be put to use. -/
theorem set (i : Nat) {slot : Slot α} (hslot : slot ≠ .free) :
    ({ t with slots := t.slots.set i slot } : ReservationTable α).Neat limit where
  limit_eq := h.limit_eq
  length_le := by
    rw [List.length_set]
    exact h.length_le
  last := getLast?_set_ne h.last i hslot

theorem reserve (hreserve : t.reserve = some (i, t')) : t'.Neat limit := by
  rw [ReservationTable.reserve] at hreserve
  split at hreserve
  · cases hreserve
    exact h.set _ nofun
  · split at hreserve
    · next hlt =>
      cases hreserve
      exact ⟨h.limit_eq, by rw [List.length_append]; exact hlt, by simp⟩
    · cases hreserve

/-- The number is one of the table's. -/
theorem lt_of_reserve (hreserve : t.reserve = some (i, t')) : i < limit := by
  rw [← h.limit_eq]
  rw [ReservationTable.reserve] at hreserve
  split at hreserve
  · next hfind =>
    cases hreserve
    obtain ⟨hlt, -⟩ := List.findIdx?_eq_some_iff_getElem.1 hfind
    exact Nat.lt_of_lt_of_le hlt h.length_le
  · split at hreserve
    · next hlt =>
      cases hreserve
      exact hlt
    · cases hreserve

/-- A number is reserved as long as one below the limit is free. -/
theorem reserve_eq_none_iff : t.reserve = none ↔ ∀ j < limit, t.slotAt j ≠ .free := by
  constructor
  · intro hnone
    rw [← h.limit_eq]
    exact slotAt_ne_free_of_reserve hnone
  · intro hused
    cases hreserve : t.reserve with
    | none => rfl
    | some reserved =>
      obtain ⟨i, t'⟩ := reserved
      exact absurd (slotAt_reserve hreserve).1 (hused i (h.lt_of_reserve hreserve))

/-- A number that was reserved and is freed again leaves the table as it was. -/
theorem release_reserve (hreserve : t.reserve = some (i, t')) : (t'.release i).2 = t := by
  rw [ReservationTable.reserve] at hreserve
  split at hreserve
  · next hfind =>
    cases hreserve
    obtain ⟨hlt, hfree, -⟩ := List.findIdx?_eq_some_iff_getElem.1 hfind
    rw [isFree_iff] at hfree
    have hsame : t.slots.set i .free = t.slots := by
      rw [← hfree]
      exact List.set_getElem_self hlt
    rw [ReservationTable.release, if_pos (by rwa [List.length_set]), List.set_set, hsame,
      trim_eq_self h.last]
  · split at hreserve
    · cases hreserve
      rw [ReservationTable.release, if_pos (by simp), List.set_append_right _ _ (Nat.le_refl _),
        Nat.sub_self, List.set_cons_zero, trim_append_free, trim_eq_self h.last]
    · cases hreserve

theorem fill (hfill : t.fill i value = .ok t') : t'.Neat limit := by
  rw [ReservationTable.fill] at hfill
  split at hfill
  · cases hfill
    exact h.set i nofun
  · cases hfill

theorem replace {old : Option α} (hreplace : t.replace i value = .ok (old, t')) :
    t'.Neat limit := by
  rw [ReservationTable.replace] at hreplace
  split at hreplace
  · cases hreplace
  · next hnot =>
    cases hreplace
    have hlt : i < t.limit := Nat.not_le.1 fun hle => hnot (.inl hle)
    have hlength := h.length_le
    refine ⟨h.limit_eq, ?_, ?_⟩
    · simp only [List.length_set, List.length_append, List.length_replicate]
      omega
    · by_cases hgrow : i < t.slots.length
      · rw [Nat.sub_eq_zero_of_le hgrow, List.replicate_zero, List.append_nil]
        exact getLast?_set_ne h.last _ nofun
      · rw [List.getLast?_eq_getElem?, List.getElem?_set]
        simp only [List.length_set, List.length_append, List.length_replicate]
        rw [if_pos (by omega), if_pos (by omega)]
        nofun

theorem release (i : Nat) : (t.release i).2.Neat limit := by
  rw [ReservationTable.release]
  split
  · refine ⟨h.limit_eq, Nat.le_trans (length_trim_le _) ?_, getLast?_trim _⟩
    rw [List.length_set]
    exact h.length_le
  · exact h

theorem drain : t.drain.2.Neat limit := ⟨h.limit_eq, Nat.zero_le _, nofun⟩

/-- The values are those bound to the numbers, in the order of the numbers. -/
theorem values_eq : t.values = (List.range limit).filterMap t.get? := by
  have hlength := h.length_le
  rw [h.limit_eq] at hlength
  exact filterMap_value?_eq t.slots hlength

/-- A number that is in use is one of the table's. -/
theorem lt_of_slotAt (hused : t.slotAt i ≠ .free) : i < limit := by
  have hlength := h.length_le
  rw [h.limit_eq] at hlength
  by_cases hi : i < t.slots.length
  · exact Nat.lt_of_lt_of_le hi hlength
  · rw [slotAt, List.getElem?_eq_none (Nat.not_lt.1 hi)] at hused
    exact absurd rfl hused

/-- Nothing is bound to a number past the limit. -/
theorem get?_of_le (hle : limit ≤ i) : t.get? i = none := by
  have hlength := h.length_le
  rw [h.limit_eq] at hlength
  simp [get?, List.getElem?_eq_none (Nat.le_trans hlength hle)]

end Neat

end ReservationTable

end VirtualFs
