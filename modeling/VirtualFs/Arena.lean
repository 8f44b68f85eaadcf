/-
Stores that give each thing a key of its own. Keys count up and are never
given twice, so a key that outlives its thing finds nothing: it is a
reference that does not keep what it refers to.
-/

namespace VirtualFs

/-- Things by key; a removed thing leaves an empty cell. -/
structure Arena (α : Type) where
  cells : Array (Option α) := #[]

namespace Arena

variable {α : Type}

instance : Inhabited (Arena α) := ⟨{}⟩

/-- How many keys were ever given. -/
def size (a : Arena α) : Nat := a.cells.size

/-- The thing a key stands for, while it is there. -/
def get? (a : Arena α) (key : Nat) : Option α := a.cells.getD key none

/-- A key whose thing is still there. -/
def has (a : Arena α) (key : Nat) : Bool := (a.get? key).isSome

/-- The key the next thing gets. -/
def nextKey (a : Arena α) : Nat := a.cells.size

/-- The store with a thing added under `nextKey`. -/
def push (a : Arena α) (thing : α) : Arena α := ⟨a.cells.push (some thing)⟩

/-- The store with one thing changed; nothing happens if it is not there. -/
def modify (a : Arena α) (key : Nat) (f : α → α) : Arena α :=
  ⟨a.cells.modify key (Option.map f)⟩

/-- The store without one thing. -/
def remove (a : Arena α) (key : Nat) : Arena α := ⟨a.cells.setIfInBounds key none⟩

/-- The things that are there. -/
def toList (a : Arena α) : List α := a.cells.toList.filterMap id

/-- The store reduced to the keys that pass. -/
def keep (a : Arena α) (p : Nat → Bool) : Arena α :=
  ⟨a.cells.mapIdx fun key cell => if p key then cell else none⟩

theorem get?_push (a : Arena α) (thing : α) (key : Nat) :
    (a.push thing).get? key = if key = a.nextKey then some thing else a.get? key := by
  simp only [get?, push, nextKey, Array.getD_eq_getD_getElem?, Array.getElem?_push]
  split <;> simp

theorem get?_modify (a : Arena α) (f : α → α) (key other : Nat) :
    (a.modify key f).get? other = if key = other then (a.get? other).map f else a.get? other := by
  simp only [get?, modify, Array.getD_eq_getD_getElem?, Array.getElem?_modify]
  split
  · cases h : a.cells[other]? <;> simp
  · rfl

/-- What is there after a change was there before it, and is changed or is not. -/
theorem exists_get?_of_modify {a : Arena α} {f : α → α} {key other : Nat} {thing' : α}
    (h : (a.modify key f).get? other = some thing') :
    ∃ thing, a.get? other = some thing ∧ (thing' = thing ∨ thing' = f thing) := by
  rw [get?_modify] at h
  split at h
  · obtain ⟨thing, hthing, rfl⟩ := Option.map_eq_some_iff.1 h
    exact ⟨thing, hthing, .inr rfl⟩
  · exact ⟨thing', h, .inl rfl⟩

/-- Changes to different things come in any order. -/
theorem modify_comm (a : Arena α) {key other : Nat} (h : key ≠ other) (f g : α → α) :
    (a.modify key f).modify other g = (a.modify other g).modify key f := by
  simp only [modify, mk.injEq]
  refine Array.ext (by simp) fun i hi hi' => ?_
  simp only [Array.getElem_modify]
  by_cases hkey : key = i
  · subst hkey
    simp [Ne.symm h]
  · simp [hkey]

theorem get?_remove (a : Arena α) (key other : Nat) :
    (a.remove key).get? other = if key = other then none else a.get? other := by
  simp only [get?, remove, Array.getD_eq_getD_getElem?, Array.getElem?_setIfInBounds]
  split
  · next h => subst h; split <;> simp
  · rfl

/-- What is left was there. -/
theorem get?_of_remove {a : Arena α} {key other : Nat} {thing : α}
    (h : (a.remove key).get? other = some thing) : a.get? other = some thing := by
  rw [get?_remove] at h
  split at h
  · cases h
  · exact h

theorem get?_keep (a : Arena α) (p : Nat → Bool) (key : Nat) :
    (a.keep p).get? key = if p key then a.get? key else none := by
  simp only [get?, keep, Array.getD_eq_getD_getElem?, Array.getElem?_mapIdx]
  cases h : a.cells[key]? <;> simp

theorem get?_of_keep {a : Arena α} {p : Nat → Bool} {key : Nat} {thing : α}
    (h : (a.keep p).get? key = some thing) : a.get? key = some thing := by
  rw [get?_keep] at h
  split at h
  · exact h
  · cases h

theorem has_iff {a : Arena α} {key : Nat} : a.has key = true ↔ ∃ thing, a.get? key = some thing :=
  Option.isSome_iff_exists

/-- Only keys that were given find a thing. -/
theorem lt_nextKey_of_has {a : Arena α} {key : Nat} (h : a.has key = true) : key < a.nextKey := by
  obtain ⟨thing, hthing⟩ := has_iff.1 h
  refine Nat.lt_of_not_le fun hge => ?_
  rw [get?, Array.getD_eq_getD_getElem?, Array.getElem?_eq_none hge] at hthing
  cases hthing

@[simp] theorem nextKey_push (a : Arena α) (thing : α) :
    (a.push thing).nextKey = a.nextKey + 1 := by
  simp [push, nextKey]

@[simp] theorem nextKey_modify (a : Arena α) (key : Nat) (f : α → α) :
    (a.modify key f).nextKey = a.nextKey := by
  simp [modify, nextKey]

@[simp] theorem nextKey_keep (a : Arena α) (p : Nat → Bool) : (a.keep p).nextKey = a.nextKey := by
  simp [keep, nextKey]

@[simp] theorem nextKey_remove (a : Arena α) (key : Nat) : (a.remove key).nextKey = a.nextKey := by
  simp [remove, nextKey]

theorem mem_toList {a : Arena α} {thing : α} :
    thing ∈ a.toList ↔ ∃ key, a.get? key = some thing := by
  simp only [toList, List.mem_filterMap, id, get?, Array.getD_eq_getD_getElem?,
    Array.mem_toList_iff]
  constructor
  · intro hfound
    obtain ⟨_, hmem, rfl⟩ := hfound
    obtain ⟨key, hkey⟩ := Array.mem_iff_getElem?.1 hmem
    exact ⟨key, by rw [hkey]; rfl⟩
  · intro hfound
    obtain ⟨key, hkey⟩ := hfound
    refine ⟨_, ?_, rfl⟩
    cases hcell : a.cells[key]? with
    | none => rw [hcell] at hkey; cases hkey
    | some cell =>
      rw [hcell] at hkey
      obtain rfl : cell = some thing := hkey
      exact Array.mem_iff_getElem?.2 ⟨key, hcell⟩

end Arena

end VirtualFs
