/-
Maps from names, kept in the order of the names. That order is the order of
code points, which is also the order of the encoded bytes, and it is part of
the type: a map has one form (`sorted`). A map is known by what its names are
bound to, and `get?_insert` and `get?_erase` say how that changes.
-/

namespace VirtualFs

/-- Entries in rising order of their names. -/
structure NameMap (α : Type) where
  entries : List (String × α) := []
  sorted : entries.Pairwise (fun a b => a.1 < b.1) := by exact List.Pairwise.nil

namespace NameMap

variable {α : Type}

instance : Inhabited (NameMap α) := ⟨{}⟩

/-- The map without entries. -/
def empty : NameMap α := {}

def size (m : NameMap α) : Nat := m.entries.length

def get? (m : NameMap α) (name : String) : Option α := m.entries.lookup name

def contains (m : NameMap α) (name : String) : Bool := (m.get? name).isSome

def isEmpty (m : NameMap α) : Bool := m.entries.isEmpty

def names (m : NameMap α) : List String := m.entries.map Prod.fst

def values (m : NameMap α) : List α := m.entries.map Prod.snd

/-- The entries with one put at its place. -/
def insertEntry (name : String) (value : α) : List (String × α) → List (String × α)
  | [] => [(name, value)]
  | entry :: rest =>
    if name < entry.1 then (name, value) :: entry :: rest
    else if entry.1 < name then entry :: insertEntry name value rest
    else (name, value) :: rest

theorem mem_insertEntry {name : String} {value : α} {l : List (String × α)} {e : String × α}
    (h : e ∈ insertEntry name value l) : e = (name, value) ∨ e ∈ l := by
  induction l with
  | nil => simpa [insertEntry] using h
  | cons entry rest ih =>
    simp only [insertEntry] at h
    split at h
    · simpa using h
    split at h
    · rcases List.mem_cons.1 h with rfl | h
      · exact .inr (by simp)
      · rcases ih h with h | h
        · exact .inl h
        · exact .inr (by simp [h])
    · rcases List.mem_cons.1 h with rfl | h
      · exact .inl rfl
      · exact .inr (by simp [h])

theorem sorted_insertEntry {name : String} {value : α} {l : List (String × α)}
    (h : l.Pairwise fun a b => a.1 < b.1) :
    (insertEntry name value l).Pairwise fun a b => a.1 < b.1 := by
  induction l with
  | nil => simp [insertEntry]
  | cons entry rest ih =>
    obtain ⟨hentry, hrest⟩ := List.pairwise_cons.1 h
    simp only [insertEntry]
    split
    · next hlt =>
      refine List.pairwise_cons.2 ⟨fun b hb => ?_, h⟩
      rcases List.mem_cons.1 hb with rfl | hb
      · exact hlt
      · exact String.lt_trans hlt (hentry b hb)
    split
    · next hgt =>
      refine List.pairwise_cons.2 ⟨fun b hb => ?_, ih hrest⟩
      rcases mem_insertEntry hb with rfl | hb
      · exact hgt
      · exact hentry b hb
    · next hlt hgt =>
      have heq : name = entry.1 := String.le_antisymm (String.not_lt.1 hgt) (String.not_lt.1 hlt)
      exact List.pairwise_cons.2 ⟨fun b hb => heq ▸ hentry b hb, hrest⟩

/-- The map with `name` bound to `value`. -/
def insert (m : NameMap α) (name : String) (value : α) : NameMap α where
  entries := insertEntry name value m.entries
  sorted := sorted_insertEntry m.sorted

/-- The map without `name`. -/
def erase (m : NameMap α) (name : String) : NameMap α where
  entries := m.entries.filter fun entry => entry.1 != name
  sorted := m.sorted.filter _

/-- The entries put in one after the other; of two with one name the later stays. -/
def ofList (entries : List (String × α)) : NameMap α :=
  entries.foldl (fun m entry => m.insert entry.1 entry.2) empty

theorem lookup_cons_eq (name other : String) (value : α) (l : List (String × α)) :
    ((name, value) :: l).lookup other = if other = name then some value else l.lookup other := by
  by_cases h : other = name
  · subst h; simp
  · simp [List.lookup_cons, h, beq_false_of_ne h]

theorem lookup_insertEntry (name other : String) (value : α) (l : List (String × α)) :
    (insertEntry name value l).lookup other =
      if other = name then some value else l.lookup other := by
  induction l with
  | nil => exact lookup_cons_eq name other value []
  | cons entry rest ih =>
    obtain ⟨first, kept⟩ := entry
    simp only [insertEntry]
    split
    · exact lookup_cons_eq name other value _
    split
    · next hgt =>
      have hne : first ≠ name := String.ne_of_lt hgt
      simp only [lookup_cons_eq, ih]
      by_cases h : other = first
      · simp [h, hne]
      · simp [h]
    · next hlt hgt =>
      have heq : name = first := String.le_antisymm (String.not_lt.1 hgt) (String.not_lt.1 hlt)
      subst heq
      by_cases h : other = name <;> simp [lookup_cons_eq, h]

@[simp] theorem get?_empty (name : String) : (empty : NameMap α).get? name = none := rfl

theorem get?_insert (m : NameMap α) (name other : String) (value : α) :
    (m.insert name value).get? other = if other = name then some value else m.get? other :=
  lookup_insertEntry name other value m.entries

theorem lookup_filter_ne (name other : String) (l : List (String × α)) :
    (l.filter fun entry => entry.1 != name).lookup other =
      if other = name then none else l.lookup other := by
  induction l with
  | nil => simp
  | cons entry rest ih =>
    obtain ⟨first, kept⟩ := entry
    by_cases h : first = name
    · subst h
      rw [List.filter_cons_of_neg (by simp), ih, lookup_cons_eq]
      by_cases ho : other = first <;> simp [ho]
    · rw [List.filter_cons_of_pos (by simpa using h), lookup_cons_eq, lookup_cons_eq, ih]
      by_cases ho : other = first
      · simp [ho, h]
      · simp [ho]

theorem get?_erase (m : NameMap α) (name other : String) :
    (m.erase name).get? other = if other = name then none else m.get? other :=
  lookup_filter_ne name other m.entries

/-- The entries are the names with what they are bound to: no name occurs twice. -/
theorem mem_entries {m : NameMap α} {name : String} {value : α} :
    (name, value) ∈ m.entries ↔ m.get? name = some value := by
  obtain ⟨l, hl⟩ := m
  simp only [get?]
  induction l with
  | nil => simp
  | cons entry rest ih =>
    obtain ⟨first, kept⟩ := entry
    obtain ⟨hentry, hrest⟩ := List.pairwise_cons.1 hl
    rw [List.mem_cons, lookup_cons_eq, ih hrest]
    by_cases h : name = first
    · subst h
      have hnot : rest.lookup name ≠ some value := fun hv =>
        String.lt_irrefl _ (hentry (name, value) ((ih hrest).2 hv))
      simp [hnot, eq_comm]
    · simp [h]

theorem mem_values {m : NameMap α} {name : String} {value : α} (h : m.get? name = some value) :
    value ∈ m.values :=
  List.mem_map.2 ⟨(name, value), mem_entries.2 h, rfl⟩

end NameMap

end VirtualFs
