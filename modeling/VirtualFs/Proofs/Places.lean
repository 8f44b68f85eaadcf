/-
Places in a listing. A directory is listed as itself, its parent and then its
children in the order of their names, so a child stands behind as many others as
have smaller names. An open directory returns what stands at its number and goes
on to the next; it does not know what it returned before.
-/
import VirtualFs.Proofs.Readers

namespace VirtualFs

open VirtualFs.Action (ended_bind ended_query_bind ended_when)

/-! ## Names in their order -/

namespace NameMap

variable {α β : Type} {m : NameMap α} {name : String}

/-- A map is its entries. -/
theorem eq_of_entries {m m' : NameMap α} (h : m.entries = m'.entries) : m = m' := by
  cases m
  cases m'
  cases h
  rfl

instance [DecidableEq α] : DecidableEq (NameMap α) := fun m m' =>
  decidable_of_iff (m.entries = m'.entries) ⟨eq_of_entries, congrArg entries⟩

/-- How many names are smaller than one. -/
def below (m : NameMap α) (name : String) : Nat := m.names.countP (· < name)

theorem mem_names : name ∈ m.names ↔ m.contains name = true := by
  rw [names, List.mem_map, contains, Option.isSome_iff_exists]
  constructor
  · intro hmem
    obtain ⟨⟨_, value⟩, hmem, rfl⟩ := hmem
    exact ⟨value, mem_entries.1 hmem⟩
  · intro hfound
    obtain ⟨value, hvalue⟩ := hfound
    exact ⟨(name, value), mem_entries.2 hvalue, rfl⟩

theorem sorted_names (m : NameMap α) : m.names.Pairwise (· < ·) := List.pairwise_map.2 m.sorted

/-- In a list that rises, a name stands behind those that are smaller, and nowhere else. -/
theorem getElem?_eq_some_of_sorted {names : List String} (h : names.Pairwise (· < ·)) (i : Nat) :
    names[i]? = some name ↔ name ∈ names ∧ i = names.countP (· < name) := by
  induction names generalizing i with
  | nil => simp
  | cons first rest ih =>
    obtain ⟨hfirst, hrest⟩ := List.pairwise_cons.1 h
    rw [List.countP_cons, List.mem_cons]
    by_cases hlt : first < name
    · have hne : first ≠ name := String.ne_of_lt hlt
      cases i with
      | zero => simp [hlt, hne]
      | succ i => simp [ih hrest, hlt, hne.symm]
    · -- No name of the rest is smaller, nor is it the name itself.
      have hle : name ≤ first := String.not_lt.1 hlt
      have hrises : ∀ other ∈ rest, ¬other < name ∧ other ≠ name := fun other hmem =>
        ⟨fun hless => hlt (String.lt_trans (hfirst other hmem) hless),
          fun heq => hlt (heq ▸ hfirst other hmem)⟩
      have hnone : rest.countP (· < name) = 0 :=
        List.countP_eq_zero.2 fun other hmem => by simpa using (hrises other hmem).1
      have hnot : name ∉ rest := fun hmem => (hrises name hmem).2 rfl
      simp only [hnone, hnot, hlt, decide_false, Bool.false_eq_true, if_false, Nat.add_zero,
        or_false]
      cases i with
      | zero => simp only [List.getElem?_cons_zero, Option.some.injEq, and_true, eq_comm]
      | succ i => simp only [List.getElem?_cons_succ, ih hrest, hnot, false_and,
          Nat.add_one_ne_zero, and_false]

theorem getElem?_names (hname : m.contains name = true) (i : Nat) :
    m.names[i]? = some name ↔ i = m.below name :=
  (getElem?_eq_some_of_sorted m.sorted_names i).trans (and_iff_right (mem_names.2 hname))

/-- What has every smaller name has no fewer of them. -/
theorem below_le {m' : NameMap β}
    (h : ∀ other < name, m.contains other = true → m'.contains other = true) :
    m.below name ≤ m'.below name := by
  rw [below, below, List.countP_eq_length_filter, List.countP_eq_length_filter]
  refine (List.subperm_of_subset ?_ fun other hmem => ?_).length_le
  · exact List.Pairwise.filter _ (m.sorted_names.imp String.ne_of_lt)
  · rw [List.mem_filter, decide_eq_true_eq] at hmem ⊢
    exact ⟨mem_names.2 (h other hmem.2 (mem_names.1 hmem.1)), hmem.2⟩

end NameMap

/-! ## Listings -/

namespace World

variable {w w' : World} {d : NodeId} {name : String}

/-- The names that a directory is listed with, in the order they are read. -/
def listing (w : World) (d : NodeId) : List String := "." :: ".." :: (w.children d).names

/-- Where a child stands in the listing, by its name. -/
def place (w : World) (d : NodeId) (name : String) : Nat := (w.children d).below name + 2

/-- Whether a directory lists a name. -/
def Lists (w : World) (d : NodeId) (name : String) : Prop := (w.children d).contains name = true

instance : Decidable (w.Lists d name) := inferInstanceAs (Decidable (_ = true))

theorem lists_iff : w.Lists d name ↔ ∃ c, w.Entry d name c := Option.isSome_iff_exists

theorem Lists.isDirectory (h : w.Lists d name) (hw : w.WellFormed) : w.isDirectory d = true := by
  obtain ⟨c, hentry⟩ := lists_iff.1 h
  exact hw.isDirectory_of_entry hentry

/-- A child stands at its place and nowhere else. -/
theorem getElem?_listing (hw : w.WellFormed) (hname : w.Lists d name) (i : Nat) :
    (w.listing d)[i]? = some name ↔ i = w.place d name := by
  obtain ⟨c, hentry⟩ := lists_iff.1 hname
  have hproper := hw.linked.name d name c hentry
  rw [listing, place]
  match i with
  | 0 => simp [hproper.ne_dot.symm]
  | 1 => simp [hproper.ne_dots.symm]
  | i + 2 =>
    simp only [List.getElem?_cons_succ, NameMap.getElem?_names hname]
    omega

/-- What is past the end of a listing is past every child. -/
theorem place_lt_of_end (hw : w.WellFormed) (hname : w.Lists d name) {i : Nat}
    (hend : (w.listing d)[i]? = none) : w.place d name < i := by
  have hplace : w.place d name < (w.listing d).length :=
    (List.getElem?_eq_some_iff.1 ((getElem?_listing hw hname _).2 rfl)).1
  exact Nat.lt_of_lt_of_le hplace (List.getElem?_eq_none_iff.1 hend)

/-- A child moves back only where a smaller name goes, and forth only where one comes. -/
theorem place_le (h : ∀ other < name, w.Lists d other → w'.Lists d other) :
    w.place d name ≤ w'.place d name :=
  Nat.add_le_add_right (NameMap.below_le h) 2

theorem exists_of_place_lt (h : w'.place d name < w.place d name) :
    ∃ other < name, w.Lists d other ∧ ¬w'.Lists d other := by
  by_contra hkept
  simp only [not_exists, not_and, not_not] at hkept
  exact Nat.not_lt.2 (place_le hkept) h

end World

/-! ## Reading -/

namespace RamFs

variable {w : World} {d : NodeId}

theorem nthEntry_result (hram : (w.node d).IsRam) (hdir : w.isDirectory d = true) (index : Nat) :
    ∃ entry, (nthEntry d index w).result = .ok entry ∧
      entry.map DirEntry.name = (w.listing d)[index]? := by
  match index with
  | 0 => exact ⟨_, rfl, rfl⟩
  | 1 =>
    refine ⟨some (entryFor w (w.node d).volumeId ".." (w.up d)), ?_, rfl⟩
    exact Query.result_bind_eq_ok.2 ⟨w, rfl, Query.result_bind_eq_ok.2
      ⟨w.up d, by rw [containerOf_apply hram], rfl⟩⟩
  | index + 2 =>
    refine ⟨_, Query.result_bind_eq_ok.2 ⟨w, rfl, Query.result_bind_eq_ok.2
      ⟨w.children d, by rw [childrenOf_apply hram, if_pos hdir], rfl⟩⟩, ?_⟩
    rw [Option.map_map, World.listing, List.getElem?_cons_succ, List.getElem?_cons_succ,
      NameMap.names, List.getElem?_map]
    rfl

end RamFs

namespace World

variable {w : World} {f : FileId} {r : Reader}

theorem file_of_reader? (h : w.reader? f = some r) :
    (w.file f).node = r.dir ∧ (w.file f).kind = .directory r.next := by
  obtain ⟨file, hfile, hreads⟩ := reader?_eq_some.1 h
  rw [World.file, hfile]
  exact hreads

theorem reader?_setCursor (h : w.reader? f = some r) (cursor : OpenFile → Nat) :
    (w.setFile f fun file => file.setCursor (cursor file)).reader? f =
      some { r with next := cursor (w.file f) } := by
  obtain ⟨file, hfile, hnode, hkind⟩ := reader?_eq_some.1 h
  refine reader?_eq_some.2
    ⟨{ file with kind := .directory (cursor (w.file f)) }, ?_, hnode, rfl⟩
  rw [setFile, Arena.get?_modify, if_pos rfl, hfile, Option.map_some, OpenFile.setCursor, hkind,
    World.file, hfile, Option.getD_some]

theorem reader?_advance (h : w.reader? f = some r) :
    (w.setFile f fun file => file.setCursor (file.cursor + 1)).reader? f =
      some { r with next := r.next + 1 } := by
  rw [reader?_setCursor h fun file => file.cursor + 1, OpenFile.cursor, (file_of_reader? h).2]

end World

section

variable {w : World} {t : TaskId} {h : Handle} {f : FileId} {r : Reader}

theorem result_directoryOf (hw : w.WellFormed) (hf : (fileOf t h w).result = .ok f)
    (hr : w.reader? f = some r) (hdir : w.isDirectory r.dir = true) :
    (directoryOf t h w).result = .ok (f, w.file f, .ram) := by
  obtain ⟨hnode, hkind⟩ := World.file_of_reader? hr
  refine Query.result_bind_eq_ok.2 ⟨f, hf, Query.result_bind_eq_ok.2 ⟨w.file f, rfl,
    Query.result_bind_eq_ok.2 ⟨(), ?_, Query.result_bind_eq_ok.2 ⟨.ram, ?_, rfl⟩⟩⟩⟩
  · rw [Query.result_demand_eq_ok, OpenFile.isDirectory, hkind]
  · rw [hnode, World.opsOf_eq_ok]
    exact (hw.ram _ (World.live_of_isDirectory hdir)).ops_of_isDirectory hdir

/-- What is read off an open directory is the entry with its number. -/
theorem nextEntry_reads (hw : w.WellFormed) (hf : (fileOf t h w).result = .ok f)
    (hr : w.reader? f = some r) (hdir : w.isDirectory r.dir = true) {entry : Option DirEntry}
    (hentry : (RamFs.nthEntry r.dir r.next w).result = .ok entry) :
    (nextEntry t h).ended w = (.ok entry,
      if entry.isSome then w.setFile f fun file => file.setCursor (file.cursor + 1) else w) := by
  have hlive := World.live_of_isDirectory hdir
  obtain ⟨hnode, hkind⟩ := World.file_of_reader? hr
  have hcursor : (w.file f).cursor = r.next := by rw [OpenFile.cursor, hkind]
  have hvolume : (volumeOf (w.file f).node w).result = .ok (w.node r.dir).volume := by
    rw [hnode, hw.volumeOf_result hlive]
  have hread : (OpsKind.entry .ram (w.node r.dir).volume (w.file f).node (w.file f).cursor
      w).result = .ok entry := by
    rw [hnode, hcursor]
    exact hentry
  rw [nextEntry, ended_query_bind (result_directoryOf hw hf hr hdir), ended_query_bind hvolume,
    ended_query_bind hread, ended_bind, ended_when]
  cases entry <;> rfl

/-- **An open directory returns the name that stands at its number, and goes on to the next.** -/
theorem nextEntry_ended (hw : w.WellFormed) (hf : (fileOf t h w).result = .ok f)
    (hr : w.reader? f = some r) (hdir : w.isDirectory r.dir = true) :
    ∃ entry, entry.map DirEntry.name = (w.listing r.dir)[r.next]? ∧
      (nextEntry t h).ended w = (.ok entry,
        if entry.isSome then w.setFile f fun file => file.setCursor (file.cursor + 1) else w) := by
  have hlive := World.live_of_isDirectory hdir
  obtain ⟨entry, hentry, hname⟩ := RamFs.nthEntry_result (hw.ram _ hlive) hdir r.next
  exact ⟨entry, hname, nextEntry_reads hw hf hr hdir hentry⟩

end

end VirtualFs
