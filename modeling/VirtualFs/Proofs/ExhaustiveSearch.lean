/-
The search for a number below a directory, with nothing to bound how deep it
goes. The rules (`Combs`) take the entries of a directory one after the other:
an entry with the number ends the search, a directory is searched before the
next entry is looked at, and anything else is passed over. No way down comes
round to a node again, so the search ends, and `findIno`, which counts the
levels, finds what it finds.

A number is that of one node in a volume and a node has one entry, so what is
found is the one entry of the one node with the number.
-/
import VirtualFs.Proofs.NumberSearch

namespace VirtualFs

/-- Names lead down from a directory to a node that is not the directory itself. -/
def World.Below (w : World) (top n : NodeId) : Prop :=
  ∃ path, path ≠ [] ∧ w.descend top path = .ok n

namespace RamFs

/-- The search through entries of a directory for a number, and what it finds. -/
inductive Combs (w : World) (ino : Nat) :
    NodeId → List (String × NodeId) → Option (NodeId × String) → Prop where
  | nothing {d} : Combs w ino d [] none
  | here {d name child rest} :
      (w.node child).ino = ino → Combs w ino d ((name, child) :: rest) (some (d, name))
  | inside {d name child rest children found} :
      (w.node child).ino ≠ ino → w.isDirectory child = true →
      (childrenOf child w).result = .ok children → Combs w ino child children.entries (some found) →
      Combs w ino d ((name, child) :: rest) (some found)
  | notInside {d name child rest children found} :
      (w.node child).ino ≠ ino → w.isDirectory child = true →
      (childrenOf child w).result = .ok children → Combs w ino child children.entries none →
      Combs w ino d rest found → Combs w ino d ((name, child) :: rest) found
  | passed {d name child rest found} :
      (w.node child).ino ≠ ino → w.isDirectory child = false →
      Combs w ino d rest found → Combs w ino d ((name, child) :: rest) found

/-- The search of a whole directory, and what it finds. -/
def CombsAll (w : World) (ino : Nat) (d : NodeId) (found : Option (NodeId × String)) : Prop :=
  ∃ children, (childrenOf d w).result = .ok children ∧ Combs w ino d children.entries found

variable {w : World} {ino : Nat} {d : NodeId}

/-- A search comes to one end only. -/
theorem Combs.unique {entries : List (String × NodeId)} {found found' : Option (NodeId × String)}
    (hcombs : Combs w ino d entries found) (hcombs' : Combs w ino d entries found') :
    found' = found := by
  induction hcombs generalizing found' with
  | nothing =>
    cases hcombs'
    rfl
  | here hino =>
    cases hcombs' with
    | here => rfl
    | inside hne | notInside hne | passed hne => exact absurd hino hne
  | inside hne hdir hchildren _ ih =>
    cases hcombs' with
    | here hino => exact absurd hino hne
    | inside _ _ hchildren' hrest =>
      cases hchildren.symm.trans hchildren'
      exact ih hrest
    | notInside _ _ hchildren' hrest =>
      cases hchildren.symm.trans hchildren'
      cases ih hrest
    | passed _ hplain => cases hdir.symm.trans hplain
  | notInside hne hdir hchildren _ _ ih ihrest =>
    cases hcombs' with
    | here hino => exact absurd hino hne
    | inside _ _ hchildren' hrest =>
      cases hchildren.symm.trans hchildren'
      cases ih hrest
    | notInside _ _ _ _ hrest => exact ihrest hrest
    | passed _ hplain => cases hdir.symm.trans hplain
  | passed hne hplain _ ih =>
    cases hcombs' with
    | here hino => exact absurd hino hne
    | inside _ hdir | notInside _ hdir => cases hdir.symm.trans hplain
    | passed _ _ hrest => exact ih hrest

theorem CombsAll.unique {found found' : Option (NodeId × String)}
    (hcombs : CombsAll w ino d found) (hcombs' : CombsAll w ino d found') : found' = found := by
  obtain ⟨children, hchildren, hcombs⟩ := hcombs
  obtain ⟨children', hchildren', hcombs'⟩ := hcombs'
  obtain rfl := Except.ok.inj (hchildren'.symm.trans hchildren)
  exact hcombs.unique hcombs'

/-- Entries are searched as the rules say if the directories among them are. -/
theorem firstFound_combs (ino levels : Nat) (d : NodeId) {entries : List (String × NodeId)}
    (hbelow : ∀ listed ∈ entries, w.isDirectory listed.2 = true →
      ∃ found, (findInoWithin ino levels listed.2 w).result = .ok found ∧
        CombsAll w ino listed.2 found) :
    ∃ found, (firstFound (atEntry ino levels d) entries w).result = .ok found ∧
      Combs w ino d entries found := by
  induction entries with
  | nil => exact ⟨none, rfl, .nothing⟩
  | cons listed rest ih =>
    obtain ⟨name, child⟩ := listed
    obtain ⟨found, hfound, hcombs⟩ := ih fun e he => hbelow e (by simp [he])
    rw [firstFound, Query.result_bind, atEntry, Query.world_bind]
    by_cases hino : (w.node child).ino = ino
    · rw [if_pos hino]
      exact ⟨some (d, name), rfl, .here hino⟩
    rw [if_neg hino]
    cases hdir : w.isDirectory child with
    | false =>
      rw [if_neg (by simp)]
      exact ⟨found, hfound, .passed hino hdir hcombs⟩
    | true =>
      obtain ⟨inner, hinner, children, hchildren, hinside⟩ := hbelow (name, child) (by simp) hdir
      rw [if_pos rfl, hinner]
      cases inner with
      | some place => exact ⟨some place, rfl, .inside hino hdir hchildren hinside⟩
      | none => exact ⟨found, hfound, .notInside hino hdir hchildren hinside hcombs⟩

section

variable (h : w.WellFormed)

include h

/-- With more levels than there are on any way down, the search is that of the rules. The induction
is on the levels: what is listed has one fewer. -/
theorem findInoWithin_combs (ino levels : Nat) (hdir : w.isDirectory d = true)
    (hdeep : ∀ path n, w.descend d path = .ok n → path.length < levels) :
    ∃ found, (findInoWithin ino levels d w).result = .ok found ∧ CombsAll w ino d found := by
  induction levels generalizing d with
  | zero => exact absurd (hdeep [] d rfl) (Nat.not_lt_zero _)
  | succ levels ih =>
    have hbelow : ∀ listed ∈ (w.children d).entries, w.isDirectory listed.2 = true →
        ∃ found, (findInoWithin ino levels listed.2 w).result = .ok found ∧
          CombsAll w ino listed.2 found := by
      intro listed hlisted hchild
      refine ih hchild fun path n hpath => ?_
      have hentry : w.Entry d listed.1 listed.2 := NameMap.mem_entries.1 hlisted
      have hlonger := hdeep (listed.1 :: path) n
        ((World.descend_cons_eq_ok h).2 ⟨listed.2, hentry, hpath⟩)
      simpa using hlonger
    obtain ⟨found, hfound, hcombs⟩ := firstFound_combs ino levels d hbelow
    rw [findInoWithin_succ h ino levels hdir]
    exact ⟨found, hfound, w.children d, childrenOf_result h hdir, hcombs⟩

theorem findIno_combs (ino : Nat) (hdir : w.isDirectory d = true) :
    ∃ found, (findIno d ino w).result = .ok found ∧ CombsAll w ino d found := by
  rw [findIno, Query.look_bind]
  exact findInoWithin_combs h ino w.nodes.size hdir fun _ _ =>
    World.length_lt_of_descend h (World.live_of_isDirectory hdir)

end

end RamFs

/-! ## What is found -/

namespace World

variable {w : World} (h : w.WellFormed) {d e n : NodeId} {name : String}

include h

theorem below_iff : w.Below d n ↔ ∃ e name, w.ListsBelow d e name n := by
  constructor
  · rintro ⟨path, hne, hpath⟩
    cases path using List.reverseRecOn with
    | nil => exact absurd rfl hne
    | append_singleton front name =>
      obtain ⟨e, he, hchild⟩ := descend_concat_eq_ok.1 hpath
      exact ⟨e, name, front, he, (child_eq_ok h).1 hchild⟩
  · rintro ⟨e, name, front, he, hentry⟩
    exact ⟨front ++ [name], by simp, descend_concat_eq_ok.2 ⟨e, he, (child_eq_ok h).2 hentry⟩⟩

/-- A node is found where its one entry is. -/
theorem findsBelow_iff {ino : Nat} :
    w.FindsBelow ino d (e, name) ↔ ∃ n, w.Below d n ∧ (w.node n).ino = ino ∧
      ∀ e' name', w.Entry e' name' n ↔ e' = e ∧ name' = name := by
  constructor
  · rintro ⟨n, hlists, hino⟩
    obtain ⟨-, -, hentry⟩ := id hlists
    refine ⟨n, (below_iff h).2 ⟨e, name, hlists⟩, hino, fun e' name' => ⟨fun hentry' => ?_, ?_⟩⟩
    · exact h.entry_unique hentry' hentry
    · rintro ⟨rfl, rfl⟩
      exact hentry
  · rintro ⟨n, hbelow, hino, hentries⟩
    obtain ⟨e', name', path, hpath, hentry⟩ := (below_iff h).1 hbelow
    obtain ⟨rfl, rfl⟩ := (hentries e' name').1 hentry
    exact ⟨n, ⟨path, hpath, hentry⟩, hino⟩

end World

/-- **The search for a number ends and is exact.** In every reachable world the search below a
directory comes to an end, without an error and in one way only, and `findIno` finds what it finds.
That is nothing if no node below has the number. Else it is the one and only entry, of all that
there are, of the node with the number. -/
theorem number_search_exact {w : World} (hw : w.Reachable) {d : NodeId}
    (hd : w.isDirectory d = true) (ino : Nat) :
    ∃ found, (RamFs.findIno d ino w).result = .ok found ∧
      (∀ answer, RamFs.CombsAll w ino d answer ↔ answer = found) ∧
      (found = none ↔ ∀ n, w.Below d n → (w.node n).ino ≠ ino) ∧
      ∀ e name, found = some (e, name) ↔ ∃ n, w.Below d n ∧ (w.node n).ino = ino ∧
        ∀ e' name', w.Entry e' name' n ↔ e' = e ∧ name' = name := by
  have h := hw.wellFormed
  obtain ⟨found, hresult, hcombs⟩ := RamFs.findIno_combs h ino hd
  obtain ⟨found', hresult', -, hlacks⟩ := RamFs.findIno_searches h ino hd
  obtain rfl : found' = found := Except.ok.inj (hresult'.symm.trans hresult)
  have hfinds : ∀ place, found' = some place ↔ w.FindsBelow ino d place := by
    intro place
    rw [← RamFs.findIno_result h ino (World.live_of_isDirectory hd), hresult, Except.ok.injEq]
  refine ⟨found', hresult, fun answer => ⟨hcombs.unique, ?_⟩, ⟨?_, ?_⟩, fun e name => ?_⟩
  · rintro rfl
    exact hcombs
  · intro hnone n hbelow
    obtain ⟨e, name, hlists⟩ := (World.below_iff h).1 hbelow
    exact hlacks hnone e name n hlists
  · intro hnone
    refine Option.eq_none_iff_forall_ne_some.2 fun place hplace => ?_
    obtain ⟨n, hlists, hino⟩ := (hfinds place).1 hplace
    exact hnone n ((World.below_iff h).2 ⟨_, _, hlists⟩) hino
  · rw [hfinds, World.findsBelow_iff h]

/-- From the root of everything a directory two levels down is found by its number. The root's own
number is that of the mounted root as well, and neither is listed anywhere. -/
theorem number_search_exact_of_nested :
    let w := World.nested
    (w.Reachable ∧ w.isDirectory 0 = true) ∧
    (RamFs.CombsAll w 4 0 (some (2, "b")) ∧ ∃ n, w.Below 0 n ∧ (w.node n).ino = 4 ∧
      ∀ e name, w.Entry e name n ↔ e = 2 ∧ name = "b") ∧
    RamFs.CombsAll w 1 0 none ∧ (w.node 0).ino = 1 ∧ ∀ n, w.Below 0 n → (w.node n).ino ≠ 1 := by
  intro w
  have hw : w.Reachable := ⟨_, World.steps_runAll _ _⟩
  have hdir : w.isDirectory 0 = true := by decide +kernel
  have hfour : (RamFs.findIno 0 4 w).result = .ok (some (2, "b")) := by decide +kernel
  have hone : (RamFs.findIno 0 1 w).result = .ok none := by decide +kernel
  obtain ⟨found, hresult, hsearch, -, hplaces⟩ := number_search_exact hw hdir 4
  obtain ⟨found', hresult', hsearch', hnone, -⟩ := number_search_exact hw hdir 1
  obtain rfl : found = some (2, "b") := Except.ok.inj (hresult.symm.trans hfour)
  obtain rfl : found' = none := Except.ok.inj (hresult'.symm.trans hone)
  exact ⟨⟨hw, hdir⟩, ⟨(hsearch _).2 rfl, (hplaces 2 "b").1 rfl⟩, (hsearch' none).2 rfl,
    by decide +kernel, hnone.1 rfl⟩

end VirtualFs
