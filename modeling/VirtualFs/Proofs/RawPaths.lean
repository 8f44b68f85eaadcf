/-
Raw paths: names followed down from the root of a volume through what the
directories list. No mount is crossed, no link is followed and no dot is
treated apart, so a raw path says where a node is, not how a task gets there.
Every node that names lead to has exactly one; the way back up is "..".
-/
import VirtualFs.Proofs.Forest
import VirtualFs.Proofs.Whereabouts

namespace VirtualFs

/-- Takes one step after another, so many of them. -/
def Query.repeated {α : Type} (step : α → Query α) : Nat → α → Query α
  | 0, a => pure a
  | k + 1, a => do repeated step k (← step a)

namespace World

/-- The node a directory lists under a name. -/
def child (w : World) (d : NodeId) (name : String) : Except Error NodeId :=
  if w.isDirectory d then ((w.children d).get? name).elim (.error .notFound) .ok
  else .error .notADirectory

/-- Follows names down from a node. -/
def descend (w : World) (n : NodeId) (names : List String) : Except Error NodeId :=
  names.foldlM w.child n

/-- Follows names down from the root of a volume. -/
def rawWalk (w : World) (v : VolumeKey) (path : List String) : Except Error NodeId :=
  w.descend (w.volume v).root path

variable {w : World} {n d c : NodeId} {v : VolumeKey} {name : String} {p q : List String}

/-! ## Walks in parts -/

theorem descend_cons (n : NodeId) (name : String) (q : List String) :
    w.descend n (name :: q) = (w.child n name).bind (w.descend · q) := List.foldlM_cons

theorem descend_append (n : NodeId) (p q : List String) :
    w.descend n (p ++ q) = (w.descend n p).bind (w.descend · q) := List.foldlM_append

theorem descend_concat (n : NodeId) (p : List String) (name : String) :
    w.descend n (p ++ [name]) = (w.descend n p).bind (w.child · name) := by
  rw [descend_append]
  congr 1
  funext d
  rw [descend_cons]
  cases w.child d name <;> rfl

theorem rawWalk_append (v : VolumeKey) (p q : List String) :
    w.rawWalk v (p ++ q) = (w.rawWalk v p).bind (w.descend · q) := descend_append _ p q

theorem rawWalk_append_of_ok (hp : w.rawWalk v p = .ok n) (q : List String) :
    w.rawWalk v (p ++ q) = w.descend n q := by
  rw [rawWalk_append, hp]
  rfl

theorem rawWalk_concat (v : VolumeKey) (p : List String) (name : String) :
    w.rawWalk v (p ++ [name]) = (w.rawWalk v p).bind (w.child · name) := descend_concat _ p name

theorem descend_concat_eq_ok :
    w.descend n (p ++ [name]) = .ok c ↔ ∃ d, w.descend n p = .ok d ∧ w.child d name = .ok c := by
  rw [descend_concat]
  cases w.descend n p <;> simp [Except.bind]

/-! ## What walks lead to -/

section

variable (h : w.WellFormed)

include h

theorem child_eq_ok : w.child d name = .ok c ↔ w.Entry d name c := by
  rw [child, Entry]
  split
  · cases (w.children d).get? name <;> simp
  · next hdir =>
    refine ⟨fun herror => ?_, fun hentry => absurd (h.isDirectory_of_entry hentry) hdir⟩
    cases herror

omit h in
/-- A directory that lists nothing under a name fails for the want of it. -/
theorem child_of_free (hdir : w.isDirectory d = true) (hfree : ∀ c, ¬w.Entry d name c) :
    w.child d name = .error .notFound := by
  rw [child, if_pos hdir, Option.eq_none_iff_forall_ne_some.2 hfree]
  rfl

/-- What names lead to from a node is below it. -/
theorem above_of_descend (hn : w.descend n q = .ok c) : w.Above n c := by
  induction q using List.reverseRecOn generalizing c with
  | nil => exact Except.ok.inj hn ▸ .refl
  | append_singleton q name ih =>
    obtain ⟨d, hd, hchild⟩ := descend_concat_eq_ok.1 hn
    exact .head (h.hangs_of_entry ((child_eq_ok h).1 hchild)) (ih hd)

/-- No node is above the directory it hangs in. -/
theorem not_above_of_hangs (hangs : w.Hangs n d) : ¬w.Above n d := by
  intro habove
  have hacc := h.linked.acc n (live_of_parent hangs.1)
  obtain ⟨i, hi⟩ := habove.exists_iterate
  have hstop : w.up n = n := up_eq_of_iterate_eq hacc (k := i) <| by
    rw [Function.iterate_succ_apply, up_eq_of_hangs hangs, hi]
  rw [up_eq_of_hangs hangs] at hstop
  subst hstop
  exact not_hangs_self hacc hangs

/-- Way up: what is above a node is the node itself or above the directory that lists it. -/
theorem above_entry_iff {a : NodeId} (hentry : w.Entry d name c) :
    w.Above a c ↔ a = c ∨ w.Above a d := by
  constructor
  · intro habove
    rcases habove.cases_head with heq | ⟨e, hangs, hup⟩
    · exact .inl heq.symm
    · obtain rfl : e = d := Option.some.inj (hangs.1.symm.trans (h.hangs_of_entry hentry).1)
      exact .inr hup
  · rintro (rfl | habove)
    · exact .refl
    · exact .head (h.hangs_of_entry hentry) habove

theorem live_of_descend (hlive : w.Live n) (hn : w.descend n q = .ok c) : w.Live c := by
  cases q using List.reverseRecOn with
  | nil => exact Except.ok.inj hn ▸ hlive
  | append_singleton q name =>
    obtain ⟨d, -, hchild⟩ := descend_concat_eq_ok.1 hn
    exact h.linked.live _ _ _ ((child_eq_ok h).1 hchild)

theorem rawWalk_entry (hp : w.rawWalk v p = .ok d) (hentry : w.Entry d name c) :
    w.rawWalk v (p ++ [name]) = .ok c :=
  descend_concat_eq_ok.2 ⟨d, hp, (child_eq_ok h).2 hentry⟩

/-- From what lists nothing names lead nowhere else. -/
theorem eq_of_descend_bare (hbare : ∀ a x, ¬w.Entry n a x) (hn : w.descend n q = .ok c) :
    n = c := by
  cases q with
  | nil => exact Except.ok.inj hn
  | cons a q =>
    rw [descend_cons] at hn
    cases hchild : w.child n a with
    | error e =>
      rw [hchild] at hn
      cases hn
    | ok x => exact absurd ((child_eq_ok h).1 hchild) (hbare a x)

/-- Names lead to the nodes that are attached. -/
theorem attached_iff_rawWalk :
    w.Attached n ↔ ∃ v p, w.volumes.has v = true ∧ w.rawWalk v p = .ok n := by
  constructor
  · intro hn
    induction hn with
    | @root v hv => exact ⟨v, [], hv, rfl⟩
    | @entry d name c _ hentry ih =>
      obtain ⟨v, p, hv, hp⟩ := ih
      exact ⟨v, p ++ [name], hv, rawWalk_entry h hp hentry⟩
  · rintro ⟨v, p, hv, hp⟩
    induction p using List.reverseRecOn generalizing n with
    | nil => exact Except.ok.inj hp ▸ .root hv
    | append_singleton p name ih =>
      obtain ⟨d, hd, hchild⟩ := descend_concat_eq_ok.1 hp
      exact (ih hd).entry ((child_eq_ok h).1 hchild)

/-- **A node has one raw path at most.** -/
theorem rawWalk_inj {u : VolumeKey} (hu : w.volumes.has u = true) (hv : w.volumes.has v = true)
    (hp : w.rawWalk u p = .ok n) (hq : w.rawWalk v q = .ok n) : u = v ∧ p = q := by
  induction p using List.reverseRecOn generalizing n q with
  | nil =>
    obtain rfl : (w.volume u).root = n := Except.ok.inj hp
    cases q using List.reverseRecOn with
    | nil =>
      have hroot : (w.volume v).root = (w.volume u).root := Except.ok.inj hq
      exact ⟨by rw [← h.rooted.volume u hu, ← hroot, h.rooted.volume v hv], rfl⟩
    | append_singleton q name =>
      obtain ⟨d, -, hchild⟩ := descend_concat_eq_ok.1 hq
      exact absurd ((child_eq_ok h).1 hchild) (h.not_entry_root hu)
  | append_singleton p name ih =>
    obtain ⟨d, hd, hchild⟩ := descend_concat_eq_ok.1 hp
    have hentry := (child_eq_ok h).1 hchild
    cases q using List.reverseRecOn with
    | nil =>
      obtain rfl : (w.volume v).root = n := Except.ok.inj hq
      exact absurd hentry (h.not_entry_root hv)
    | append_singleton q name' =>
      obtain ⟨d', hd', hchild'⟩ := descend_concat_eq_ok.1 hq
      obtain ⟨rfl, rfl⟩ := h.entry_unique hentry ((child_eq_ok h).1 hchild')
      obtain ⟨rfl, rfl⟩ := ih hd hd'
      exact ⟨rfl, rfl⟩

end

end World

/-! ## What the program does with one name -/

section

variable {w : World} (h : w.WellFormed) {n d c : NodeId}

include h

/-- Looking a name up in a directory is one step of a raw walk. -/
theorem RamFs.lookup_result (hd : w.Live d) {name : String} (hdot : name ≠ ".")
    (hdots : name ≠ "..") : (RamFs.lookup d name w).result = w.child d name := by
  rw [RamFs.lookup, if_neg hdot, if_neg hdots, Query.result_bind,
    RamFs.childrenOf_apply (h.ram d hd), World.child]
  split
  · exact Query.result_expect _ _ _
  · rfl

theorem RamFs.lookup_dots (hangs : w.Hangs n d) : (RamFs.lookup n ".." w).result = .ok d := by
  rw [RamFs.lookup, if_neg (by decide), if_pos rfl,
    RamFs.containerOf_result h (World.live_of_parent hangs.1), World.up_eq_of_hangs hangs]

/-- Within a volume the parent of a directory is the one that lists it. -/
theorem resolveIn_dots_plain (t : TaskId) (hdir : w.isDirectory n = true)
    (hangs : w.Hangs n d) : (resolveIn t n ".." .plain w).result = .ok d := by
  have hlive := World.live_of_isDirectory hdir
  have hroot : n ≠ (w.volume (w.node n).volume).root := by
    intro heq
    have hparent := h.rooted.parent _ (h.numbered.volume n hlive)
    rw [← heq, hangs.1] at hparent
    cases hparent
  rw [World.resolveIn_dots_seen h t .plain hlive,
    if_neg fun heq => hroot ((h.eq_rootNode_iff hlive).1 heq).1, World.foothold, if_neg hroot,
    Option.elim_some, if_pos hdir, World.up_eq_of_hangs hangs]
  rfl

/-- Going up as often as names led down leads back to where they started, if the step up works from
the last node and from every directory. -/
theorem repeated_up {up : NodeId → Query NodeId} {works : NodeId → Prop} {q : List String}
    (hdir : ∀ m, w.isDirectory m = true → works m)
    (hup : ∀ m e, works m → w.Hangs m e → (up m w).result = .ok e) (hc : works c)
    (hn : w.descend n q = .ok c) : (Query.repeated up q.length c w).result = .ok n := by
  induction q using List.reverseRecOn generalizing c with
  | nil => exact congrArg _ (Except.ok.inj hn).symm
  | append_singleton q name ih =>
    obtain ⟨d, hd, hchild⟩ := World.descend_concat_eq_ok.1 hn
    have hentry := (World.child_eq_ok h).1 hchild
    rw [List.length_append, List.length_singleton, Query.repeated]
    exact Query.result_bind_eq_ok.2
      ⟨d, hup c d hc (h.hangs_of_entry hentry), ih (hdir d (h.isDirectory_of_entry hentry)) hd⟩

end

end VirtualFs
