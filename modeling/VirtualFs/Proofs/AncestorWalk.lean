/-
The walk up from a node in search of an ancestor. The rules for it (`Ascends`)
count no steps: it goes on until it meets the ancestor or a node that is its
own container. In a reachable world no way up goes round in a circle, whatever
was moved or removed while somebody held it, so the walk ends from every node
that is there, and `isAbove`, which counts, answers as it ends.

What is above a node need not lead down to it: a directory that was removed
still hangs in the one that listed it. From an attached node the way up and
the ways down agree.
-/
import VirtualFs.Proofs.RawPaths

namespace VirtualFs

/-! ## The way up -/

namespace World

variable {w : World} {a n : NodeId}

/-- What is above a node is the node itself or what is above one step up. -/
theorem above_iff_up : w.Above a n ↔ n = a ∨ w.Above a (w.up n) := by
  constructor
  · intro habove
    rcases habove.cases_head with heq | ⟨d, hangs, hrest⟩
    · exact .inl heq
    · rw [up_eq_of_hangs hangs]
      exact .inr hrest
  · rintro (rfl | habove)
    · exact .refl
    · rcases w.hangs_or_up_eq n with hangs | ⟨hself, -⟩
      · exact .head hangs habove
      · rwa [hself] at habove

theorem eq_of_above_of_up_eq (hself : w.up n = n) (habove : w.Above a n) : n = a := by
  obtain ⟨i, hi⟩ := habove.exists_iterate
  rwa [iterate_up_of_up_eq hself] at hi

/-- Names lead down to an attached node from every node above it. -/
theorem descend_of_above (h : w.WellFormed) (hn : w.Attached n) (habove : w.Above a n) :
    ∃ path, w.descend a path = .ok n := by
  induction habove using Relation.ReflTransGen.head_induction_on with
  | refl => exact ⟨[], rfl⟩
  | head hangs _ ih =>
    obtain ⟨hd, name, hentry⟩ := hn.listed h hangs.1
    obtain ⟨path, hpath⟩ := ih hd
    exact ⟨path ++ [name], descend_concat_eq_ok.2 ⟨_, hpath, (child_eq_ok h).2 hentry⟩⟩

end World

/-! ## The walk -/

namespace RamFs

/-- The walk up from a node to an ancestor, and how it ends. -/
inductive Ascends (w : World) (ancestor : NodeId) : NodeId → Bool → Prop where
  | met : Ascends w ancestor ancestor true
  /-- The node is its own container, so there is no way further up. -/
  | ended {n} : n ≠ ancestor → (containerOf n w).result = .ok n → Ascends w ancestor n false
  | step {n parent above} :
      n ≠ ancestor → (containerOf n w).result = .ok parent → parent ≠ n →
      Ascends w ancestor parent above → Ascends w ancestor n above

variable {w : World} (h : w.WellFormed) {a n : NodeId}

include h

/-- The walk ends. The induction is on the way up, which comes to an end. -/
theorem exists_ascends (a : NodeId) (hn : w.Live n) : ∃ above, Ascends w a n above := by
  induction h.linked.acc n hn with
  | intro n _ ih =>
    have hcontainer := containerOf_result h hn
    by_cases hmet : n = a
    · subst hmet
      exact ⟨true, .met⟩
    by_cases hstop : w.up n = n
    · rw [hstop] at hcontainer
      exact ⟨false, .ended hmet hcontainer⟩
    rcases w.hangs_or_up_eq n with hangs | ⟨hself, -⟩
    · obtain ⟨above, hrest⟩ := ih _ hangs hn.up
      exact ⟨above, .step hmet hcontainer hstop hrest⟩
    · exact absurd hself hstop

/-- However the walk ends, it has told whether the ancestor is above the node. -/
theorem Ascends.above_iff {above : Bool} (hascends : Ascends w a n above) (hn : w.Live n) :
    above = true ↔ w.Above a n := by
  induction hascends with
  | met => exact ⟨fun _ => .refl, fun _ => rfl⟩
  | ended hne hcontainer =>
    rw [containerOf_result h hn] at hcontainer
    have hself := Except.ok.inj hcontainer
    exact ⟨nofun, fun habove => absurd (World.eq_of_above_of_up_eq hself habove) hne⟩
  | step hne hcontainer hstop _ ih =>
    rw [containerOf_result h hn] at hcontainer
    obtain rfl := Except.ok.inj hcontainer
    refine (ih hn.up).trans ⟨fun hup => World.above_iff_up.2 (.inr hup), fun habove => ?_⟩
    exact (World.above_iff_up.1 habove).resolve_left hne

end RamFs

/-- **The walk over ancestors ends and is exact.** In every reachable world the walk up from a node
that is there comes to an end, without an error and in one way only, and `isAbove` answers as it
does. It finds what lies on the way up, the node itself included. If the node is attached, these are
the nodes from which names lead down to it. -/
theorem ancestor_walk_exact {w : World} (hw : w.Reachable) {n : NodeId} (hn : w.Live n)
    (a : NodeId) :
    ∃ above, (RamFs.isAbove a n w).result = .ok above ∧
      (∀ answer, RamFs.Ascends w a n answer ↔ answer = above) ∧
      (above = true ↔ w.Above a n) ∧
      (w.Attached n → (above = true ↔ ∃ path, w.descend a path = .ok n)) := by
  have h := hw.wellFormed
  obtain ⟨above, hresult, habove⟩ := RamFs.isAbove_result h.ram h.linked.acc a hn
  have hanswer : ∀ answer, RamFs.Ascends w a n answer → answer = above := by
    intro answer hascends
    have hsame : answer = true ↔ above = true := (hascends.above_iff h hn).trans habove.symm
    exact Bool.eq_iff_iff.2 hsame
  refine ⟨above, hresult, fun answer => ⟨hanswer answer, ?_⟩, habove, fun hattached => ?_⟩
  · rintro rfl
    obtain ⟨answer, hascends⟩ := RamFs.exists_ascends h a hn
    rwa [← hanswer answer hascends]
  · rw [habove]
    constructor
    · exact World.descend_of_above h hattached
    · rintro ⟨path, hpath⟩
      exact World.above_of_descend h hpath

/-- A task stays in a directory after it was removed from another one. -/
def World.stayedBehind : World :=
  Operation.runAll
    [.addTask 0, .makeDirectory 0 none "/a" 0o755, .makeDirectory 0 none "/a/b" 0o755,
      .makeDirectory 0 none "/a/b/c" 0o755, .changeDirectory 0 "/a/b/c",
      .removeDirectory 0 none "/a/b/c"]
    (World.fresh {})

/-- The outer directory leads down to the one in it; it is above the removed one as well, but no
names lead there. -/
theorem ancestor_walk_exact_of_stayedBehind :
    let w := World.stayedBehind
    (w.Reachable ∧ w.Live 3 ∧ w.Live 4) ∧
    (RamFs.Ascends w 2 3 true ∧ w.Attached 3 ∧ ∃ path, w.descend 2 path = .ok 3) ∧
    RamFs.Ascends w 2 4 true ∧ ¬w.Attached 4 ∧ w.Above 2 4 := by
  intro w
  have hw : w.Reachable := ⟨_, World.steps_runAll _ _⟩
  have hlive : w.Live 3 := by decide +kernel
  have hheld : w.Live 4 := by decide +kernel
  have hlisted : w.Attached 3 :=
    (World.attached_iff_rawWalk hw.wellFormed).2
      ⟨0, ["a", "b"], by decide +kernel, by decide +kernel⟩
  have hloose : ¬w.Attached 4 :=
    World.not_attached_of_unlisted hw.wellFormed (by decide +kernel : w.parent 4 = some 3)
      (by decide +kernel)
  have hfound : (RamFs.isAbove 2 3 w).result = .ok true := by decide +kernel
  have hbehind : (RamFs.isAbove 2 4 w).result = .ok true := by decide +kernel
  obtain ⟨above, hresult, hwalk, -, hdown⟩ := ancestor_walk_exact hw hlive 2
  obtain ⟨above', hresult', hwalk', hup', -⟩ := ancestor_walk_exact hw hheld 2
  obtain rfl : above = true := Except.ok.inj (hresult.symm.trans hfound)
  obtain rfl : above' = true := Except.ok.inj (hresult'.symm.trans hbehind)
  exact ⟨⟨hw, hlive, hheld⟩, ⟨(hwalk true).2 rfl, hlisted, (hdown hlisted).1 rfl⟩,
    (hwalk' true).2 rfl, hloose, hup'.1 rfl⟩

end VirtualFs
