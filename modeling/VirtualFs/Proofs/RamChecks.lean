/-
What the memory filesystem makes sure of before it takes an entry away or puts
another node in its place. No directory that carries a volume is taken away,
moved or replaced, and a node gives way only to one of its kind.
-/
import VirtualFs.Proofs.RamEdits

namespace VirtualFs

open VirtualFs.Action (fails_pure fails_throw fails_query_bind fails_demand_bind fails_ask_bind
  fails_world_bind fails_change_bind fails_change)

/-- A node may be replaced by another one: both are directories or neither is, it lists nothing and
it carries no volume. -/
structure World.GivesWay (w : World) (t n : NodeId) : Prop where
  kind : w.isDirectory t = w.isDirectory n
  bare : ∀ a x, ¬w.Entry t a x
  plain : (w.node t).mountRoot = none

namespace RamFs

variable {w : World} (h : w.WellFormed) {d : NodeId}

include h

theorem unlink_checks (v : VolumeKey) (hd : w.Live d) (name : String) :
    (unlink v d name).FailsTo w w fun _ _ =>
      ∀ c, w.Entry d name c → w.isDirectory c = false := by
  refine fails_query_bind fun _ _ => fails_query_bind fun children hchildren => ?_
  obtain ⟨-, rfl⟩ := of_childrenOf h hd hchildren
  refine fails_query_bind fun c hc => fails_ask_bind (fails_demand_bind fun hplain => ?_)
  refine fails_change_bind (fails_change fun c' hc' => ?_)
  obtain rfl : c = c' := Option.some.inj ((Query.result_expect_eq_ok.1 hc).symm.trans hc')
  simpa using hplain

theorem removeDirectory_checks (v : VolumeKey) (hd : w.Live d) (name : String) :
    (removeDirectory v d name).FailsTo w w fun _ _ =>
      ∀ c, w.Entry d name c → w.isDirectory c = true ∧ (w.node c).mountRoot = none := by
  refine fails_query_bind fun _ _ => fails_query_bind fun children hchildren => ?_
  obtain ⟨-, rfl⟩ := of_childrenOf h hd hchildren
  refine fails_query_bind fun c hc => fails_ask_bind (fails_demand_bind fun hdir =>
    fails_ask_bind (fails_demand_bind fun hplain => fails_query_bind fun _ _ =>
      fails_demand_bind fun _ => fails_change_bind (fails_change fun c' hc' => ?_)))
  obtain rfl : c = c' := Option.some.inj ((Query.result_expect_eq_ok.1 hc).symm.trans hc')
  exact ⟨hdir, Option.isNone_iff_eq_none.1 hplain⟩

theorem givesWay_of_checkReplace {n t : NodeId} (ht : w.Live t)
    (hchecked : (checkReplace n t w).result = .ok ()) : w.GivesWay t n := by
  have hbare := not_entry_of_checkReplace h ht hchecked
  rw [checkReplace, Query.world_bind] at hchecked
  obtain ⟨_, hplain, hchecked⟩ := Query.result_bind_eq_ok.1 hchecked
  rw [Query.result_demand_eq_ok] at hplain
  refine ⟨?_, hbare, Option.isNone_iff_eq_none.1 hplain⟩
  split at hchecked
  · next hdir =>
    obtain ⟨_, hkind, -⟩ := Query.result_bind_eq_ok.1 hchecked
    rw [Query.result_demand_eq_ok] at hkind
    rw [hdir, hkind]
  · next hdir =>
    rw [Query.result_demand_eq_ok] at hchecked
    rw [Bool.not_eq_true] at hdir
    rw [hdir]
    simpa using hchecked

/-- Moving a node onto itself does nothing; any other node that is there gives way. -/
theorem rename_checks (v : VolumeKey) {oldDir : NodeId} {oldName name : String}
    (hold : w.Live oldDir) (hd : w.Live d) (hold_name : IsEntryName oldName)
    (hname : IsEntryName name) (mustBeDirectory : Bool) :
    (rename v oldDir oldName d name mustBeDirectory).FailsTo w w fun _ w' =>
      ∀ n, w.Entry oldDir oldName n → (w.node n).mountRoot = none ∧
        ∀ t, w.Entry d name t → (t = n → w' = w) ∧ (t ≠ n → w.GivesWay t n) := by
  refine fails_query_bind fun _ _ => fails_query_bind fun n hn => fails_world_bind <|
    fails_demand_bind fun _ => fails_demand_bind fun hplain => fails_query_bind fun _ _ =>
    fails_demand_bind fun _ => fails_query_bind fun found hfound => ?_
  obtain ⟨-, hentry⟩ :=
    (lookup_result_eq_ok (h.ram oldDir hold) hold_name.ne_dot hold_name.ne_dots).1 hn
  have hlookup := fun t => lookup_result_eq_ok (n := t) (h.ram d hd) hname.ne_dot hname.ne_dots
  rw [Query.result_attempt, Except.ok.injEq] at hfound
  have hplain : ∀ n', w.Entry oldDir oldName n' → n' = n ∧ (w.node n').mountRoot = none := by
    intro n' hn'
    obtain rfl : n' = n := Option.some.inj (hn'.symm.trans hentry)
    exact ⟨rfl, Option.isNone_iff_eq_none.1 hplain⟩
  split
  · next target =>
    obtain ⟨hdir, htarget⟩ := (hlookup target).1 hfound
    split
    · next heq =>
      refine fails_pure fun n' hn' => ⟨(hplain n' hn').2, fun t ht => ⟨fun _ => rfl, fun hne => ?_⟩⟩
      obtain rfl : t = target := Option.some.inj (ht.symm.trans htarget)
      exact absurd (heq.trans (hplain n' hn').1.symm) hne
    · next hne =>
      refine fails_query_bind fun _ hchecked => ?_
      have hgives := givesWay_of_checkReplace h (h.linked.live _ _ _ htarget) hchecked
      rw [Action.FailsTo, move_apply h (h.isDirectory_of_entry hentry) hdir]
      refine ⟨fun _ he => (by cases he), fun _ _ n' hn' => ⟨(hplain n' hn').2, fun t ht => ?_⟩⟩
      obtain rfl : t = target := Option.some.inj (ht.symm.trans htarget)
      obtain ⟨rfl, -⟩ := hplain n' hn'
      exact ⟨fun heq => absurd heq hne, fun _ => hgives⟩
  · have hdir := isDirectory_of_lookup_notFound h hd hname hfound
    rw [Action.FailsTo, move_apply h (h.isDirectory_of_entry hentry) hdir]
    refine ⟨fun _ he => (by cases he), fun _ _ n' hn' => ⟨(hplain n' hn').2, fun t ht => ?_⟩⟩
    rw [(hlookup t).2 ⟨hdir, ht⟩] at hfound
    cases hfound
  · exact fails_throw

end RamFs

end VirtualFs
