/-
What was given out is never given out again. A later world may have lost
nodes of an earlier one, but those it kept are who they were, and its new
nodes have numbers that the earlier world had still to give.
-/
import VirtualFs.Proofs.Preservation

namespace VirtualFs

namespace World

/-- The second world comes after the first. -/
structure Extends (w w' : World) : Prop where
  nextKey : w.nodes.nextKey ≤ w'.nodes.nextKey
  old : ∀ n, n < w.nodes.nextKey → w'.Live n →
    w.Live n ∧ (w'.node n).volume = (w.node n).volume ∧ (w'.node n).ino = (w.node n).ino
  new : ∀ n next, w.nodes.nextKey ≤ n → w'.Live n → w.volumes.has (w'.node n).volume = true →
    (w.volume (w'.node n).volume).nextIno = some next → next ≤ (w'.node n).ino
  volume : ∀ v, w.volumes.has v = true →
    w'.volumes.has v = true ∧ (w'.volume v).id = (w.volume v).id
  nextIno : ∀ v next, w.volumes.has v = true → (w.volume v).nextIno = some next →
    ∃ next', (w'.volume v).nextIno = some next' ∧ next ≤ next'

theorem Extends.refl (w : World) : w.Extends w where
  nextKey := Nat.le_refl _
  old _ _ hn := ⟨hn, rfl, rfl⟩
  new _ _ hle hn := absurd hn.lt (Nat.not_lt.2 hle)
  volume _ hv := ⟨hv, rfl⟩
  nextIno _ next _ hnext := ⟨next, hnext, Nat.le_refl _⟩

theorem Extends.trans {w w' w'' : World} (h : w.Extends w') (h' : w'.Extends w'') :
    w.Extends w'' where
  nextKey := Nat.le_trans h.nextKey h'.nextKey
  old n hlt hn := by
    obtain ⟨hn', hvolume', hino'⟩ := h'.old n (Nat.lt_of_lt_of_le hlt h.nextKey) hn
    obtain ⟨hn, hvolume, hino⟩ := h.old n hlt hn'
    exact ⟨hn, hvolume'.trans hvolume, hino'.trans hino⟩
  new n next hle hn hv hnext := by
    by_cases hlt : n < w'.nodes.nextKey
    · obtain ⟨hn', hvolume, hino⟩ := h'.old n hlt hn
      rw [hvolume] at hv hnext
      rw [hino]
      exact h.new n next hle hn' hv hnext
    · obtain ⟨hv', -⟩ := h.volume _ hv
      obtain ⟨next', hnext', hle'⟩ := h.nextIno _ next hv hnext
      exact Nat.le_trans hle' (h'.new n next' (Nat.not_lt.1 hlt) hn hv' hnext')
  volume v hv := by
    obtain ⟨hv', hid⟩ := h.volume v hv
    obtain ⟨hv'', hid'⟩ := h'.volume v hv'
    exact ⟨hv'', hid'.trans hid⟩
  nextIno v next hv hnext := by
    obtain ⟨next', hnext', hle⟩ := h.nextIno v next hv hnext
    obtain ⟨next'', hnext'', hle'⟩ := h'.nextIno v next' (h.volume v hv).1 hnext'
    exact ⟨next'', hnext'', Nat.le_trans hle hle'⟩

theorem Alike.extends {w w' : World} (s : w.Alike w') : w.Extends w' where
  nextKey := Nat.le_of_eq s.nextKey.symm
  old n _ hn := ⟨(s.live n).1 hn, s.volume n, s.ino n⟩
  new n _ hle hn := absurd ((s.live n).1 hn).lt (Nat.not_lt.2 hle)
  volume v hv := ⟨by rwa [s.hasVolume], s.id v⟩
  nextIno v next _ hnext := ⟨next, by rwa [s.nextIno], Nat.le_refl _⟩

theorem extends_sweep (w : World) : w.Extends w.sweep where
  nextKey := Nat.le_of_eq (Arena.nextKey_keep _ _).symm
  old n _ hn := ⟨live_of_sweep hn, by rw [node_sweep hn], by rw [node_sweep hn]⟩
  new n _ hle hn := absurd (live_of_sweep hn).lt (Nat.not_lt.2 hle)
  volume _ hv := ⟨hv, rfl⟩
  nextIno _ next _ hnext := ⟨next, hnext, Nat.le_refl _⟩

/-- A world that has grown by a node whose number its volume had still to give. -/
theorem Grown.extends {w w' : World} (s : w.Grown w')
    (hnew : ∀ next, w.volumes.has (w'.node w.nodes.nextKey).volume = true →
      (w.volume (w'.node w.nodes.nextKey).volume).nextIno = some next →
      next ≤ (w'.node w.nodes.nextKey).ino)
    (hvolume : ∀ v, w.volumes.has v = true →
      w'.volumes.has v = true ∧ (w'.volume v).id = (w.volume v).id)
    (hnext : ∀ v next, w.volumes.has v = true → (w.volume v).nextIno = some next →
      ∃ next', (w'.volume v).nextIno = some next' ∧ next ≤ next') : w.Extends w' where
  nextKey := by rw [s.nextKey]; exact Nat.le_succ _
  old n hlt hn := by
    have hn := s.live_of_lt hlt hn
    rw [s.node_of_live hn]
    exact ⟨hn, rfl, rfl⟩
  new n next hle hn hv hnext := by
    rcases (s.live n).1 hn with rfl | hn
    · exact hnew next hv hnext
    · exact absurd hn.lt (Nat.not_lt.2 hle)
  volume := hvolume
  nextIno := hnext

theorem Edit.extends {w w' : World} (h : w.WellFormed) (e : Edit w w') : w.Extends w' := by
  cases e with
  | swept => exact extends_sweep w
  | touched hn ht =>
    exact (alike_setNode hn ht.ino ht.volume ht.volumeId ht.isDirectory (by rw [ht.parent])).extends
  | unlisted hd => exact (alike_setChildren h hd _).extends
  | listed hd => exact (alike_setChildren h hd _).extends
  | turned hn => exact (alike_setParent h hn _).extends
  | @made d ino mode content ops hd hino hmode hcontent hops =>
    refine (grown_withNode h hd hmode hcontent hops).extends (fun next _ hnext => ?_)
      (fun v hv => ?_) fun v next _ hnext => ?_
    · rw [node_withNode] at hnext ⊢
      rw [hino] at hnext
      exact Nat.le_of_eq (Option.some.inj hnext).symm
    · rw [has_withNode]
      exact ⟨hv, (volume_withNode_fields h hd v).2.1⟩
    · rw [volume_withNode h hd]
      split
      · next heq =>
        rw [heq, hino] at hnext
        cases hnext
        exact ⟨ino + 1, rfl, Nat.le_succ _⟩
      · exact ⟨next, hnext, Nat.le_refl _⟩
  | idTaken => exact (alike_idTaken w).extends
  | @volumeMade id device flags =>
    refine (grown_withVolume w id device flags).extends (fun next hv _ => ?_) (fun v hv => ?_)
      fun v next hv hnext => ?_
    · rw [node_withVolume] at hv
      exact absurd (Arena.lt_nextKey_of_has hv) (Nat.lt_irrefl _)
    · rw [volume_withVolume_of_has hv]
      exact ⟨(has_withVolume v).2 (.inr hv), rfl⟩
    · rw [volume_withVolume_of_has hv]
      exact ⟨next, hnext, Nat.le_refl _⟩
  | attached hv _ _ hp => exact (alike_attach hv (live_of_isDirectory hp) _).extends
  | held => exact (alike_held _ _ _ _).extends

theorem Edits.extends {w w' : World} (e : Edits w w') (h : w.WellFormed) : w.Extends w' := by
  induction e with
  | refl => exact .refl w
  | tail es e ih => exact ih.trans (e.extends (Edits.wellFormed es h))

/-- A node of a later world that has the volume and the number of an earlier node is that node. -/
theorem Extends.eq_of_identity {w w' : World} (h : w.WellFormed) (h' : w'.WellFormed)
    (he : w.Extends w') {n m : NodeId} (hn : w.Live n) (hm : w'.Live m)
    (hvolume : (w'.node m).volumeId = (w.node n).volumeId)
    (hino : (w'.node m).ino = (w.node n).ino) : m = n := by
  have hv := h.numbered.volume n hn
  obtain ⟨hv', hid⟩ := he.volume _ hv
  have hsame : (w'.node m).volume = (w.node n).volume := by
    refine h'.numbered.id_inj _ _ (h'.numbered.volume m hm) hv' ?_
    rw [hid, h'.numbered.volumeId m hm, h.numbered.volumeId n hn, hvolume]
  by_cases hlt : m < w.nodes.nextKey
  · obtain ⟨hlive, hvolume', hino'⟩ := he.old m hlt hm
    exact h.numbered.ino_inj m n hlive hn (hvolume'.symm.trans hsame) (hino'.symm.trans hino)
  · obtain ⟨next, hnext, hless⟩ := h.numbered.ino_lt n hn
    have hge := he.new m next (Nat.not_lt.1 hlt) hm (by rwa [hsame]) (by rwa [hsame])
    omega

end World

end VirtualFs
