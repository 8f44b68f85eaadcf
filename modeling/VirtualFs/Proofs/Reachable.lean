/-
The worlds that operations lead to from a fresh instance are well-formed: the
root volume alone is, and what is done from there on are moves.
-/
import VirtualFs.Proofs.RamMoves

namespace VirtualFs

open Relation (ReflTransGen)
open VirtualFs.Action (leads_ask_bind leads_bind leads_note)

namespace World

/-- An instance whose root volume is mounted and holds its root alone. -/
def rootOnly (limits : Limits) : World :=
  { withVolume { limits } rootVolumeId "" {} with
    rootVolume := 0
    table := [(rootVolumeId, 0)]
    drivers := NameMap.empty.insert RamFs.driverName .ram }

section

variable {limits : Limits} {n d : NodeId} {v : VolumeKey}

theorem live_rootOnly : (rootOnly limits).Live n ↔ n = 0 := by
  refine ((grown_withVolume { limits } rootVolumeId "" {}).live n).trans ⟨?_, .inl⟩
  intro hcases
  rcases hcases with heq | hlive
  · exact heq
  · exact absurd hlive.lt (Nat.not_lt_zero n)

theorem has_rootOnly : (rootOnly limits).volumes.has v = true ↔ v = 0 := by
  refine Iff.trans (has_withVolume (w := { limits }) v) ⟨?_, .inl⟩
  intro hcases
  rcases hcases with heq | hv
  · exact heq
  · exact absurd (Arena.lt_nextKey_of_has hv) (Nat.not_lt_zero v)

/-- The one node lists nothing, hangs nowhere and carries no volume. -/
theorem not_entry_rootOnly {name : String} {c : NodeId} : ¬(rootOnly limits).Entry d name c := by
  intro he
  cases live_rootOnly.1 he.live
  cases he

theorem parent_rootOnly : (rootOnly limits).parent n ≠ some d := by
  intro hd
  cases live_rootOnly.1 (live_of_parent hd)
  cases hd

theorem mountRoot_rootOnly : ((rootOnly limits).node n).mountRoot ≠ some d := by
  intro hd
  cases live_rootOnly.1 (live_of_mountRoot hd)
  cases hd

theorem point_rootOnly (hv : (rootOnly limits).volumes.has v = true) :
    ((rootOnly limits).volume v).point ≠ some n := by
  intro hn
  cases has_rootOnly.1 hv
  cases hn

theorem numbered_rootOnly (limits : Limits) : (rootOnly limits).Numbered where
  volume n hn := by
    cases live_rootOnly.1 hn
    rfl
  volumeId n hn := by
    cases live_rootOnly.1 hn
    rfl
  ino_lt n hn := by
    cases live_rootOnly.1 hn
    exact ⟨_, rfl, Nat.lt_succ_self _⟩
  ino_inj a b ha hb _ _ := (live_rootOnly.1 ha).trans (live_rootOnly.1 hb).symm
  id_lt v hv := by
    cases has_rootOnly.1 hv
    exact (by decide : rootVolumeId < firstVolumeId)
  id_inj u v hu hv _ := (has_rootOnly.1 hu).trans (has_rootOnly.1 hv).symm

theorem rooted_rootOnly (limits : Limits) : (rootOnly limits).Rooted where
  live v hv := by
    cases has_rootOnly.1 hv
    exact live_rootOnly.2 rfl
  volume v hv := by
    cases has_rootOnly.1 hv
    rfl
  parent v hv := by
    cases has_rootOnly.1 hv
    rfl
  isDirectory v hv := by
    cases has_rootOnly.1 hv
    exact (by decide : Mode.isDirectory (Mode.make Mode.directory 0o777) = true)
  orphan n hn _ := by
    cases live_rootOnly.1 hn
    rfl
  rootVolume := has_rootOnly.2 rfl
  rootId := rfl
  rootNode := rfl

theorem wellFormed_rootOnly (limits : Limits) : (rootOnly limits).WellFormed where
  ram n hn := by
    cases live_rootOnly.1 hn
    exact ⟨rfl, rfl, (Mode.typeBits_make _ _).trans rfl, .inl rfl⟩
  numbered := numbered_rootOnly limits
  rooted := rooted_rootOnly limits
  linked :=
    { live := fun _ _ _ he => absurd he not_entry_rootOnly
      parent := fun _ _ _ he => absurd he not_entry_rootOnly
      name := fun _ _ _ he => absurd he not_entry_rootOnly
      name_inj := fun _ _ _ _ he => absurd he not_entry_rootOnly
      isDirectory := fun _ _ hd => absurd hd.1 parent_rootOnly
      volume := fun _ _ hd => absurd hd.1 parent_rootOnly
      given := fun _ _ hd => absurd hd parent_rootOnly
      acc := fun n _ => Acc.intro n fun _ hd => absurd hd.1 parent_rootOnly }
  mounted :=
    { covered := fun _ _ hr => absurd hr mountRoot_rootOnly
      given := fun _ _ hv hp => absurd hp (point_rootOnly hv)
      mountRoot := fun _ _ hv hp => absurd hp (point_rootOnly hv)
      volumeId_lt := fun _ _ hv hp => absurd hp (point_rootOnly hv)
      isDirectory := fun _ _ hr => absurd hr mountRoot_rootOnly
      bare := fun v hv => by
        cases has_rootOnly.1 hv
        rfl
      root := rfl }
  held :=
    { file := nofun
      cwd := nofun
      pin := nofun
      table := nofun
      driver := fun name driver hdriver => by
        have hget : (NameMap.empty.insert RamFs.driverName DriverKind.ram).get? name =
            some driver := hdriver
        rw [NameMap.get?_insert] at hget
        split at hget
        · exact (Option.some.inj hget).symm
        · cases hget }

end

/-- What an instance does once its root volume is mounted. -/
def furnish : Act Unit := do
  DriverKind.ram.createDirectory 0 (← Query.look (·.rootNode)) deviceDir 0o755
  let _ ← addContext true
  Action.log (.rootMounted RamFs.driverName)

theorem fresh_eq (limits : Limits) : fresh limits = (furnish (rootOnly limits)).world := rfl

theorem turns_fresh (range : Range) (limits : Limits)
    (hroot : range.entered (rootOnly limits) (rootOnly limits).rootNode) :
    ReflTransGen (Turn range) (rootOnly limits) (fresh limits) := by
  have h := wellFormed_rootOnly limits
  have hproper : DriverRequest.Proper (rootOnly limits)
      (.createDirectory .ram 0 (rootOnly limits).rootNode deviceDir 0o755) :=
    ⟨⟨h.known h.live_root, rfl, rfl, (by decide : VolumeFlags.isReadOnly {} = false)⟩, rfl,
      by decide⟩
  have htarget : ∀ d, (DriverRequest.createDirectory .ram 0 (rootOnly limits).rootNode deviceDir
      0o755).target = some d → range.entered (rootOnly limits) d := by
    rintro d ⟨⟩
    exact hroot
  have hfurnish : furnish.LeadsOnly (Turn range) (rootOnly limits) :=
    leads_ask_bind (leads_bind (request_turns _ rfl hproper htarget) fun _ _ hturns _ =>
      leads_bind (addContext_turns (h.steady.turned hturns) true) fun _ _ _ _ => leads_note trivial)
  rw [fresh_eq]
  exact hfurnish.1

theorem moves_fresh (range : Range) (limits : Limits)
    (hroot : range.entered (rootOnly limits) (rootOnly limits).rootNode) :
    ReflTransGen (Move range) (rootOnly limits) (fresh limits) :=
  moves_of_turns (turns_fresh range limits hroot)

theorem wellFormed_fresh (limits : Limits) : (fresh limits).WellFormed :=
  Edits.wellFormed ((wellFormed_rootOnly limits).edits_of_moves
    (moves_fresh .all limits trivial))
    (wellFormed_rootOnly limits)

/-- **Every reachable world is well-formed.** -/
theorem Reachable.wellFormed {w : World} (h : w.Reachable) : w.WellFormed := by
  obtain ⟨limits, hsteps⟩ := h
  exact Edits.wellFormed (hsteps.edits (wellFormed_fresh limits)) (wellFormed_fresh limits)

theorem tidy_rootOnly (limits : Limits) : (rootOnly limits).Tidy := by
  intro n hn
  cases live_rootOnly.1 hn
  exact .root (w := rootOnly limits) (has_rootOnly.2 rfl)

theorem tidy_fresh (limits : Limits) : (fresh limits).Tidy :=
  (wellFormed_rootOnly limits).tidy_of_turns (turns_fresh .all limits trivial)
    (tidy_rootOnly limits)

theorem Reachable.steps {w w' : World} (h : w.Reachable) (hsteps : w.Steps w') : w'.Reachable := by
  obtain ⟨limits, hfresh⟩ := h
  exact ⟨limits, hfresh.trans hsteps⟩

/-- **Nothing outlives the last reference to it.** -/
theorem Reachable.tidy {w : World} (h : w.Reachable) : w.Tidy := by
  obtain ⟨limits, hsteps⟩ := h
  induction hsteps with
  | refl => exact tidy_fresh limits
  | tail hsteps hstep ih =>
    obtain ⟨op, rfl⟩ := hstep
    exact op.tidy (Reachable.wellFormed ⟨limits, hsteps⟩) ih

end World

end VirtualFs
