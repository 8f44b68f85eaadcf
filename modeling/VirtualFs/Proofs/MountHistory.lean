/-
Mounts over whole runs of an instance. Drivers may behave differently from one
request to the next, and drivers may be registered on the way; whatever they
do, as long as they keep to what they are there for (`World.Lawful`), the
table of volumes is as `World.MountTable` says after each request, nothing
that was mounted is undone (`World.Later`), and a volume is mounted on one
directory only, ever.
-/
import VirtualFs.Proofs.MountTable

namespace VirtualFs

open Query (look)
open Relation (ReflTransGen)

namespace World

/-! ## A fresh instance -/

section

variable {limits : Limits} {w w' : World}

theorem mountTable_rootOnly (limits : Limits) : (rootOnly limits).MountTable where
  entry id v he := by
    cases List.mem_singleton.1 he
    exact ⟨has_rootOnly.2 rfl, rfl⟩
  listed v hv := by
    cases has_rootOnly.1 hv
    exact List.mem_singleton.2 rfl
  head := rfl
  ascending := List.pairwise_singleton _ _
  id_ge v hv hne := absurd (has_rootOnly.1 hv) hne
  id_lt := (numbered_rootOnly limits).id_lt
  nextVolumeId := Nat.le_refl _
  rootPoint := rfl
  root v hv := by
    have h := wellFormed_rootOnly limits
    exact ⟨h.known (h.rooted.live v hv), h.rooted.volume v hv⟩
  bare := (wellFormed_rootOnly limits).mounted.bare
  covered n r hr := absurd hr mountRoot_rootOnly
  point v hv hne := absurd (has_rootOnly.1 hv) hne

theorem tended_rootOnly (limits : Limits) : (rootOnly limits).Tended :=
  ⟨mountTable_rootOnly limits, (wellFormed_rootOnly limits).gripped, rfl⟩

/-- The root volume is all there is in a fresh instance. -/
theorem tended_fresh (limits : Limits) : (fresh limits).Tended ∧
    ∀ v, (fresh limits).volumes.has v = true → (rootOnly limits).volumes.has v = true := by
  have h := wellFormed_rootOnly limits
  have hfresh := moves_fresh .entries limits trivial
  generalize fresh limits = w at hfresh ⊢
  induction hfresh with
  | refl => exact ⟨tended_rootOnly limits, fun _ hv => hv⟩
  | tail hmoves hmove ih =>
    have hlawful := (Edits.wellFormed (h.edits_of_moves hmoves) h).lawful
    exact ⟨(ih.1.move hlawful hmove).1, fun v hv =>
      ih.2 v (hlawful.has_of_move (fun _ _ => id) hmove hv)⟩

end

/-! ## What happens to an instance -/

section

variable (behaviours : Backends → Prop) (kinds : DriverKind → Prop)

/-- A request to an instance whose drivers behave in some way they may: an operation, or to register
a driver. -/
inductive Serve : World → World → Prop where
  | operation {b w} (op : Operation) : behaviours b → Serve w ((@Operation.act b op).after w)
  | register {b w} (driver : DriverKind) : behaviours b → kinds driver →
      Serve w ((@addFilesystem b driver).after w)

/-- What requests are made of. -/
inductive Stir : World → World → Prop where
  | move {b w w'} : behaviours b → @Move b .all w w' → Stir w w'
  | registered {w} (name : String) (driver : DriverKind) : kinds driver →
      Stir w { w with drivers := w.drivers.insert name driver }

/-- A world that may come up in an instance, between requests or within one. -/
def Arises (w : World) : Prop :=
  ∃ limits, ReflTransGen (Stir behaviours kinds) (fresh limits) w

/-- Every driver that may be asked keeps to what it is there for, in whatever world may come up. -/
def AllLawful : Prop := ∀ b, behaviours b → ∀ w, Arises behaviours kinds w → @Lawful b w

variable {behaviours kinds} {w w' : World}

theorem Arises.stirs (hw : w.Arises behaviours kinds)
    (hstirs : ReflTransGen (Stir behaviours kinds) w w') : w'.Arises behaviours kinds := by
  obtain ⟨limits, hfresh⟩ := hw
  exact ⟨limits, hfresh.trans hstirs⟩

theorem stirs_of_moves {b : Backends} (hb : behaviours b) {range : Range}
    (hmoves : ReflTransGen (@Move b range) w w') : ReflTransGen (Stir behaviours kinds) w w' :=
  hmoves.lift id fun _ _ hmove => .move hb (@Move.all b _ _ _ hmove)

theorem Tended.stir (h : w.Tended) (hlawful : ∀ b, behaviours b → @Lawful b w)
    (hstir : Stir behaviours kinds w w') : w'.Tended ∧ w.Later w' := by
  cases hstir with
  | @move b _ _ hb hmove => exact @Tended.move b w h (hlawful b hb) _ _ hmove
  | registered name driver _ =>
    exact ⟨h.beside _ (Nat.le_refl _), later_beside _ _ _ _ _ (Nat.le_refl _)⟩

section

variable (hkept : AllLawful behaviours kinds)

include hkept

theorem Tended.stirs (h : w.Tended) (hw : w.Arises behaviours kinds)
    (hstirs : ReflTransGen (Stir behaviours kinds) w w') : w'.Tended ∧ w.Later w' := by
  induction hstirs with
  | refl => exact ⟨h, .refl w⟩
  | tail hstirs hstir ih =>
    obtain ⟨htended, hlater⟩ := ih.1.stir (fun b hb => hkept b hb _ (hw.stirs hstirs)) hstir
    exact ⟨htended, ih.2.trans hlater⟩

variable (hw : w.Arises behaviours kinds)

include hw

theorem Arises.tended : w.Tended := by
  obtain ⟨limits, hfresh⟩ := hw
  exact ((tended_fresh limits).1.stirs hkept ⟨limits, .refl⟩ hfresh).1

theorem Arises.steady {b : Backends} (hb : behaviours b) {range : Range} : @Steady b range w := by
  intro w' hmoves
  have hw' := hw.stirs (stirs_of_moves hb hmoves)
  exact @Tended.sound b w' (hw'.tended hkept) (hkept b hb w' hw')

/-! ## Requests -/

omit hkept hw in
/-- A driver whose name is taken is not registered. -/
theorem after_addFilesystem [Backends] (driver : DriverKind) (w : World) :
    (addFilesystem driver).after w = w ∨
      (addFilesystem driver).after w =
        { w with drivers := w.drivers.insert driver.name driver } := by
  have hlook : (look (·.drivers.contains driver.name) w).result =
      .ok (w.drivers.contains driver.name) := rfl
  rw [addFilesystem, Action.after, Action.liftM_bind_ok hlook]
  cases w.drivers.contains driver.name with
  | true => exact .inl rfl
  | false => exact .inr rfl

theorem Serve.stirs (hserve : Serve behaviours kinds w w') :
    ReflTransGen (Stir behaviours kinds) w w' := by
  cases hserve with
  | @operation b _ op hb =>
    have hmoves : ReflTransGen (@Move b .all) w ((@Operation.act b op).after w) :=
      @Operation.moves b .all w (hw.steady hkept hb) op (fun _ _ _ _ _ => trivial)
        (fun _ _ _ => trivial) fun _ _ => trivial
    exact stirs_of_moves hb hmoves
  | @register b _ driver _ hdriver =>
    rcases @after_addFilesystem b driver w with heq | heq
    · rw [heq]
    · rw [heq]
      exact .single (.registered _ driver hdriver)

theorem has_of_moves {b : Backends} (hb : behaviours b)
    (hmoves : ReflTransGen (@Move b .entries) w w') {v : VolumeKey}
    (hv : w'.volumes.has v = true) : w.volumes.has v = true := by
  induction hmoves with
  | refl => exact hv
  | tail hmoves hmove ih =>
    have hlawful := hkept b hb _ (hw.stirs (stirs_of_moves hb hmoves))
    exact ih (@Lawful.has_of_move b _ hlawful .entries (fun _ _ => id) _ hmove v hv)

/-- A volume that an operation made is linked where the operation mounts something. -/
theorem linked_of_operation {b : Backends} (hb : behaviours b) (op : Operation) {v : VolumeKey}
    (hv : ((@Operation.act b op).after w).volumes.has v = true) :
    w.volumes.has v = true ∨ ∃ p, op.Covers w p ∧
      (((@Operation.act b op).after w).node p).mountRoot =
        some (((@Operation.act b op).after w).volume v).root := by
  by_cases hmount : ∃ p, op.Covers w p
  · obtain ⟨_, hcovers⟩ := hmount
    obtain ⟨t, device, dir, fs, flags, args, rfl⟩ := hcovers.eq_mount
    have hafter : (@Operation.act b (.mount t device dir fs flags args)).after w =
        (@mount b t device dir fs flags args).after w := Action.after_only _ w
    have hsteady : @Steady b .all w := hw.steady hkept hb
    rw [hafter] at hv ⊢
    rcases @after_mount b w t device dir fs flags args with heq | ⟨p, driver, hp, hdriver, heq⟩
    · rw [heq] at hv
      exact .inl hv
    · rw [heq] at hv ⊢
      have hmountable := @resolveMountPoint_mountable b .all w hsteady t dir p hp
      exact (@Tended.linked_of_mountedOn b w (hw.tended hkept) (hkept b hb w hw) fs driver p
        hdriver hmountable device flags args v hv).imp id fun hlink => ⟨p, hp, hlink⟩
  · refine .inl (has_of_moves hkept hw hb ?_ hv)
    exact @Operation.moves b .entries w (hw.steady hkept hb) op (fun _ _ _ _ _ => trivial)
      (fun _ _ _ => trivial) fun p hp => hmount ⟨p, hp⟩

/-- A volume that a request made is linked when the request is done. -/
theorem Serve.linked (hserve : Serve behaviours kinds w w') {v : VolumeKey}
    (hv : w'.volumes.has v = true) :
    w.volumes.has v = true ∨ ∃ p, (w'.node p).mountRoot = some (w'.volume v).root := by
  cases hserve with
  | @operation b _ op hb =>
    exact (linked_of_operation hkept hw hb op hv).imp id fun ⟨p, _, hlink⟩ => ⟨p, hlink⟩
  | @register b _ driver _ _ =>
    refine .inl ?_
    rcases @after_addFilesystem b driver w with heq | heq
    · rwa [heq] at hv
    · rw [heq] at hv
      exact hv

end

end

end World

/-! ## Runs -/

section

open World (Arises Serve AllLawful Tended)

variable {behaviours : Backends → Prop} {kinds : DriverKind → Prop} (hkept : AllLawful behaviours kinds)
  {limits : Limits} {run : Nat → World} (hfirst : run 0 = World.fresh limits) {length : Nat}
  (hrun : ∀ i < length, Serve behaviours kinds (run i) (run (i + 1)))

include hkept hfirst hrun

theorem run_arises {i : Nat} (hi : i ≤ length) : (run i).Arises behaviours kinds := by
  induction i with
  | zero => exact hfirst ▸ ⟨limits, .refl⟩
  | succ i ih =>
    have hw := ih (Nat.le_of_succ_le hi)
    exact hw.stirs (Serve.stirs hkept hw (hrun i hi))

theorem run_later {i j : Nat} (hij : i ≤ j) (hj : j ≤ length) : (run i).Later (run j) := by
  induction hij with
  | refl => exact .refl _
  | @step j hij ih =>
    have hw := run_arises hkept hfirst hrun (Nat.le_of_succ_le hj)
    have hstirs := Serve.stirs hkept hw (hrun j hj)
    exact (ih (Nat.le_of_succ_le hj)).trans ((hw.tended hkept).stirs hkept hw hstirs).2

/-- Every volume but the root volume was linked when a request was done. -/
theorem run_linked {i : Nat} (hi : i ≤ length) {v : VolumeKey}
    (hv : (run i).volumes.has v = true) (hne : v ≠ (run i).rootVolume) :
    ∃ j ≤ i, ∃ p, ((run j).node p).mountRoot = some ((run i).volume v).root := by
  induction i with
  | zero =>
    rw [hfirst] at hv hne
    have hroot := World.has_rootOnly.1 ((World.tended_fresh limits).2 v hv)
    have hrootVolume := World.has_rootOnly.1 ((World.tended_fresh limits).2 _
      (World.tended_fresh limits).1.mounts.has_rootVolume.1)
    exact absurd (hroot.trans hrootVolume.symm) hne
  | succ i ih =>
    have hi' := Nat.le_of_succ_le hi
    have hw := run_arises hkept hfirst hrun hi'
    have hlater := run_later hkept hfirst hrun (Nat.le_succ i) hi
    rcases Serve.linked hkept hw (hrun i hi) hv with hold | ⟨p, hlink⟩
    · rw [hlater.root v hold]
      obtain ⟨j, hj, hlink⟩ := ih hi' hold (hlater.rootVolume ▸ hne)
      exact ⟨j, Nat.le_succ_of_le hj, hlink⟩
    · exact ⟨i + 1, Nat.le_refl _, p, hlink⟩

/-- Nothing leads to a root, ever, but the one node its volume knows. -/
theorem run_point {i j : Nat} (hi : i ≤ length) (hj : j ≤ length) {v : VolumeKey} {q : NodeId}
    (hv : (run i).volumes.has v = true)
    (hq : ((run j).node q).mountRoot = some ((run i).volume v).root) :
    ((run i).volume v).point = some q := by
  have hlast : max i j ≤ length := Nat.max_le.2 ⟨hi, hj⟩
  have li := run_later hkept hfirst hrun (Nat.le_max_left i j) hlast
  have lj := run_later hkept hfirst hrun (Nat.le_max_right i j) hlast
  have hmounts := ((run_arises hkept hfirst hrun hlast).tended hkept).mounts
  obtain ⟨-, u, hu, hroot, hpoint, -⟩ :=
    ((run_arises hkept hfirst hrun hj).tended hkept).mounts.covered q _ hq
  obtain rfl : u = v := hmounts.root_inj (lj.hasVolume u hu) (li.hasVolume v hv)
    (by rw [lj.root u hu, hroot, li.root v hv])
  rw [← li.point u hv, lj.point u hu, hpoint]

/-- **The table of volumes and the links of mounts, over every run of an instance** whose drivers
keep to what they are there for. After each request the table is in order, nothing of it is taken
back by a later one, and each volume but the root volume was linked from one node and from no other,
before or after. -/
theorem run_mountTable :
    (∀ i ≤ length, (run i).MountTable ∧ (run i).mountPoint (run i).rootVolume = none ∧
      ∀ m n r, ((run i).node m).mountRoot = some r → ((run i).node n).mountRoot = some r → m = n) ∧
    (∀ i j, i ≤ j → j ≤ length → (run i).Later (run j)) ∧
    ∀ i ≤ length, ∀ v, (run i).volumes.has v = true → v ≠ (run i).rootVolume →
      ∃ p, (∃ j ≤ i, ((run j).node p).mountRoot = some ((run i).volume v).root) ∧
        (∀ j ≤ length, ∀ q, ((run j).node q).mountRoot = some ((run i).volume v).root → q = p) ∧
        ∀ q, (run i).mountPoint v = some q → q = p := by
  refine ⟨fun i hi => ?_, fun i j hij hj => run_later hkept hfirst hrun hij hj,
    fun i hi v hv hne => ?_⟩
  · have hmounts := ((run_arises hkept hfirst hrun hi).tended hkept).mounts
    refine ⟨hmounts, ?_, fun m n r hm hn => hmounts.mountRoot_inj hm hn⟩
    rw [World.mountPoint, hmounts.rootPoint]
    rfl
  · obtain ⟨j, hj, p, hlink⟩ := run_linked hkept hfirst hrun hi hv hne
    have hpoint := run_point hkept hfirst hrun hi (Nat.le_trans hj hi) hv hlink
    refine ⟨p, ⟨j, hj, hlink⟩, fun k hk q hq => ?_, fun q hq => ?_⟩
    · exact Option.some.inj ((run_point hkept hfirst hrun hi hk hv hq).symm.trans hpoint)
    · exact Option.some.inj ((World.MountTable.point_eq_of_mountPoint hq).symm.trans hpoint)

end

/-! ## Memory volumes -/

namespace World

theorem WellFormed.registered {w : World} (h : w.WellFormed) (name : String) :
    ({ w with drivers := w.drivers.insert name .ram } : World).WellFormed := by
  have s : w.Alike { w with drivers := w.drivers.insert name .ram } :=
    ⟨rfl, fun _ => Iff.rfl, fun _ => rfl, fun _ => rfl, fun _ => rfl, fun _ => rfl,
      fun _ => Iff.rfl, fun _ => rfl, fun _ => rfl, fun _ => rfl, fun _ => rfl, rfl, Nat.le_refl _⟩
  refine ⟨h.ram, h.numbered.of_alike s, h.rooted.of_alike s,
    h.linked.of_alike s (fun _ => rfl) fun _ => rfl,
    h.mounted.of_alike s (fun _ => rfl) fun _ => rfl,
    { file := h.held.file, cwd := h.held.cwd, pin := h.held.pin, table := h.held.table
      driver := fun other driver hget => ?_ }⟩
  rw [NameMap.get?_insert] at hget
  split at hget
  · exact (Option.some.inj hget).symm
  · exact h.held.driver other driver hget

/-- The memory filesystem keeps to what it is there for. -/
theorem allLawful_ram : AllLawful (· = standard) (· = .ram) := by
  rintro _ rfl w ⟨limits, hstirs⟩
  refine WellFormed.lawful ?_
  induction hstirs with
  | refl => exact wellFormed_fresh limits
  | tail _ hstir ih =>
    cases hstir with
    | move hb hmove =>
      subst hb
      exact Edits.wellFormed (ih.edits_of_move hmove) ih
    | registered name driver hdriver =>
      subst hdriver
      exact ih.registered name

end World

/-- A volume in a volume. -/
def nestedMounts : List Operation :=
  [.addTask 0, .makeDirectory 0 none "/a" 0o755, .mount 0 "none" "/a" "tmpfs" {} "",
    .makeDirectory 0 none "/a/b" 0o755, .mount 0 "none" "/a/b" "tmpfs" {} ""]

/-- The world after the first of these operations. -/
def nestedRun (i : Nat) : World := Operation.runAll (nestedMounts.take i) (World.fresh {})

theorem nestedRun_serves : ∀ i < 5,
    World.Serve (· = standard) (· = .ram) (nestedRun i) (nestedRun (i + 1)) := by
  intro i hi
  have hop : nestedRun (i + 1) = (nestedMounts[i]).run (nestedRun i) := by
    rw [nestedRun, List.take_succ_eq_append_getElem hi, Operation.runAll, List.foldl_append]
    rfl
  rw [hop, Operation.run_eq_after]
  exact .operation _ rfl

theorem run_mountTable_of_nested :
    (World.AllLawful (· = standard) (· = .ram) ∧ nestedRun 0 = World.fresh {} ∧
      ∀ i < 5, World.Serve (· = standard) (· = .ram) (nestedRun i) (nestedRun (i + 1))) ∧
    (nestedRun 5).MountTable ∧ (nestedRun 5).table = [(1, 0), (16, 1), (17, 2)] ∧
      (nestedRun 5).mountPoint 2 = some 4 ∧ ((nestedRun 5).volume 2).root = 5 ∧
      ∀ j ≤ 5, ∀ q, ((nestedRun j).node q).mountRoot = some 5 → q = 4 := by
  have htable : (nestedRun 5).table = [(1, 0), (16, 1), (17, 2)] := by decide +kernel
  have hpoint : (nestedRun 5).mountPoint 2 = some 4 := by decide +kernel
  have hroot : ((nestedRun 5).volume 2).root = 5 := by decide +kernel
  have hhas : (nestedRun 5).volumes.has 2 = true := by decide +kernel
  have hrootVolume : 2 ≠ (nestedRun 5).rootVolume := by decide +kernel
  obtain ⟨htables, -, hlinked⟩ := run_mountTable World.allLawful_ram (rfl : nestedRun 0 = _) nestedRun_serves
  obtain ⟨p, -, honly, hmounted⟩ := hlinked 5 (Nat.le_refl _) 2 hhas hrootVolume
  rw [hroot, ← hmounted 4 hpoint] at honly
  exact ⟨⟨World.allLawful_ram, rfl, nestedRun_serves⟩, (htables 5 (Nat.le_refl _)).1, htable, hpoint, hroot, honly⟩

end VirtualFs
