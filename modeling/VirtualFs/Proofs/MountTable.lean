/-
The table of volumes, over whatever drivers there are, as long as they keep to
what they are there for. What the table and the links between volumes and the
directories they are mounted on satisfy (`World.MountTable`) is kept by each
move, and so is what was said of them before (`World.Later`): the table only
grows, at its end and under ids that were never given out, and a link that was
made stays what it is while its node is there.

Drivers may answer differently each time they are asked, and new ones may be
registered between operations.
-/
import VirtualFs.Proofs.Reachable

namespace VirtualFs


namespace World

/-! ## The invariant -/

/-- What the table of volumes and the links of mounts satisfy. -/
structure MountTable (w : World) : Prop where
  /-- Each volume sits in the table under its own id. -/
  entry : ∀ id v, (id, v) ∈ w.table → w.volumes.has v = true ∧ (w.volume v).id = id
  listed : ∀ v, w.volumes.has v = true → ((w.volume v).id, v) ∈ w.table
  /-- The table is in the order of mounting: the root volume is the first. -/
  head : w.table.head? = some (rootVolumeId, w.rootVolume)
  ascending : (w.table.map Prod.fst).Pairwise (· < ·)
  id_ge : ∀ v, w.volumes.has v = true → v ≠ w.rootVolume → firstVolumeId ≤ (w.volume v).id
  id_lt : ∀ v, w.volumes.has v = true → (w.volume v).id < w.nextVolumeId
  nextVolumeId : firstVolumeId ≤ w.nextVolumeId
  rootPoint : (w.volume w.rootVolume).point = none
  root : ∀ v, w.volumes.has v = true →
    w.Known (w.volume v).root ∧ (w.node (w.volume v).root).volume = v
  /-- Mounts do not stack. -/
  bare : ∀ v, w.volumes.has v = true → (w.node (w.volume v).root).mountRoot = none
  /-- A link leads from a node of a volume to the root of a volume with a higher id, which knows the
  node. -/
  covered : ∀ n r, (w.node n).mountRoot = some r → w.Known n ∧
    ∃ v, w.volumes.has v = true ∧ (w.volume v).root = r ∧ (w.volume v).point = some n ∧
      (w.node n).volumeId < (w.volume v).id
  /-- Every volume but the root volume knows a node, which leads to it while it is there. -/
  point : ∀ v, w.volumes.has v = true → v ≠ w.rootVolume →
    ∃ p, (w.volume v).point = some p ∧ p < w.nodes.nextKey ∧
      (w.Live p → (w.node p).mountRoot = some (w.volume v).root)

namespace MountTable

variable {w : World} (h : w.MountTable) {v v' : VolumeKey} {n c r : NodeId}

include h

theorem has_rootVolume : w.volumes.has w.rootVolume = true ∧
    (w.volume w.rootVolume).id = rootVolumeId := by
  refine h.entry _ _ ?_
  have hhead := h.head
  cases htable : w.table with
  | nil => rw [htable] at hhead; cases hhead
  | cons e rest =>
    rw [htable] at hhead
    cases hhead
    exact List.mem_cons_self

theorem root_inj (hv : w.volumes.has v = true) (hv' : w.volumes.has v' = true)
    (hroot : (w.volume v).root = (w.volume v').root) : v = v' := by
  rw [← (h.root v hv).2, hroot, (h.root v' hv').2]

/-- No two nodes lead to the same root. -/
theorem mountRoot_inj (hn : (w.node n).mountRoot = some r) (hc : (w.node c).mountRoot = some r) :
    n = c := by
  obtain ⟨-, v, hv, hroot, hpoint, -⟩ := h.covered n r hn
  obtain ⟨-, v', hv', hroot', hpoint', -⟩ := h.covered c r hc
  obtain rfl := h.root_inj hv hv' (hroot.trans hroot'.symm)
  exact Option.some.inj (hpoint.symm.trans hpoint')

/-- A node that leads to a volume is the one the volume knows. -/
theorem point_eq (hv : w.volumes.has v = true)
    (hn : (w.node n).mountRoot = some (w.volume v).root) :
    (w.volume v).point = some n := by
  obtain ⟨-, v', hv', hroot, hpoint, -⟩ := h.covered n _ hn
  rwa [← h.root_inj hv' hv hroot]

omit h in
theorem point_eq_of_mountPoint (hpoint : w.mountPoint v = some n) : (w.volume v).point = some n :=
  (Option.filter_eq_some_iff.1 hpoint).1

end MountTable

/-! ## What is never taken back -/

/-- A world that comes after another one, as far as mounts go. -/
structure Later (w w' : World) : Prop where
  table : w.table <+: w'.table
  /-- An id that is new in the table was not given out before. -/
  fresh : ∀ e ∈ w'.table, e ∈ w.table ∨ w.nextVolumeId ≤ e.1
  nextVolumeId : w.nextVolumeId ≤ w'.nextVolumeId
  rootVolume : w'.rootVolume = w.rootVolume
  hasVolume : ∀ v, w.volumes.has v = true → w'.volumes.has v = true
  id : ∀ v, w.volumes.has v = true → (w'.volume v).id = (w.volume v).id
  root : ∀ v, w.volumes.has v = true → (w'.volume v).root = (w.volume v).root
  point : ∀ v, w.volumes.has v = true → (w'.volume v).point = (w.volume v).point
  nextKey : w.nodes.nextKey ≤ w'.nodes.nextKey
  live : ∀ n, n < w.nodes.nextKey → w'.Live n → w.Live n
  /-- A link that was made stays as it is. -/
  mountRoot : ∀ n r, (w.node n).mountRoot = some r → w'.Live n → (w'.node n).mountRoot = some r

theorem Later.refl (w : World) : w.Later w where
  table := List.prefix_rfl
  fresh _ he := .inl he
  nextVolumeId := Nat.le_refl _
  rootVolume := rfl
  hasVolume _ hv := hv
  id _ _ := rfl
  root _ _ := rfl
  point _ _ := rfl
  nextKey := Nat.le_refl _
  live _ _ hn := hn
  mountRoot _ _ hr _ := hr

theorem Later.trans {w w' w'' : World} (l : w.Later w') (l' : w'.Later w'') : w.Later w'' where
  table := l.table.trans l'.table
  fresh e he := by
    rcases l'.fresh e he with he | hle
    · exact l.fresh e he
    · exact .inr (Nat.le_trans l.nextVolumeId hle)
  nextVolumeId := Nat.le_trans l.nextVolumeId l'.nextVolumeId
  rootVolume := l'.rootVolume.trans l.rootVolume
  hasVolume v hv := l'.hasVolume v (l.hasVolume v hv)
  id v hv := (l'.id v (l.hasVolume v hv)).trans (l.id v hv)
  root v hv := (l'.root v (l.hasVolume v hv)).trans (l.root v hv)
  point v hv := (l'.point v (l.hasVolume v hv)).trans (l.point v hv)
  nextKey := Nat.le_trans l.nextKey l'.nextKey
  live n hlt hn := l.live n hlt (l'.live n (Nat.lt_of_lt_of_le hlt l.nextKey) hn)
  mountRoot n r hr hn := by
    have hlt := (live_of_mountRoot hr).lt
    have hn' := l'.live n (Nat.lt_of_lt_of_le hlt l.nextKey) hn
    exact l'.mountRoot n r (l.mountRoot n r hr hn') hn

/-! ## Worlds that are looked after -/

/-- What moves need, and keep. -/
structure Tended (w : World) : Prop where
  mounts : w.MountTable
  gripped : w.Gripped
  rootNode : w.rootNode = 0

theorem Tended.sound [Backends] {w : World} (h : w.Tended) (hlawful : w.Lawful) : w.Sound := by
  have hroot : w.Known w.rootNode := (h.mounts.root _ h.mounts.has_rootVolume.1).1
  refine hlawful.sound h.gripped hroot (h.rootNode ▸ hroot) fun n r hr => ?_
  obtain ⟨hn, v, hv, rfl, -⟩ := h.mounts.covered n r hr
  exact ⟨hn, (h.mounts.root v hv).1⟩

/-! ## What drivers do -/

section

variable {w w' : World} {made : Option VolumeKey} (c : w.Confined made w') {v : VolumeKey}
  {n r : NodeId}

include c

theorem Confined.mountRoot_eq (hr : (w'.node n).mountRoot = some r) :
    (w.node n).mountRoot = some r ∧ (w.node n).Stays (w'.node n) := by
  have hlive := live_of_mountRoot hr
  by_cases hlt : n < w.nodes.nextKey
  · obtain ⟨-, hstays⟩ := c.old n hlt hlive
    exact ⟨hstays.mountRoot.symm.trans hr, hstays⟩
  · rw [c.new n (Nat.not_lt.1 hlt) hlive] at hr
    cases hr

theorem Confined.later : w.Later w' where
  table := c.table ▸ List.prefix_rfl
  fresh _ he := .inl (c.table ▸ he)
  nextVolumeId := Nat.le_of_eq c.nextVolumeId.symm
  rootVolume := c.rootVolume
  hasVolume v hv := (c.hasVolume v).2 (.inr hv)
  id v hv := (c.volume v hv).id_eq
  root v hv := (c.volume v hv).root_eq
  point v hv := (c.volume v hv).point_eq
  nextKey := c.nextKey
  live n hlt hn := (c.old n hlt hn).1
  mountRoot n _ hr hn := (c.old n (live_of_mountRoot hr).lt hn).2.mountRoot.trans hr

theorem Gripped.confined (h : w.Gripped) : w'.Gripped where
  file f file hget := by
    rw [c.files] at hget
    have hknown := h.file f file hget
    exact c.known hknown (c.kept _ (.inr (.inl ⟨f, file, hget, rfl⟩)) hknown.live)
  cwd i context hget := by
    rw [c.contexts] at hget
    have hknown := h.cwd i context hget
    exact c.known hknown (c.kept _ (.inr (.inr (.inl ⟨i, context, hget, rfl⟩))) hknown.live)
  pin name n hget := by
    rw [c.pins] at hget
    have hknown := h.pin name n hget
    exact c.known hknown (c.kept _ (.inr (.inr (.inr ⟨name, hget⟩))) hknown.live)
  table i context hget := by
    rw [c.contexts] at hget
    rw [c.limits]
    exact h.table i context hget

namespace MountTable

variable (h : w.MountTable)

include h

theorem root_confined (hv : w.volumes.has v = true) :
    w'.Known (w'.volume v).root ∧ (w'.node (w'.volume v).root).volume = v ∧
      (w'.node (w'.volume v).root).mountRoot = none := by
  obtain ⟨hknown, hvolume⟩ := h.root v hv
  have hlive := c.kept _ (.inl ⟨v, hv, rfl⟩) hknown.live
  have hstays := (c.old _ hknown.live.lt hlive).2
  rw [(c.volume v hv).root_eq]
  exact ⟨c.known hknown hlive, hstays.volume.trans hvolume, hstays.mountRoot.trans (h.bare v hv)⟩

theorem covered_confined (hr : (w'.node n).mountRoot = some r) :
    w'.Known n ∧ ∃ v, w.volumes.has v = true ∧ (w'.volume v).root = r ∧
      (w'.volume v).point = some n ∧ (w'.node n).volumeId < (w'.volume v).id := by
  obtain ⟨hr', hstays⟩ := c.mountRoot_eq hr
  obtain ⟨hknown, v, hv, hroot, hpoint, hlt⟩ := h.covered n r hr'
  refine ⟨c.known hknown (live_of_mountRoot hr), v, hv, ?_, ?_, ?_⟩
  · rw [(c.volume v hv).root_eq, hroot]
  · rw [(c.volume v hv).point_eq, hpoint]
  · rw [hstays.volumeId, (c.volume v hv).id_eq]
    exact hlt

theorem point_confined (hv : w.volumes.has v = true) (hne : v ≠ w.rootVolume) :
    ∃ p, (w'.volume v).point = some p ∧ p < w'.nodes.nextKey ∧
      (w'.Live p → (w.node p).mountRoot = some (w.volume v).root ∧
        (w'.node p).mountRoot = some (w'.volume v).root) := by
  obtain ⟨p, hpoint, hlt, hlink⟩ := h.point v hv hne
  refine ⟨p, (c.volume v hv).point_eq.trans hpoint, Nat.lt_of_lt_of_le hlt c.nextKey, fun hp => ?_⟩
  obtain ⟨hlive, hstays⟩ := c.old p hlt hp
  rw [hstays.mountRoot, (c.volume v hv).root_eq]
  exact ⟨hlink hlive, hlink hlive⟩

omit c h in
/-- A driver's own changes are no concern of the table. -/
theorem confined (h : w.MountTable) (c : w.Confined none w') : w'.MountTable := by
  have hhas : ∀ v, w'.volumes.has v = true → w.volumes.has v = true := fun v hv =>
    ((c.hasVolume v).1 hv).resolve_left nofun
  have l := c.later
  exact
    { entry := fun id v he => by
        rw [c.table] at he
        obtain ⟨hv, hid⟩ := h.entry id v he
        exact ⟨l.hasVolume v hv, (l.id v hv).trans hid⟩
      listed := fun v hv => by
        rw [c.table, l.id v (hhas v hv)]
        exact h.listed v (hhas v hv)
      head := by
        rw [c.table, c.rootVolume]
        exact h.head
      ascending := by
        rw [c.table]
        exact h.ascending
      id_ge := fun v hv hne => by
        rw [l.id v (hhas v hv)]
        exact h.id_ge v (hhas v hv) (c.rootVolume ▸ hne)
      id_lt := fun v hv => by
        rw [l.id v (hhas v hv), c.nextVolumeId]
        exact h.id_lt v (hhas v hv)
      nextVolumeId := by
        rw [c.nextVolumeId]
        exact h.nextVolumeId
      rootPoint := by
        rw [c.rootVolume, l.point _ h.has_rootVolume.1]
        exact h.rootPoint
      root := fun v hv =>
        ⟨(h.root_confined c (hhas v hv)).1, (h.root_confined c (hhas v hv)).2.1⟩
      bare := fun v hv => (h.root_confined c (hhas v hv)).2.2
      covered := fun n r hr => by
        obtain ⟨hknown, v, hv, hrest⟩ := h.covered_confined c hr
        exact ⟨hknown, v, l.hasVolume v hv, hrest⟩
      point := fun v hv hne => by
        obtain ⟨p, hpoint, hlt, hlink⟩ := h.point_confined c (hhas v hv) (c.rootVolume ▸ hne)
        exact ⟨p, hpoint, hlt, fun hp => (hlink hp).2⟩ }

end MountTable

end

theorem Tended.confined {w w' : World} (h : w.Tended) (c : w.Confined none w') : w'.Tended where
  mounts := h.mounts.confined c
  gripped := h.gripped.confined c
  rootNode := by
    rw [World.rootNode, c.rootVolume, c.later.root _ h.mounts.has_rootVolume.1]
    exact h.rootNode

/-! ## What the library does -/

section

variable {w : World} (files : Arena OpenFile) (contexts : Array Context) (tasks : Array Task)
  (pins : NameMap NodeId) (drivers : NameMap DriverKind) {next : Nat}
    (hnext : w.nextVolumeId ≤ next)

include hnext

/-- What is held from outside is no concern of the table, nor which drivers there are. -/
theorem MountTable.beside (h : w.MountTable) :
    ({ w with files, contexts, tasks, pins, drivers, nextVolumeId := next } :
      World).MountTable where
  entry := h.entry
  listed := h.listed
  head := h.head
  ascending := h.ascending
  id_ge := h.id_ge
  id_lt v hv := Nat.lt_of_lt_of_le (h.id_lt v hv) hnext
  nextVolumeId := Nat.le_trans h.nextVolumeId hnext
  rootPoint := h.rootPoint
  root v hv := ⟨(h.root v hv).1.congr rfl rfl, (h.root v hv).2⟩
  bare := h.bare
  covered n r hr := ⟨(h.covered n r hr).1.congr rfl rfl, (h.covered n r hr).2⟩
  point := h.point

theorem later_beside :
    w.Later { w with files, contexts, tasks, pins, drivers, nextVolumeId := next } where
  __ := Later.refl w
  nextVolumeId := hnext

end

theorem Gripped.beside {w : World} (h : w.Gripped) (drivers : NameMap DriverKind) (next : Nat) :
    ({ w with drivers, nextVolumeId := next } : World).Gripped where
  file f file hget := (h.file f file hget).congr rfl rfl
  cwd c context hget := (h.cwd c context hget).congr rfl rfl
  pin name n hget := (h.pin name n hget).congr rfl rfl
  table := h.table

/-- Drivers may be registered and ids may be used up. -/
theorem Tended.beside {w : World} (h : w.Tended) (drivers : NameMap DriverKind) {next : Nat}
    (hnext : w.nextVolumeId ≤ next) :
    ({ w with drivers, nextVolumeId := next } : World).Tended where
  mounts := h.mounts.beside _ _ _ _ drivers hnext
  gripped := h.gripped.beside drivers next
  rootNode := h.rootNode

/-! ### Mounting -/

section

variable {w w' : World} {id : Nat} {v u : VolumeKey} {p n r : NodeId}

theorem Known.of_alike (s : w.Alike w') (h : w.Known n) : w'.Known n := by
  refine ⟨(s.live n).2 h.live, ?_, ?_⟩
  · rw [s.volume, s.hasVolume]
    exact h.volume
  · rw [s.volume, s.id, s.volumeId]
    exact h.volumeId

/-- A driver made a volume, under an id that is above all others, to be mounted on a directory. -/
structure Offers (w w' : World) (id : Nat) (v : VolumeKey) (p : NodeId) : Prop where
  confined : w.Confined (some v) w'
  minted : w.Minted w' id v
  mountable : w.Mountable p
  live : w'.Live p
  id_ge : firstVolumeId ≤ id
  id_lt : id < w.nextVolumeId
  above : ∀ u, w.volumes.has u = true → (w.volume u).id < id

namespace Offers

variable (o : w.Offers w' id v p)

include o

theorem has : w'.volumes.has v = true := (o.confined.hasVolume v).2 (.inl rfl)

theorem has_attach : (w'.attach id v p).volumes.has u = true ↔ u = v ∨ w.volumes.has u = true := by
  refine Iff.trans (Iff.of_eq (congrArg (· = true) (has_setVolume _ u))) ?_
  rw [o.confined.hasVolume, Option.some.injEq, eq_comm]

/-- A volume that was there is not the new one. -/
theorem ne (hu : w.volumes.has u = true) : u ≠ v := fun heq => by
  rw [heq, o.minted.fresh] at hu
  cases hu

theorem volume_new : (w'.attach id v p).volume v = { w'.volume v with point := some p } := by
  rw [volume_attach o.has, if_pos rfl]

theorem volume_old (hu : w.volumes.has u = true) : (w'.attach id v p).volume u = w'.volume u := by
  rw [volume_attach o.has, if_neg (o.ne hu)]

theorem node_point :
    (w'.attach id v p).node p = { w'.node p with mountRoot := some (w'.volume v).root } := by
  rw [node_attach o.has o.live, if_pos rfl]

theorem node_other (hn : n ≠ p) : (w'.attach id v p).node n = w'.node n := by
  rw [node_attach o.has o.live, if_neg hn]

/-- A directory that can be mounted on is no root: neither of the volumes there were nor of the new
one. -/
theorem root_ne (h : w.MountTable) (hu : u = v ∨ w.volumes.has u = true) :
    (w'.volume u).root ≠ p := by
  rcases hu with rfl | hu
  · exact Nat.ne_of_gt (Nat.lt_of_lt_of_le o.mountable.known.live.lt o.minted.freshRoot)
  · intro heq
    rw [(o.confined.volume u hu).root_eq] at heq
    have hroot := o.mountable.not_root
    rw [← heq, (h.root u hu).2, World.sameIdentity, beq_self_eq_true, beq_self_eq_true] at hroot
    cases hroot

theorem alike : w'.Alike (w'.attach id v p) := alike_attach o.has o.live id

theorem table_attach : (w'.attach id v p).table = w.table ++ [(id, v)] := by
  rw [← o.confined.table]
  rfl

theorem id_new : ((w'.attach id v p).volume v).id = id := by rw [o.alike.id, o.minted.id_eq]

theorem id_old (hu : w.volumes.has u = true) :
    ((w'.attach id v p).volume u).id = (w.volume u).id := by
  rw [o.alike.id, o.confined.later.id u hu]

/-- The root of the new volume is a node of its own, and those of the others stay as they are. -/
theorem root_attach (h : w.MountTable) (hu : (w'.attach id v p).volumes.has u = true) :
    (w'.attach id v p).Known ((w'.attach id v p).volume u).root ∧
      ((w'.attach id v p).node ((w'.attach id v p).volume u).root).volume = u ∧
      ((w'.attach id v p).node ((w'.attach id v p).volume u).root).mountRoot = none := by
  have hcases := o.has_attach.1 hu
  rw [o.alike.root, o.node_other (o.root_ne h hcases)]
  rcases hcases with rfl | hu
  · refine ⟨Known.of_alike o.alike ⟨o.minted.live, ?_, ?_⟩, o.minted.volume,
      o.confined.new _ o.minted.freshRoot o.minted.live⟩
    · rw [o.minted.volume]
      exact o.has
    · rw [o.minted.volume, o.minted.id_eq, o.minted.volumeId]
  · obtain ⟨hknown, hvolume, hbare⟩ := h.root_confined o.confined hu
    exact ⟨hknown.of_alike o.alike, hvolume, hbare⟩

/-- The directory leads to the new volume; what led somewhere before leads there. -/
theorem covered_attach (h : w.MountTable) (hr : ((w'.attach id v p).node n).mountRoot = some r) :
    (w'.attach id v p).Known n ∧ ∃ u, (w'.attach id v p).volumes.has u = true ∧
      ((w'.attach id v p).volume u).root = r ∧ ((w'.attach id v p).volume u).point = some n ∧
      ((w'.attach id v p).node n).volumeId < ((w'.attach id v p).volume u).id := by
  by_cases hn : n = p
  · subst hn
    rw [o.node_point] at hr
    cases hr
    have hknown := o.mountable.known
    refine ⟨(o.confined.known hknown o.live).of_alike o.alike, v, o.has_attach.2 (.inl rfl),
      o.alike.root v, ?_, ?_⟩
    · rw [o.volume_new]
    · rw [o.alike.volumeId, (o.confined.old n hknown.live.lt o.live).2.volumeId,
        ← hknown.volumeId, o.id_new]
      exact o.above _ hknown.volume
  · rw [o.node_other hn] at hr
    obtain ⟨hknown, u, hu, hroot, hpoint, hlt⟩ := h.covered_confined o.confined hr
    refine ⟨hknown.of_alike o.alike, u, o.has_attach.2 (.inr hu), ?_⟩
    rw [o.node_other hn, o.volume_old hu]
    exact ⟨hroot, hpoint, hlt⟩

/-- The new volume knows the directory; it is none that another volume knows. -/
theorem point_attach (h : w.MountTable) (hu : (w'.attach id v p).volumes.has u = true)
    (hne : u ≠ w.rootVolume) : ∃ q, ((w'.attach id v p).volume u).point = some q ∧
      q < (w'.attach id v p).nodes.nextKey ∧ ((w'.attach id v p).Live q →
        ((w'.attach id v p).node q).mountRoot = some ((w'.attach id v p).volume u).root) := by
  rcases o.has_attach.1 hu with rfl | hu
  · refine ⟨p, ?_, ?_, fun _ => ?_⟩
    · rw [o.volume_new]
    · rw [o.alike.nextKey]
      exact o.live.lt
    · rw [o.node_point, o.alike.root]
  · obtain ⟨q, hpoint, hlt, hlink⟩ := h.point_confined o.confined hu hne
    rw [o.volume_old hu, o.alike.nextKey]
    refine ⟨q, hpoint, hlt, fun hq => ?_⟩
    obtain ⟨hbefore, hlinked⟩ := hlink ((o.alike.live q).1 hq)
    rw [o.node_other fun heq => ?_]
    · exact hlinked
    · rw [heq, o.mountable.bare] at hbefore
      cases hbefore

theorem mountTable (h : w.MountTable) : (w'.attach id v p).MountTable := by
  have hrootVolume : (w'.attach id v p).rootVolume = w.rootVolume := o.confined.rootVolume
  have hnextId : (w'.attach id v p).nextVolumeId = w.nextVolumeId := o.confined.nextVolumeId
  constructor
  case entry =>
    intro id' u he
    rw [o.table_attach, List.mem_append, List.mem_singleton, Prod.mk.injEq] at he
    rcases he with he | ⟨rfl, rfl⟩
    · obtain ⟨hu, hid⟩ := h.entry id' u he
      exact ⟨o.has_attach.2 (.inr hu), (o.id_old hu).trans hid⟩
    · exact ⟨o.has_attach.2 (.inl rfl), o.id_new⟩
  case listed =>
    intro u hu
    rw [o.table_attach, List.mem_append, List.mem_singleton]
    rcases o.has_attach.1 hu with rfl | hu
    · exact .inr (by rw [o.id_new])
    · exact .inl (by rw [o.id_old hu]; exact h.listed u hu)
  case head =>
    rw [o.table_attach, hrootVolume, List.head?_append, h.head]
    rfl
  case ascending =>
    rw [o.table_attach, List.map_append, List.pairwise_append]
    refine ⟨h.ascending, List.pairwise_singleton _ _, fun id' hid' _ hmem => ?_⟩
    obtain ⟨⟨_, u⟩, he, rfl⟩ := List.mem_map.1 hid'
    obtain ⟨hu, rfl⟩ := h.entry _ u he
    rw [List.map_singleton, List.mem_singleton] at hmem
    subst hmem
    exact o.above u hu
  case id_ge =>
    intro u hu hne
    rcases o.has_attach.1 hu with rfl | hu
    · rw [o.id_new]
      exact o.id_ge
    · rw [o.id_old hu]
      exact h.id_ge u hu (hrootVolume ▸ hne)
  case id_lt =>
    intro u hu
    rw [hnextId]
    rcases o.has_attach.1 hu with rfl | hu
    · rw [o.id_new]
      exact o.id_lt
    · rw [o.id_old hu]
      exact h.id_lt u hu
  case nextVolumeId =>
    rw [hnextId]
    exact h.nextVolumeId
  case rootPoint =>
    have hroot := h.has_rootVolume.1
    rw [hrootVolume, o.volume_old hroot, o.confined.later.point _ hroot]
    exact h.rootPoint
  case root => exact fun u hu => ⟨(o.root_attach h hu).1, (o.root_attach h hu).2.1⟩
  case bare => exact fun u hu => (o.root_attach h hu).2.2
  case covered => exact fun n r hr => o.covered_attach h hr
  case point => exact fun u hu hne => o.point_attach h hu (hrootVolume ▸ hne)

/-- The id may be the next one of the world before it was used up. -/
theorem later {next : Nat} (hnext : next ≤ id) :
    ({ w with nextVolumeId := next } : World).Later (w'.attach id v p) where
  table := ⟨[(id, v)], o.table_attach.symm⟩
  fresh e he := by
    rw [o.table_attach, List.mem_append, List.mem_singleton] at he
    rcases he with he | rfl
    · exact .inl he
    · exact .inr hnext
  nextVolumeId := Nat.le_trans hnext
    (Nat.le_trans (Nat.le_of_lt o.id_lt) (Nat.le_of_eq o.confined.nextVolumeId.symm))
  rootVolume := o.confined.rootVolume
  hasVolume u hu := o.has_attach.2 (.inr hu)
  id _ hu := o.id_old hu
  root u hu := (congrArg Volume.root (o.volume_old hu)).trans (o.confined.later.root u hu)
  point u hu := (congrArg Volume.point (o.volume_old hu)).trans (o.confined.later.point u hu)
  nextKey := Nat.le_trans o.confined.nextKey (Nat.le_of_eq o.alike.nextKey.symm)
  live n hlt hn := (o.confined.old n hlt ((o.alike.live n).1 hn)).1
  mountRoot n r hr hn := by
    have hne : n ≠ p := fun heq => by
      have hbare : (w.node n).mountRoot = none := heq ▸ o.mountable.bare
      cases hr.symm.trans hbare
    rw [o.node_other hne]
    exact o.confined.later.mountRoot n r hr ((o.alike.live n).1 hn)

theorem gripped (h : w.Gripped) : (w'.attach id v p).Gripped := by
  have h' := h.confined o.confined
  exact ⟨fun f file hget => (h'.file f file hget).of_alike o.alike,
    fun c context hget => (h'.cwd c context hget).of_alike o.alike,
    fun name n hget => (h'.pin name n hget).of_alike o.alike, h'.table⟩

theorem tended (h : w.Tended) : (w'.attach id v p).Tended where
  mounts := o.mountTable h.mounts
  gripped := o.gripped h.gripped
  rootNode := by
    have l := o.later (Nat.le_refl id)
    rw [World.rootNode, l.rootVolume]
    exact (l.root _ h.mounts.has_rootVolume.1).trans h.rootNode

end Offers

end

/-- A driver's own changes keep what is looked after. -/
theorem Tended.own {w w' : World} (h : w.Tended) (c : w.Own w') : w'.Tended ∧ w.Later w' :=
  ⟨h.confined c, c.later⟩

section

variable [Backends] {w : World} (h : w.Tended) (hlawful : w.Lawful)

include h hlawful

/-- A driver refuses to mount, and made nothing; or it made a volume, which was put on the
directory. -/
theorem Tended.mountedOn_cases {name : String} {driver : DriverKind} {p : NodeId}
    (hdriver : w.drivers.get? name = some driver) (hp : w.Mountable p) (device : String)
    (flags : VolumeFlags) (args : String) :
    ({ w with nextVolumeId := w.nextVolumeId + 1 } : World).Own
        (w.mountedOn driver device flags args p) ∨
      ∃ v w', ({ w with nextVolumeId := w.nextVolumeId + 1 } : World).Offers w' w.nextVolumeId v p ∧
        w.mountedOn driver device flags args p = w'.attach w.nextVolumeId v p := by
  obtain ⟨hconfined, hlive, hminted⟩ := hlawful.mount name driver device flags args p hdriver hp
  rw [World.mountedOn]
  rcases hrun : driver.mount w.nextVolumeId device flags args
    { w with nextVolumeId := w.nextVolumeId + 1 } with ⟨_ | v, w', trace⟩
  · rw [hrun] at hconfined
    exact .inl hconfined
  · rw [hrun] at hconfined hlive hminted
    -- The driver leaves what the directory carries to the library.
    have hbare : (w'.node p).mountRoot.isNone = true := by
      rw [(hconfined.old p hp.known.live.lt hlive).2.mountRoot]
      exact Option.isNone_iff_eq_none.2 hp.bare
    exact .inr ⟨v, w',
      { confined := hconfined
        minted := hminted v rfl
        mountable := ⟨hp.known.congr rfl rfl, hp.isDirectory, hp.bare, hp.not_root⟩
        live := hlive
        id_ge := h.mounts.nextVolumeId
        id_lt := Nat.lt_succ_self _
        above := h.mounts.id_lt }, if_pos hbare⟩

theorem Tended.mountedOn {name : String} {driver : DriverKind} {p : NodeId}
    (hdriver : w.drivers.get? name = some driver) (hp : w.Mountable p) (device : String)
    (flags : VolumeFlags) (args : String) :
    (w.mountedOn driver device flags args p).Tended ∧
      w.Later (w.mountedOn driver device flags args p) := by
  have htaken := h.beside w.drivers (Nat.le_succ w.nextVolumeId)
  rcases h.mountedOn_cases hlawful hdriver hp device flags args with hown | ⟨v, w', o, heq⟩
  · have l : w.Later { w with nextVolumeId := w.nextVolumeId + 1 } :=
      later_beside _ _ _ _ _ (Nat.le_succ _)
    exact ⟨htaken.confined hown, l.trans hown.later⟩
  · rw [heq]
    exact ⟨o.tended htaken, o.later (Nat.le_refl _)⟩

/-- **What one move keeps.** -/
theorem Tended.move {range : Range} {w' : World} (hmove : Move range w w') :
    w'.Tended ∧ w.Later w' := by
  cases hmove with
  | asked request hproper _ => exact h.own (hlawful.confined request hproper)
  | mounted hdriver hp _ => exact h.mountedOn hlawful hdriver hp _ _ _
  | deviceAdded => exact h.own (addDevice_own _ _ w)
  | deviceMoved => exact h.own (moveDevice_own _ _ w)
  | deviceWithdrawn => exact h.own (withdrawDevice_own _ w)
  | swept => exact h.own (own_sweep w)
  | held hgripped =>
    exact ⟨⟨h.mounts.beside _ _ _ _ _ (Nat.le_refl _), hgripped, h.rootNode⟩,
      later_beside _ _ _ _ _ (Nat.le_refl _)⟩

omit h in
/-- Only mounting makes volumes. -/
theorem Lawful.has_of_move {range : Range} (hrange : ∀ w p, ¬range.covered w p) {w' : World}
    (hmove : Move range w w') {v : VolumeKey} (hv : w'.volumes.has v = true) :
    w.volumes.has v = true := by
  have hown : w.Own w' → w.volumes.has v = true := fun c =>
    ((c.hasVolume v).1 hv).resolve_left nofun
  cases hmove with
  | asked request hproper _ => exact hown (hlawful.confined request hproper)
  | mounted _ _ hcovers => exact absurd hcovers (hrange _ _)
  | deviceAdded => exact hown (addDevice_own _ _ w)
  | deviceMoved => exact hown (moveDevice_own _ _ w)
  | deviceWithdrawn => exact hown (withdrawDevice_own _ w)
  | swept => exact hown (own_sweep w)
  | held _ => exact hv

omit h in
/-- The limits of an instance are settled when it is made. -/
theorem Lawful.limits_of_move {range : Range} {w' : World} (hmove : Move range w w') :
    w'.limits = w.limits := by
  cases hmove with
  | asked request hproper _ => exact (hlawful.confined request hproper).limits
  | @mounted name driver device flags args p hdriver hp _ =>
    obtain ⟨hconfined, -, -⟩ := hlawful.mount name driver device flags args p hdriver hp
    rw [World.mountedOn]
    rcases hrun : driver.mount w.nextVolumeId device flags args
      { w with nextVolumeId := w.nextVolumeId + 1 } with ⟨_ | v, w', trace⟩
    · rw [hrun] at hconfined
      exact hconfined.limits
    · rw [hrun] at hconfined
      dsimp only
      split
      · exact hconfined.limits
      · exact hconfined.limits
  | deviceAdded => exact (addDevice_own _ _ w).limits
  | deviceMoved => exact (moveDevice_own _ _ w).limits
  | deviceWithdrawn => exact (withdrawDevice_own _ w).limits
  | swept => exact (own_sweep w).limits
  | held _ => rfl

/-- A mount that makes a volume links it. -/
theorem Tended.linked_of_mountedOn {name : String} {driver : DriverKind} {p : NodeId}
    (hdriver : w.drivers.get? name = some driver) (hp : w.Mountable p) {device : String}
    {flags : VolumeFlags} {args : String} {v : VolumeKey}
    (hv : (w.mountedOn driver device flags args p).volumes.has v = true) :
    w.volumes.has v = true ∨ ((w.mountedOn driver device flags args p).node p).mountRoot =
      some ((w.mountedOn driver device flags args p).volume v).root := by
  rcases h.mountedOn_cases hlawful hdriver hp device flags args with hown | ⟨u, w', o, heq⟩
  · exact .inl (((hown.hasVolume v).1 hv).resolve_left nofun)
  · rw [heq] at hv ⊢
    rcases o.has_attach.1 hv with rfl | hv
    · rw [o.node_point, o.volume_new]
      exact .inr rfl
    · exact .inl hv

end

end World

end VirtualFs
