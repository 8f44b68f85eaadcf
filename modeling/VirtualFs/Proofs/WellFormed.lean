/-
What every world of an instance satisfies whose volumes are all memory
volumes. The parts are independent of each other as far as they can be, so
that a change to the world has to answer only for the parts it touches:
numbers (`Numbered`), roots (`Rooted`), the links between directories and
what they list (`Linked`), mounts (`Mounted`), and what is held from outside
the trees (`Held`).

Links to a parent or to a mount point keep nothing alive, so what is said of
them is said only while the other end is there.
-/
import VirtualFs.ReservationTable.Lemmas
import VirtualFs.Proofs.Decomposition
import VirtualFs.Proofs.Tree

namespace VirtualFs

/-- A name that a directory may list. -/
structure IsEntryName (name : String) : Prop where
  checked : checkName name = .ok ()
  whole : '/' ∉ name.toList

namespace IsEntryName

variable {name : String} (h : IsEntryName name)

include h

/-- A name that may be listed is none of those a lookup treats apart. -/
theorem not_dot : ¬(name = "" ∨ name = "." ∨ name = "..") := fun hdot => by
  have hchecked := h.checked
  rw [checkName, if_pos hdot] at hchecked
  cases hchecked

theorem ne_empty : name ≠ "" := fun heq => h.not_dot (.inl heq)

theorem ne_dot : name ≠ "." := fun heq => h.not_dot (.inr (.inl heq))

theorem ne_dots : name ≠ ".." := fun heq => h.not_dot (.inr (.inr heq))

end IsEntryName

namespace World

/-- Numbers: a node's number is below the next one of its volume and its own there, and the id of a
volume is below the next one and its own. -/
structure Numbered (w : World) : Prop where
  volume : ∀ n, w.Live n → w.volumes.has (w.node n).volume = true
  volumeId : ∀ n, w.Live n → (w.volume (w.node n).volume).id = (w.node n).volumeId
  ino_lt : ∀ n, w.Live n →
    ∃ next, (w.volume (w.node n).volume).nextIno = some next ∧ (w.node n).ino < next
  ino_inj : ∀ a b, w.Live a → w.Live b → (w.node a).volume = (w.node b).volume →
    (w.node a).ino = (w.node b).ino → a = b
  id_lt : ∀ v, w.volumes.has v = true → (w.volume v).id < w.nextVolumeId
  id_inj : ∀ u v, w.volumes.has u = true → w.volumes.has v = true →
    (w.volume u).id = (w.volume v).id → u = v

/-- Roots: each volume has its own, which hangs nowhere; the first of them is the root of
everything. -/
structure Rooted (w : World) : Prop where
  live : ∀ v, w.volumes.has v = true → w.Live (w.volume v).root
  volume : ∀ v, w.volumes.has v = true → (w.node (w.volume v).root).volume = v
  parent : ∀ v, w.volumes.has v = true → w.parent (w.volume v).root = none
  isDirectory : ∀ v, w.volumes.has v = true → w.isDirectory (w.volume v).root = true
  /-- Nothing else hangs nowhere. -/
  orphan : ∀ n, w.Live n → w.parent n = none → n = (w.volume (w.node n).volume).root
  rootVolume : w.volumes.has w.rootVolume = true
  rootId : (w.volume w.rootVolume).id = rootVolumeId
  /-- A blank thing refers to the root of everything. -/
  rootNode : w.rootNode = 0

/-- Links: what a directory lists points back at it, and no way up goes round in circles. -/
structure Linked (w : World) : Prop where
  live : ∀ d name c, w.Entry d name c → w.Live c
  parent : ∀ d name c, w.Entry d name c → w.parent c = some d
  name : ∀ d name c, w.Entry d name c → IsEntryName name
  name_inj : ∀ d a b c, w.Entry d a c → w.Entry d b c → a = b
  isDirectory : ∀ n d, w.Hangs n d → w.isDirectory d = true
  volume : ∀ n d, w.Hangs n d → (w.node n).volume = (w.node d).volume
  /-- A directory that is gone does not come back. -/
  given : ∀ n d, w.parent n = some d → d < w.nodes.nextKey
  acc : ∀ n, w.Live n → Acc (fun d n => w.Hangs n d) n

/-- Mounts: what is mounted on a node knows the node, and the other way round while the node is
there. Mounts do not stack, and they lead to higher ids. -/
structure Mounted (w : World) : Prop where
  covered : ∀ n r, (w.node n).mountRoot = some r →
    ∃ v, w.volumes.has v = true ∧ (w.volume v).root = r ∧ (w.volume v).point = some n
  given : ∀ v p, w.volumes.has v = true → (w.volume v).point = some p → p < w.nodes.nextKey
  mountRoot : ∀ v p, w.volumes.has v = true → (w.volume v).point = some p → w.Live p →
    (w.node p).mountRoot = some (w.volume v).root
  volumeId_lt : ∀ v p, w.volumes.has v = true → (w.volume v).point = some p → w.Live p →
    (w.node p).volumeId < (w.volume v).id
  isDirectory : ∀ n r, (w.node n).mountRoot = some r → w.isDirectory n = true
  bare : ∀ v, w.volumes.has v = true → (w.node (w.volume v).root).mountRoot = none
  root : (w.volume w.rootVolume).point = none

/-- Every context has a table of the instance's limit. -/
def Tabled (w : World) : Prop :=
  ∀ (c : ContextId) (context : Context), w.contexts[c]? = some context →
    context.files.Neat w.limits.handles

section

variable {w : World} {c : ContextId}

theorem context_of_getElem? {context : Context} (hget : w.contexts[c]? = some context) :
    w.context c = context := by
  rw [World.context, Array.getD_eq_getD_getElem?, hget, Option.getD_some]

theorem context_of_getElem?_none (hget : w.contexts[c]? = none) : w.context c = default := by
  rw [World.context, Array.getD_eq_getD_getElem?, hget, Option.getD_none]

/-- A context that is not there has no numbers to give. -/
theorem exists_context_of_reserve {reserved : Nat × ReservationTable FileId}
    (hreserve : (w.context c).files.reserve = some reserved) :
    ∃ context, w.contexts[c]? = some context := by
  refine Option.ne_none_iff_exists'.1 fun hnone => ?_
  rw [context_of_getElem?_none hnone] at hreserve
  cases hreserve

theorem Tabled.neat_of_reserve (h : w.Tabled) {reserved : Nat × ReservationTable FileId}
    (hreserve : (w.context c).files.reserve = some reserved) :
    (w.context c).files.Neat w.limits.handles := by
  obtain ⟨context, hget⟩ := exists_context_of_reserve hreserve
  rw [context_of_getElem? hget]
  exact h c context hget

end

section

variable {w : World} {n : NodeId}

theorem volumeOf_eq_some {v : VolumeKey} :
    w.volumeOf n = some v ↔ w.volumes.has v = true ∧ v = (w.node n).volume := by
  rw [World.volumeOf, Option.ite_none_right_eq_some, Option.some.injEq]
  constructor
  · rintro ⟨hhas, rfl⟩
    exact ⟨hhas, rfl⟩
  · rintro ⟨hhas, rfl⟩
    exact ⟨hhas, rfl⟩

theorem volumeOf_eq_ok {v : VolumeKey} :
    (VirtualFs.volumeOf n w).result = .ok v ↔ w.volumeOf n = some v := by
  rw [VirtualFs.volumeOf, Query.look_bind, Query.result_expect_eq_ok]

theorem opsOf_eq_ok {ops : OpsKind} :
    (opsOf n w).result = .ok ops ↔ (w.node n).ops = some ops := by
  rw [opsOf, Query.look_bind, Query.result_expect_eq_ok]

end

/-- What is held from outside the trees is there, and there is no driver but that of the memory
filesystem. -/
structure Held (w : World) : Prop where
  file : ∀ f file, w.files.get? f = some file → w.Live file.node
  cwd : ∀ (c : ContextId) context, w.contexts[c]? = some context → w.Live context.cwd
  pin : ∀ name n, w.pins.get? name = some n → w.Live n
  driver : ∀ name driver, w.drivers.get? name = some driver → driver = .ram
  table : w.Tabled

/-- A world of memory volumes as an instance keeps it. -/
structure WellFormed (w : World) : Prop where
  ram : ∀ n, w.Live n → (w.node n).IsRam
  numbered : w.Numbered
  rooted : w.Rooted
  linked : w.Linked
  mounted : w.Mounted
  held : w.Held

namespace WellFormed

variable {w : World} (h : w.WellFormed) {n d c : NodeId}

include h

/-! ## The root of everything -/

theorem live_root : w.Live w.rootNode := h.rooted.live _ h.rooted.rootVolume

/-- What a blank thing refers to is there. -/
theorem live_zero : w.Live 0 := h.rooted.rootNode ▸ h.live_root

/-! ## Volumes -/

theorem volumeOf_eq (hlive : w.Live n) : w.volumeOf n = some (w.node n).volume :=
  volumeOf_eq_some.2 ⟨h.numbered.volume n hlive, rfl⟩

theorem volumeOf_result (hlive : w.Live n) :
    (VirtualFs.volumeOf n w).result = .ok (w.node n).volume :=
  volumeOf_eq_ok.2 (h.volumeOf_eq hlive)

/-- The id tells volumes apart. -/
theorem volume_eq_iff {a b : NodeId} (ha : w.Live a) (hb : w.Live b) :
    (w.node a).volume = (w.node b).volume ↔ (w.node a).volumeId = (w.node b).volumeId := by
  rw [← h.numbered.volumeId a ha, ← h.numbered.volumeId b hb]
  exact ⟨fun heq => by rw [heq],
    h.numbered.id_inj _ _ (h.numbered.volume a ha) (h.numbered.volume b hb)⟩

/-- The number and the id of the volume tell nodes apart. -/
theorem sameIdentity_iff {a b : NodeId} (ha : w.Live a) (hb : w.Live b) :
    w.sameIdentity a b = true ↔ a = b := by
  rw [World.sameIdentity, Bool.and_eq_true, beq_iff_eq, beq_iff_eq, ← h.volume_eq_iff ha hb]
  refine ⟨fun ⟨hvolume, hino⟩ => h.numbered.ino_inj a b ha hb hvolume hino, ?_⟩
  intro heq
  subst heq
  exact ⟨rfl, rfl⟩

theorem volume_rootNode : (w.node w.rootNode).volume = w.rootVolume :=
  h.rooted.volume _ h.rooted.rootVolume

/-- The root of everything is the root of the volume with the first id. -/
theorem eq_rootNode_iff (hn : w.Live n) :
    n = w.rootNode ↔ n = (w.volume (w.node n).volume).root ∧
      (w.volume (w.node n).volume).id = rootVolumeId := by
  constructor
  · intro heq
    subst heq
    rw [h.volume_rootNode]
    exact ⟨rfl, h.rooted.rootId⟩
  · intro hboth
    obtain ⟨hroot, hid⟩ := hboth
    have hvolume : (w.node n).volume = w.rootVolume := by
      refine h.numbered.id_inj _ _ (h.numbered.volume n hn) h.rooted.rootVolume ?_
      rw [hid, h.rooted.rootId]
    rwa [hvolume] at hroot

/-! ## Entries -/

theorem hangs_of_entry {name : String} (hentry : w.Entry d name c) : w.Hangs c d :=
  ⟨h.linked.parent d name c hentry, hentry.live⟩

theorem volume_of_entry {name : String} (hentry : w.Entry d name c) :
    (w.node c).volume = (w.node d).volume :=
  h.linked.volume c d (h.hangs_of_entry hentry)

theorem volumeId_of_entry {name : String} (hentry : w.Entry d name c) :
    (w.node c).volumeId = (w.node d).volumeId :=
  (h.volume_eq_iff (h.linked.live d name c hentry) hentry.live).1 (h.volume_of_entry hentry)

theorem isDirectory_of_entry {name : String} (hentry : w.Entry d name c) :
    w.isDirectory d = true :=
  h.linked.isDirectory c d (h.hangs_of_entry hentry)

/-- A node is listed at most once. -/
theorem entry_unique {d' : NodeId} {name name' : String} (hentry : w.Entry d name c)
    (hentry' : w.Entry d' name' c) : d = d' ∧ name = name' := by
  obtain rfl : d = d' := Option.some.inj
    ((h.linked.parent d name c hentry).symm.trans (h.linked.parent d' name' c hentry'))
  exact ⟨rfl, h.linked.name_inj d name name' c hentry hentry'⟩

/-- No directory lists the root of a volume. -/
theorem not_entry_root {v : VolumeKey} (hv : w.volumes.has v = true) {name : String} :
    ¬w.Entry d name (w.volume v).root := fun hentry => by
  have hparent := h.linked.parent d name _ hentry
  rw [h.rooted.parent v hv] at hparent
  cases hparent

/-! ## Mounts -/

omit h in
theorem cross_of_mountRoot {r : NodeId} (hroot : (w.node n).mountRoot = some r) :
    w.cross n = r := by
  rw [World.cross, hroot, Option.getD_some]

theorem live_mountRoot {r : NodeId} (hroot : (w.node n).mountRoot = some r) : w.Live r := by
  obtain ⟨v, hv, rfl, -⟩ := h.mounted.covered n r hroot
  exact h.rooted.live v hv

/-- Only directories carry volumes. -/
theorem mountRoot_of_not_isDirectory (hdir : w.isDirectory n = false) :
    (w.node n).mountRoot = none := by
  cases hroot : (w.node n).mountRoot with
  | none => rfl
  | some r =>
    rw [h.mounted.isDirectory n r hroot] at hdir
    cases hdir

/-- A mount leads to a higher volume. -/
theorem volumeId_lt_of_mountRoot {r : NodeId} (hroot : (w.node n).mountRoot = some r) :
    (w.node n).volumeId < (w.node r).volumeId := by
  have hlive := h.live_mountRoot hroot
  obtain ⟨v, hv, rfl, hpoint⟩ := h.mounted.covered n r hroot
  have hlt := h.mounted.volumeId_lt v n hv hpoint (live_of_mountRoot hroot)
  rwa [← h.numbered.volumeId _ hlive, h.rooted.volume v hv]

/-- A volume is mounted in one place. -/
theorem mountRoot_inj {r : NodeId} (hn : (w.node n).mountRoot = some r)
    (hc : (w.node c).mountRoot = some r) : n = c := by
  obtain ⟨v, hv, hroot, hpoint⟩ := h.mounted.covered n r hn
  obtain ⟨v', hv', hroot', hpoint'⟩ := h.mounted.covered c r hc
  obtain rfl : v = v' := by rw [← h.rooted.volume v hv, hroot, ← hroot', h.rooted.volume v' hv']
  exact Option.some.inj (hpoint.symm.trans hpoint')

theorem live_cross (hlive : w.Live n) : w.Live (w.cross n) := by
  rw [World.cross]
  cases hroot : (w.node n).mountRoot with
  | none => exact hlive
  | some r => exact h.live_mountRoot hroot

/-- What is seen at a node is covered by nothing. -/
theorem cross_cross (n : NodeId) : w.cross (w.cross n) = w.cross n := by
  cases hroot : (w.node n).mountRoot with
  | none =>
    have hself : w.cross n = n := by rw [World.cross, hroot, Option.getD_none]
    rw [hself, hself]
  | some r =>
    obtain ⟨v, hv, rfl, -⟩ := h.mounted.covered n r hroot
    rw [cross_of_mountRoot hroot, World.cross, h.mounted.bare v hv, Option.getD_none]

/-- Nothing covers the root of everything. -/
theorem cross_root : w.cross w.rootNode = w.rootNode :=
  congrArg (·.getD w.rootNode) (h.mounted.bare _ h.rooted.rootVolume)

theorem isDirectory_cross (hdir : w.isDirectory n = true) : w.isDirectory (w.cross n) = true := by
  rw [World.cross]
  cases hroot : (w.node n).mountRoot with
  | none => exact hdir
  | some r =>
    obtain ⟨v, hv, rfl, -⟩ := h.mounted.covered n r hroot
    exact h.rooted.isDirectory v hv

omit h in
theorem live_mountPoint {v : VolumeKey} (hpoint : w.mountPoint v = some n) : w.Live n := by
  rw [World.mountPoint, Option.filter_eq_some_iff, Bool.and_eq_true] at hpoint
  exact hpoint.2.1

end WellFormed

end World

end VirtualFs
