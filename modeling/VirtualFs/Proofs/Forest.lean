/-
The trees of every reachable world are trees: also below a directory that was
removed while somebody still held it, and whatever was mounted, moved or
renamed in between. The pieces come from `WellFormed`; here they are put
together as they are read off a world.
-/
import VirtualFs.Proofs.Extension
import VirtualFs.Proofs.Reachable

namespace VirtualFs

namespace World

/-- What makes trees of the nodes of a world. It is said of all nodes that are there, whether a
root still leads to them or not. -/
structure Forest (w : World) : Prop where
  /-- A node is listed at most once, -/
  entry_unique : ∀ d d' a b c, w.Entry d a c → w.Entry d' b c → d = d' ∧ a = b
  /-- and the root of a volume never. -/
  entry_root : ∀ v d a, w.volumes.has v = true → ¬w.Entry d a (w.volume v).root
  /-- What a directory lists is there, is of the directory's volume and leads back to it. -/
  entry : ∀ d a c, w.Entry d a c →
    w.Live c ∧ (w.node c).volumeId = (w.node d).volumeId ∧ (RamFs.containerOf c w).result = .ok d
  /-- Only directories list anything, under names that can be looked up. -/
  name : ∀ d a c, w.Entry d a c → w.isDirectory d = true ∧ IsEntryName a
  /-- The directory a node was put in is one of the node's volume, as long as it is there. -/
  hangs : ∀ n d, w.parent n = some d → w.Live d →
    w.isDirectory d = true ∧ (w.node n).volumeId = (w.node d).volumeId
  /-- A way up takes the steps the filesystem takes. -/
  up : ∀ n, w.Live n → (RamFs.containerOf n w).result = .ok (w.up n)
  /-- Every way up comes to an end, -/
  ends : ∀ n, w.Live n → ∃ k, w.up (w.up^[k] n) = w.up^[k] n
  /-- meets a node again only there, -/
  again : ∀ n i j, w.Live n → i < j → w.up^[i] n = w.up^[j] n → w.up (w.up^[i] n) = w.up^[i] n
  /-- and the end is the root of a volume or a node whose directory is gone. -/
  top : ∀ n, w.Live n → w.up n = n →
    (∃ v, w.volumes.has v = true ∧ n = (w.volume v).root) ∨
      ∃ d, w.parent n = some d ∧ ¬w.Live d
  /-- A number is below the next one of its volume, -/
  ino_lt : ∀ n, w.Live n →
    ∃ v next, w.volumeOf n = some v ∧ (w.volume v).id = (w.node n).volumeId ∧
      (w.volume v).nextIno = some next ∧ (w.node n).ino < next
  /-- and no two nodes of a volume have the same. -/
  ino_inj : ∀ a b, w.Live a → w.Live b → (w.node a).volumeId = (w.node b).volumeId →
    (w.node a).ino = (w.node b).ino → a = b
  /-- The type in the mode is that of what the node holds. -/
  type : ∀ n, w.Live n → ∃ ram, (w.node n).payload = .ram ram ∧
    Mode.typeBits (w.node n).mode = ram.content.type

/-- A way up that goes round in no circle comes to an end. -/
theorem exists_up_eq {w : World} {n : NodeId} (hacc : Acc (fun d n => w.Hangs n d) n) :
    ∃ k, w.up (w.up^[k] n) = w.up^[k] n := by
  induction hacc with
  | intro n _ ih =>
    rcases w.hangs_or_up_eq n with hangs | ⟨hself, -⟩
    · obtain ⟨k, hk⟩ := ih _ hangs
      exact ⟨k + 1, by rwa [Function.iterate_succ_apply]⟩
    · exact ⟨0, hself⟩

theorem not_hangs_self {w : World} {n : NodeId} (hacc : Acc (fun d n => w.Hangs n d) n) :
    ¬w.Hangs n n := by
  induction hacc with
  | intro n _ ih => exact fun hangs => ih n hangs hangs

theorem WellFormed.top {w : World} (h : w.WellFormed) {n : NodeId} (hn : w.Live n)
    (hup : w.up n = n) :
    (∃ v, w.volumes.has v = true ∧ n = (w.volume v).root) ∨
      ∃ d, w.parent n = some d ∧ ¬w.Live d := by
  cases hparent : w.parent n with
  | none => exact .inl ⟨_, h.numbered.volume n hn, h.rooted.orphan n hn hparent⟩
  | some d =>
    refine .inr ⟨d, rfl, fun hd => ?_⟩
    have hangs : w.Hangs n d := ⟨hparent, hd⟩
    obtain rfl : n = d := hup.symm.trans (up_eq_of_hangs hangs)
    exact not_hangs_self (h.linked.acc n hn) hangs

theorem WellFormed.forest {w : World} (h : w.WellFormed) : w.Forest where
  entry_unique _ _ _ _ _ he he' := h.entry_unique he he'
  entry_root _ _ _ hv := h.not_entry_root hv
  entry d a c he := by
    have hlive := h.linked.live d a c he
    refine ⟨hlive, h.volumeId_of_entry he, ?_⟩
    rw [RamFs.containerOf_result h hlive, up_eq_of_hangs (h.hangs_of_entry he)]
  name d a c he := ⟨h.isDirectory_of_entry he, h.linked.name d a c he⟩
  hangs n d hn hd := ⟨h.linked.isDirectory n d ⟨hn, hd⟩,
    (h.volume_eq_iff (live_of_parent hn) hd).1 (h.linked.volume n d ⟨hn, hd⟩)⟩
  up _ hn := RamFs.containerOf_result h hn
  ends n hn := exists_up_eq (h.linked.acc n hn)
  again _ _ _ hn hlt heq := up_eq_of_iterate_eq_iterate h.linked.acc hn hlt heq
  top _ hn hup := h.top hn hup
  ino_lt n hn := by
    obtain ⟨next, hnext, hlt⟩ := h.numbered.ino_lt n hn
    exact ⟨_, next, h.volumeOf_eq hn, h.numbered.volumeId n hn, hnext, hlt⟩
  ino_inj a b ha hb hvolume hino :=
    h.numbered.ino_inj a b ha hb ((h.volume_eq_iff ha hb).2 hvolume) hino
  type n hn := ⟨_, (h.ram n hn).payload, (h.ram n hn).type⟩

end World

/-- **The trees stay trees, and no number is given out twice.** In every reachable world the nodes
that are there form trees. Whatever operations follow, a node that has the volume and the number of
an earlier one is that node, and a node that was made in between has a number that its volume had
still to give. -/
theorem reachable_forest {w w' : World} (hw : w.Reachable) (hsteps : w.Steps w') :
    (w.Forest ∧ w'.Forest) ∧
    (∀ n m, w.Live n → w'.Live m → (w'.node m).volumeId = (w.node n).volumeId →
      (w'.node m).ino = (w.node n).ino → m = n) ∧
    ∀ m v next, w'.Live m → ¬w.Live m → w.volumes.has v = true →
      (w'.node m).volumeId = (w.volume v).id → (w.volume v).nextIno = some next →
      next ≤ (w'.node m).ino := by
  have h := hw.wellFormed
  have h' := (hw.steps hsteps).wellFormed
  have hext := (hsteps.edits h).extends h
  refine ⟨⟨h.forest, h'.forest⟩, fun n m hn hm hvolume hino =>
    hext.eq_of_identity h h' hn hm hvolume hino, fun m v next hm hdead hv hid hnext => ?_⟩
  obtain ⟨hv', hid'⟩ := hext.volume v hv
  have hvolume : (w'.node m).volume = v := by
    refine h'.numbered.id_inj _ _ (h'.numbered.volume m hm) hv' ?_
    rw [h'.numbered.volumeId m hm, hid, hid']
  have hnew : w.nodes.nextKey ≤ m := by
    refine Nat.le_of_not_lt fun hlt => hdead ?_
    exact (hext.old m hlt hm).1
  exact hext.new m next hnew hm (by rwa [hvolume]) (by rwa [hvolume])

/-- A directory in a directory, with the task inside, beside a mounted volume. -/
def World.nested : World :=
  Operation.runAll
    [.addTask 0, .makeDirectory 0 none "/a" 0o755, .makeDirectory 0 none "/a/b" 0o755,
      .changeDirectory 0 "/a/b", .makeDirectory 0 none "/m" 0o700,
      .mount 0 "none" "/m" "tmpfs" {} ""]
    (World.fresh {})

/-- Both directories were removed and the outer one is gone; a file was moved on the volume. -/
def World.hollowed : World :=
  Operation.runAll
    [.removeDirectory 0 none "/a/b", .removeDirectory 0 none "/a",
      .openPath 0 none "/m/f" ⟨OpenFlags.createBit⟩ 0o644, .makeSymlink 0 none "/m/l" "f",
      .rename 0 none "/m/f" none "/m/g"]
    World.nested

theorem reachable_forest_of_removed :
    (World.nested.Reachable ∧ World.nested.Steps World.hollowed) ∧
    (World.hollowed.parent 3 = some 2 ∧ ¬World.hollowed.Live 2 ∧ World.hollowed.Live 3) ∧
      World.nested.Forest ∧ World.hollowed.Forest :=
  ⟨⟨⟨{}, World.steps_runAll _ _⟩, World.steps_runAll _ _⟩, by decide +kernel,
    (reachable_forest ⟨{}, World.steps_runAll _ _⟩ (World.steps_runAll _ _)).1⟩

end VirtualFs
