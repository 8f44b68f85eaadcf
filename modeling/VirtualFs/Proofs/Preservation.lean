/-
Every edit keeps a world well-formed. Changes that keep who the nodes are
(`Alike`) are told apart from those that make or take away nodes; the former
have only their own links or mounts to answer for.
-/
import VirtualFs.Proofs.Edit

namespace VirtualFs

namespace World

/-! ## Changes that keep who the nodes are -/

/-- Both worlds have the same nodes and volumes, though the nodes may hang elsewhere, list other
children and carry other volumes. -/
structure Alike (w w' : World) : Prop where
  nextKey : w'.nodes.nextKey = w.nodes.nextKey
  live : ∀ n, w'.Live n ↔ w.Live n
  ino : ∀ n, (w'.node n).ino = (w.node n).ino
  volume : ∀ n, (w'.node n).volume = (w.node n).volume
  volumeId : ∀ n, (w'.node n).volumeId = (w.node n).volumeId
  isDirectory : ∀ n, w'.isDirectory n = w.isDirectory n
  orphan : ∀ n, w'.parent n = none ↔ w.parent n = none
  hasVolume : ∀ v, w'.volumes.has v = w.volumes.has v
  id : ∀ v, (w'.volume v).id = (w.volume v).id
  root : ∀ v, (w'.volume v).root = (w.volume v).root
  nextIno : ∀ v, (w'.volume v).nextIno = (w.volume v).nextIno
  rootVolume : w'.rootVolume = w.rootVolume
  nextVolumeId : w.nextVolumeId ≤ w'.nextVolumeId

section

variable {w w' : World} (s : w.Alike w')

include s

theorem Numbered.of_alike (h : w.Numbered) : w'.Numbered where
  volume n hn := by rw [s.hasVolume, s.volume]; exact h.volume n ((s.live n).1 hn)
  volumeId n hn := by rw [s.id, s.volume, s.volumeId]; exact h.volumeId n ((s.live n).1 hn)
  ino_lt n hn := by rw [s.nextIno, s.volume, s.ino]; exact h.ino_lt n ((s.live n).1 hn)
  ino_inj a b ha hb := by
    rw [s.volume, s.volume, s.ino, s.ino]
    exact h.ino_inj a b ((s.live a).1 ha) ((s.live b).1 hb)
  id_lt v hv := by
    rw [s.hasVolume] at hv
    rw [s.id]
    exact Nat.lt_of_lt_of_le (h.id_lt v hv) s.nextVolumeId
  id_inj u v hu hv := by
    rw [s.hasVolume] at hu hv
    rw [s.id, s.id]
    exact h.id_inj u v hu hv

theorem Rooted.of_alike (h : w.Rooted) : w'.Rooted where
  live v hv := by
    rw [s.hasVolume] at hv
    rw [s.root, s.live]
    exact h.live v hv
  volume v hv := by
    rw [s.hasVolume] at hv
    rw [s.root, s.volume]
    exact h.volume v hv
  parent v hv := by
    rw [s.hasVolume] at hv
    rw [s.root, s.orphan]
    exact h.parent v hv
  isDirectory v hv := by
    rw [s.hasVolume] at hv
    rw [s.root, s.isDirectory]
    exact h.isDirectory v hv
  orphan n hn hnone := by
    rw [s.root, s.volume]
    exact h.orphan n ((s.live n).1 hn) ((s.orphan n).1 hnone)
  rootVolume := by rw [s.rootVolume, s.hasVolume]; exact h.rootVolume
  rootId := by rw [s.rootVolume, s.id]; exact h.rootId
  rootNode := by rw [World.rootNode, s.rootVolume, s.root]; exact h.rootNode

theorem Alike.hangs_eq (hparent : ∀ n, w'.parent n = w.parent n) : w'.Hangs = w.Hangs := by
  funext n d
  rw [Hangs, Hangs, hparent, s.live]

/-- Links stay right where nothing hangs elsewhere or lists something else. -/
theorem Linked.of_alike (hchildren : ∀ n, w'.children n = w.children n)
    (hparent : ∀ n, w'.parent n = w.parent n) (h : w.Linked) : w'.Linked := by
  have hentry : ∀ d name c, w'.Entry d name c ↔ w.Entry d name c := fun d name c => by
    rw [Entry, Entry, hchildren]
  have hhangs := s.hangs_eq hparent
  exact
    { live := fun d name c hc => (s.live c).2 (h.live d name c ((hentry d name c).1 hc))
      parent := fun d name c hc => by rw [hparent]; exact h.parent d name c ((hentry d name c).1 hc)
      name := fun d name c hc => h.name d name c ((hentry d name c).1 hc)
      name_inj := fun d a b c ha hb =>
        h.name_inj d a b c ((hentry d a c).1 ha) ((hentry d b c).1 hb)
      isDirectory := fun n d hn => by
        rw [hhangs] at hn
        rw [s.isDirectory]
        exact h.isDirectory n d hn
      volume := fun n d hn => by
        rw [hhangs] at hn
        rw [s.volume, s.volume]
        exact h.volume n d hn
      given := fun n d hn => by
        rw [hparent] at hn
        rw [s.nextKey]
        exact h.given n d hn
      acc := fun n hn => by
        rw [hhangs]
        exact h.acc n ((s.live n).1 hn) }

/-- Mounts stay right where no volume is put on a node or taken off. -/
theorem Mounted.of_alike (hmount : ∀ n, (w'.node n).mountRoot = (w.node n).mountRoot)
    (hpoint : ∀ v, (w'.volume v).point = (w.volume v).point) (h : w.Mounted) : w'.Mounted where
  covered n r hr := by
    rw [hmount] at hr
    obtain ⟨v, hv, hroot, hp⟩ := h.covered n r hr
    exact ⟨v, by rwa [s.hasVolume], by rwa [s.root], by rwa [hpoint]⟩
  given v p hv hp := by
    rw [s.hasVolume] at hv
    rw [hpoint] at hp
    rw [s.nextKey]
    exact h.given v p hv hp
  mountRoot v p hv hp hlive := by
    rw [s.hasVolume] at hv
    rw [hpoint] at hp
    rw [hmount, s.root]
    exact h.mountRoot v p hv hp ((s.live p).1 hlive)
  volumeId_lt v p hv hp hlive := by
    rw [s.hasVolume] at hv
    rw [hpoint] at hp
    rw [s.volumeId, s.id]
    exact h.volumeId_lt v p hv hp ((s.live p).1 hlive)
  isDirectory n r hr := by
    rw [hmount] at hr
    rw [s.isDirectory]
    exact h.isDirectory n r hr
  bare v hv := by
    rw [s.hasVolume] at hv
    rw [s.root, hmount]
    exact h.bare v hv
  root := by rw [s.rootVolume, hpoint]; exact h.root

theorem Held.of_alike (hfiles : w'.files = w.files) (hcontexts : w'.contexts = w.contexts)
    (hpins : w'.pins = w.pins) (hdrivers : w'.drivers = w.drivers) (hlimits : w'.limits = w.limits)
    (h : w.Held) : w'.Held where
  file f file hf := by
    rw [hfiles] at hf
    exact (s.live _).2 (h.file f file hf)
  cwd c context hc := by
    rw [hcontexts] at hc
    exact (s.live _).2 (h.cwd c context hc)
  pin name n hn := by
    rw [hpins] at hn
    exact (s.live _).2 (h.pin name n hn)
  driver name driver hd := by
    rw [hdrivers] at hd
    exact h.driver name driver hd
  table c context hc := by
    rw [hcontexts] at hc
    rw [hlimits]
    exact h.table c context hc

end

section

variable {w : World} (h : w.WellFormed) {n d c : NodeId} {name : String} {f : Node → Node}

theorem alike_setNode (hn : w.Live n) (hino : (f (w.node n)).ino = (w.node n).ino)
    (hvolume : (f (w.node n)).volume = (w.node n).volume)
    (hvolumeId : (f (w.node n)).volumeId = (w.node n).volumeId)
    (hdir : Mode.isDirectory (f (w.node n)).mode = Mode.isDirectory (w.node n).mode)
    (horphan : (f (w.node n)).ram.parent = none ↔ (w.node n).ram.parent = none) :
    w.Alike (w.setNode n f) where
  nextKey := nextKey_setNode
  live _ := live_setNode
  ino := view_setNode Node.ino hn hino
  volume := view_setNode Node.volume hn hvolume
  volumeId := view_setNode Node.volumeId hn hvolumeId
  isDirectory := view_setNode (fun node => Mode.isDirectory node.mode) hn hdir
  orphan m := by
    have hview := view_setNode (f := f) (fun node => (node.ram.parent = none : Prop)) hn
      (propext horphan) m
    exact iff_of_eq hview
  hasVolume _ := rfl
  id _ := rfl
  root _ := rfl
  nextIno _ := rfl
  rootVolume := rfl
  nextVolumeId := Nat.le_refl _

theorem isRam_setNode (hram : ∀ n, w.Live n → (w.node n).IsRam) (hn : w.Live n)
    (hnode : (f (w.node n)).IsRam) (m : NodeId) (hm : (w.setNode n f).Live m) :
    ((w.setNode n f).node m).IsRam := by
  rw [node_setNode hn]
  split
  · exact hnode
  · exact hram m (live_setNode.1 hm)

include h

/-- A change to one node that leaves alone who it is and what is mounted on it; the links are left
to show. -/
theorem WellFormed.setNode (hn : w.Live n) (s : w.Alike (w.setNode n f))
    (hmount : (f (w.node n)).mountRoot = (w.node n).mountRoot) (hram : (f (w.node n)).IsRam)
    (hlinked : (w.setNode n f).Linked) : (w.setNode n f).WellFormed where
  ram := isRam_setNode h.ram hn hram
  numbered := h.numbered.of_alike s
  rooted := h.rooted.of_alike s
  linked := hlinked
  mounted := h.mounted.of_alike s (view_setNode Node.mountRoot hn hmount) fun _ => rfl
  held := h.held.of_alike s rfl rfl rfl rfl rfl

theorem WellFormed.touched (hn : w.Live n) (ht : (w.node n).Touched (f (w.node n))) :
    (w.setNode n f).WellFormed := by
  have s := alike_setNode hn ht.ino ht.volume ht.volumeId ht.isDirectory (by rw [ht.parent])
  exact h.setNode hn s ht.mountRoot ht.isRam (h.linked.of_alike s
    (view_setNode (fun node => node.payload.children) hn ht.children)
    (view_setNode (fun node => node.ram.parent) hn ht.parent))

/-! ## Listing and unlisting -/

/-- A directory with other children. -/
theorem mapRam_children (hd : w.isDirectory d = true) (children : NameMap NodeId) :
    (w.node d).mapRam (fun ram => { ram with content := .directory children }) =
      { w.node d with payload := .ram { (w.node d).ram with content := .directory children } } :=
  (h.ram d (live_of_isDirectory hd)).mapRam _

theorem alike_setChildren (hd : w.isDirectory d = true) (children : NameMap NodeId) :
    w.Alike (w.setChildren d children) := by
  refine alike_setNode (live_of_isDirectory hd) ?_ ?_ ?_ ?_ ?_
  all_goals rw [mapRam_children h hd]
  rfl

theorem children_setChildren (hd : w.isDirectory d = true) (children : NameMap NodeId)
    (m : NodeId) :
    (w.setChildren d children).children m = if m = d then children else w.children m := by
  rw [World.children, setChildren, node_setNode (live_of_isDirectory hd)]
  split
  · rw [mapRam_children h hd]
    rfl
  · rfl

theorem parent_setChildren (hd : w.isDirectory d = true) (children : NameMap NodeId) (m : NodeId) :
    (w.setChildren d children).parent m = w.parent m := by
  refine view_setNode (fun node => node.ram.parent) (live_of_isDirectory hd) ?_ m
  simp only [mapRam_children h hd]
  rfl

theorem WellFormed.setChildren (hd : w.isDirectory d = true) (children : NameMap NodeId)
    (hlinked : (w.setChildren d children).Linked) : (w.setChildren d children).WellFormed := by
  have hlive := live_of_isDirectory hd
  refine h.setNode hlive (alike_setChildren h hd children) ?_ ?_ hlinked
  · rw [mapRam_children h hd]
  · have hram := h.ram d hlive
    rw [mapRam_children h hd]
    exact ⟨rfl, hram.driver, beq_iff_eq.1 hd, .inl (hram.ops_of_isDirectory hd)⟩

/-- Where nothing hangs elsewhere, links stay right if every entry is an old one, or else one that
points back and is listed nowhere else. -/
theorem Linked.setChildren (hd : w.isDirectory d = true) {children : NameMap NodeId}
    (hentry : ∀ name c, children.get? name = some c →
      w.Live c ∧ w.parent c = some d ∧ IsEntryName name)
    (hinj : ∀ a b c, children.get? a = some c → children.get? b = some c → a = b) :
    (w.setChildren d children).Linked := by
  have s := alike_setChildren h hd children
  have hparent := parent_setChildren h hd children
  have hhangs := s.hangs_eq hparent
  have hcases : ∀ {e name c}, (w.setChildren d children).Entry e name c →
      e = d ∧ children.get? name = some c ∨ e ≠ d ∧ w.Entry e name c := by
    intro e name c he
    rw [Entry, children_setChildren h hd] at he
    split at he
    · next heq => exact .inl ⟨heq, he⟩
    · next hne => exact .inr ⟨hne, he⟩
  refine ⟨fun e name c he => ?_, fun e name c he => ?_, fun e name c he => ?_,
    fun e a b c ha hb => ?_, fun n e hn => ?_, fun n e hn => ?_, fun n e hn => ?_, fun n hn => ?_⟩
  · rw [s.live]
    rcases hcases he with ⟨-, hnew⟩ | ⟨-, hold⟩
    · exact (hentry name c hnew).1
    · exact h.linked.live e name c hold
  · rw [hparent]
    rcases hcases he with ⟨rfl, hnew⟩ | ⟨-, hold⟩
    · exact (hentry name c hnew).2.1
    · exact h.linked.parent e name c hold
  · rcases hcases he with ⟨-, hnew⟩ | ⟨-, hold⟩
    · exact (hentry name c hnew).2.2
    · exact h.linked.name e name c hold
  · rcases hcases ha with ⟨heq, hnewa⟩ | ⟨hne, holda⟩
    · obtain ⟨-, hnewb⟩ := (hcases hb).resolve_right fun hold => hold.1 heq
      exact hinj a b c hnewa hnewb
    · obtain ⟨-, holdb⟩ := (hcases hb).resolve_left fun hnew => hne hnew.1
      exact h.linked.name_inj e a b c holda holdb
  · rw [hhangs] at hn
    rw [s.isDirectory]
    exact h.linked.isDirectory n e hn
  · rw [hhangs] at hn
    rw [s.volume, s.volume]
    exact h.linked.volume n e hn
  · rw [hparent] at hn
    rw [s.nextKey]
    exact h.linked.given n e hn
  · rw [hhangs]
    exact h.linked.acc n ((s.live n).1 hn)

theorem WellFormed.unlisted (hd : w.isDirectory d = true) (name : String) :
    (w.setChildren d ((w.children d).erase name)).WellFormed := by
  have hold : ∀ a c, ((w.children d).erase name).get? a = some c → w.Entry d a c := by
    intro a c ha
    rw [NameMap.get?_erase] at ha
    split at ha
    · cases ha
    · exact ha
  refine h.setChildren hd _ (Linked.setChildren h hd (fun a c ha => ?_) fun a b c ha hb => ?_)
  · have he := hold a c ha
    exact ⟨h.linked.live d a c he, h.linked.parent d a c he, h.linked.name d a c he⟩
  · exact h.linked.name_inj d a b c (hold a c ha) (hold b c hb)

theorem WellFormed.listed (hd : w.isDirectory d = true) (hn : w.parent n = some d)
    (hfree : ∀ a, ¬w.Entry d a n) (hname : IsEntryName name) :
    (w.setChildren d ((w.children d).insert name n)).WellFormed := by
  have hcases : ∀ a c, ((w.children d).insert name n).get? a = some c →
      a = name ∧ c = n ∨ w.Entry d a c := by
    intro a c ha
    rw [NameMap.get?_insert] at ha
    split at ha
    · next heq => exact .inl ⟨heq, (Option.some.inj ha).symm⟩
    · exact .inr ha
  refine h.setChildren hd _ (Linked.setChildren h hd (fun a c ha => ?_) fun a b c ha hb => ?_)
  · rcases hcases a c ha with ⟨rfl, rfl⟩ | he
    · exact ⟨live_of_parent hn, hn, hname⟩
    · exact ⟨h.linked.live d a c he, h.linked.parent d a c he, h.linked.name d a c he⟩
  · rcases hcases a c ha with ⟨rfl, rfl⟩ | holda
    · rcases hcases b c hb with ⟨rfl, -⟩ | holdb
      · rfl
      · exact absurd holdb (hfree b)
    · rcases hcases b c hb with ⟨-, rfl⟩ | holdb
      · exact absurd holda (hfree a)
      · exact h.linked.name_inj d a b c holda holdb

/-! ## Turning -/

theorem mapRam_parent (hn : w.Live n) (d : NodeId) :
    (w.node n).mapRam (fun ram => { ram with parent := some d }) =
      { w.node n with payload := .ram { (w.node n).ram with parent := some d } } :=
  (h.ram n hn).mapRam _

omit h in
theorem children_setParent (hn : w.Live n) (d m : NodeId) :
    (w.setParent n d).children m = w.children m :=
  view_setNode (fun node => node.payload.children) hn (Node.children_mapRam rfl) m

theorem parent_setParent (hn : w.Live n) (d m : NodeId) :
    (w.setParent n d).parent m = if m = n then some d else w.parent m := by
  rw [World.parent, setParent, node_setNode hn]
  split
  · rw [mapRam_parent h hn]
    rfl
  · rfl

theorem alike_setParent {p : NodeId} (hn : w.parent n = some p) (d : NodeId) :
    w.Alike (w.setParent n d) := by
  have hlive := live_of_parent hn
  refine alike_setNode hlive ?_ ?_ ?_ ?_ ?_
  all_goals rw [mapRam_parent h hlive]
  refine iff_of_false (fun hnone => by cases hnone) fun hnone => ?_
  rw [World.parent, hnone] at hn
  cases hn

/-- Turning a node to a directory that is not below it closes no circle. -/
theorem acc_setParent (hn : w.Live n) (hd : w.Live d) (habove : ¬w.Above n d) {m : NodeId}
    (hm : w.Live m) : Acc (fun e m => (w.setParent n d).Hangs m e) m := by
  have hcases : ∀ {m e}, (w.setParent n d).Hangs m e → m = n ∧ e = d ∨ m ≠ n ∧ w.Hangs m e := by
    rintro m e ⟨hparent, he⟩
    rw [parent_setParent h hn] at hparent
    split at hparent
    · next heq => exact .inl ⟨heq, (Option.some.inj hparent).symm⟩
    · next hne => exact .inr ⟨hne, hparent, live_setNode.1 he⟩
  -- The way up from the new directory does not come by the turned node, so it is the old one.
  have hclear : ∀ m, Acc (fun e m => w.Hangs m e) m → ¬w.Above n m →
      Acc (fun e m => (w.setParent n d).Hangs m e) m := by
    intro m hacc
    induction hacc with
    | intro m _ ih =>
      intro hnot
      refine Acc.intro m fun e he => ?_
      rcases hcases he with ⟨rfl, -⟩ | ⟨-, hold⟩
      · exact absurd .refl hnot
      · exact ih e hold fun hup => hnot (hup.head hold)
  induction h.linked.acc m hm with
  | intro m _ ih =>
    refine Acc.intro m fun e he => ?_
    rcases hcases he with ⟨-, rfl⟩ | ⟨-, hold⟩
    · exact hclear _ (h.linked.acc _ hd) habove
    · exact ih e hold hold.2

theorem WellFormed.turned {p : NodeId} (hn : w.parent n = some p) (hd : w.isDirectory d = true)
    (hvolume : (w.node n).volume = (w.node d).volume) (hfree : ∀ d' a, ¬w.Entry d' a n)
    (habove : ¬w.Above n d) : (w.setParent n d).WellFormed := by
  have hlive := live_of_parent hn
  have hdir := live_of_isDirectory hd
  have s := alike_setParent h hn d
  have hparent := parent_setParent h hlive d
  have hentry : ∀ e a c, (w.setParent n d).Entry e a c ↔ w.Entry e a c := fun e a c => by
    rw [Entry, Entry, children_setParent hlive]
  have hlinked : (w.setParent n d).Linked := by
    refine ⟨fun e a c he => ?_, fun e a c he => ?_, fun e a c he => ?_, fun e a b c ha hb => ?_,
      fun m e hm => ?_, fun m e hm => ?_, fun m e hm => ?_, fun m hm => ?_⟩
    · exact (s.live c).2 (h.linked.live e a c ((hentry e a c).1 he))
    · rw [hentry] at he
      have hne : c ≠ n := by
        intro heq
        subst heq
        exact hfree e a he
      rw [hparent, if_neg hne]
      exact h.linked.parent e a c he
    · exact h.linked.name e a c ((hentry e a c).1 he)
    · exact h.linked.name_inj e a b c ((hentry e a c).1 ha) ((hentry e b c).1 hb)
    · rw [Hangs, hparent] at hm
      rw [s.isDirectory]
      split at hm
      · cases hm.1
        exact hd
      · exact h.linked.isDirectory m e ⟨hm.1, (s.live e).1 hm.2⟩
    · rw [Hangs, hparent] at hm
      rw [s.volume, s.volume]
      split at hm
      · next heq =>
        cases hm.1
        rwa [heq]
      · exact h.linked.volume m e ⟨hm.1, (s.live e).1 hm.2⟩
    · rw [hparent] at hm
      rw [s.nextKey]
      split at hm
      · cases hm
        exact hdir.lt
      · exact h.linked.given m e hm
    · exact acc_setParent h hlive hdir habove ((s.live m).1 hm)
  refine h.setNode hlive s ?_ ?_ hlinked
  · rw [mapRam_parent h hlive]
  · have hram := h.ram n hlive
    rw [mapRam_parent h hlive]
    exact ⟨rfl, hram.driver, hram.type, hram.ops⟩

end

/-! ## Sweeping

What a sweep leaves reads as before; what it takes reads as a blank. -/

section

variable {w : World} {n d c : NodeId}

theorem live_of_sweep (h : w.sweep.Live n) : w.Live n := (live_sweep.1 h).1

theorem entry_of_sweep {name : String} (h : w.sweep.Entry d name c) : w.Entry d name c := by
  rw [Entry, children, ← node_sweep h.live]
  exact h

theorem parent_of_sweep (h : w.sweep.parent n = some d) : w.parent n = some d := by
  rw [parent, ← node_sweep (live_of_parent h)]
  exact h

theorem hangs_of_sweep (h : w.sweep.Hangs n d) : w.Hangs n d :=
  ⟨parent_of_sweep h.1, live_of_sweep h.2⟩

theorem mountRoot_of_sweep {r : NodeId} (h : (w.sweep.node n).mountRoot = some r) :
    (w.node n).mountRoot = some r := by
  rwa [node_sweep (live_of_mountRoot h)] at h

theorem isDirectory_sweep (h : w.sweep.Live n) : w.sweep.isDirectory n = w.isDirectory n := by
  rw [isDirectory, isDirectory, node_sweep h]

theorem Rooted.live_root_sweep (h : w.Rooted) {v : VolumeKey} (hv : w.volumes.has v = true) :
    w.sweep.Live (w.volume v).root :=
  live_sweep.2 ⟨h.live v hv, root_mem_references hv⟩

theorem Numbered.swept (h : w.Numbered) : w.sweep.Numbered where
  volume n hn := by rw [node_sweep hn]; exact h.volume n (live_of_sweep hn)
  volumeId n hn := by rw [node_sweep hn]; exact h.volumeId n (live_of_sweep hn)
  ino_lt n hn := by rw [node_sweep hn]; exact h.ino_lt n (live_of_sweep hn)
  ino_inj a b ha hb := by
    rw [node_sweep ha, node_sweep hb]
    exact h.ino_inj a b (live_of_sweep ha) (live_of_sweep hb)
  id_lt := h.id_lt
  id_inj := h.id_inj

theorem Rooted.swept (h : w.Rooted) : w.sweep.Rooted where
  live _ hv := h.live_root_sweep hv
  volume v hv := (congrArg Node.volume (node_sweep (h.live_root_sweep hv))).trans (h.volume v hv)
  parent v hv := (congrArg (·.ram.parent) (node_sweep (h.live_root_sweep hv))).trans (h.parent v hv)
  isDirectory v hv := (isDirectory_sweep (h.live_root_sweep hv)).trans (h.isDirectory v hv)
  orphan n hn hnone := by
    rw [World.parent, node_sweep hn] at hnone
    rw [node_sweep hn]
    exact h.orphan n (live_of_sweep hn) hnone
  rootVolume := h.rootVolume
  rootId := h.rootId
  rootNode := h.rootNode

theorem Linked.swept (h : w.Linked) : w.sweep.Linked := by
  have hlive : ∀ d name c, w.sweep.Entry d name c → w.sweep.Live c := fun d name c he =>
    live_sweep.2 ⟨h.live d name c (entry_of_sweep he), child_mem_references (entry_of_sweep he)⟩
  exact
    { live := hlive
      parent := fun d name c he => by
        rw [World.parent, node_sweep (hlive d name c he)]
        exact h.parent d name c (entry_of_sweep he)
      name := fun d name c he => h.name d name c (entry_of_sweep he)
      name_inj := fun d a b c ha hb => h.name_inj d a b c (entry_of_sweep ha) (entry_of_sweep hb)
      isDirectory := fun n d hn => by
        rw [isDirectory_sweep hn.2]
        exact h.isDirectory n d (hangs_of_sweep hn)
      volume := fun n d hn => by
        rw [node_sweep (live_of_parent hn.1), node_sweep hn.2]
        exact h.volume n d (hangs_of_sweep hn)
      given := fun n d hn =>
        (h.given n d (parent_of_sweep hn)).trans_eq (Arena.nextKey_keep _ _).symm
      acc := fun n hn => Subrelation.accessible hangs_of_sweep (h.acc n (live_of_sweep hn)) }

theorem Mounted.swept (h : w.Mounted) (hrooted : w.Rooted) : w.sweep.Mounted where
  covered n r hr := h.covered n r (mountRoot_of_sweep hr)
  given v p hv hp := (h.given v p hv hp).trans_eq (Arena.nextKey_keep _ _).symm
  mountRoot v p hv hp hlive := by
    rw [node_sweep hlive]
    exact h.mountRoot v p hv hp (live_of_sweep hlive)
  volumeId_lt v p hv hp hlive := by
    rw [node_sweep hlive]
    exact h.volumeId_lt v p hv hp (live_of_sweep hlive)
  isDirectory n r hr := by
    rw [isDirectory_sweep (live_of_mountRoot hr)]
    exact h.isDirectory n r (mountRoot_of_sweep hr)
  bare v hv :=
    (congrArg Node.mountRoot (node_sweep (hrooted.live_root_sweep hv))).trans (h.bare v hv)
  root := h.root

theorem Held.swept (h : w.Held) : w.sweep.Held where
  file f file hf := live_sweep.2 ⟨h.file f file hf, file_mem_references hf⟩
  cwd c context hc := live_sweep.2 ⟨h.cwd c context hc, cwd_mem_references hc⟩
  pin name n hn := live_sweep.2 ⟨h.pin name n hn, pin_mem_references hn⟩
  driver := h.driver
  table := h.table

theorem WellFormed.swept (h : w.WellFormed) : w.sweep.WellFormed where
  ram n hn := by rw [node_sweep hn]; exact h.ram n (live_of_sweep hn)
  numbered := h.numbered.swept
  rooted := h.rooted.swept
  linked := h.linked.swept
  mounted := h.mounted.swept h.rooted
  held := h.held.swept

end

/-! ## Growing -/

/-- The second world has one node more, which lists nothing and carries no volume. -/
structure Grown (w w' : World) : Prop where
  nextKey : w'.nodes.nextKey = w.nodes.nextKey + 1
  live : ∀ n, w'.Live n ↔ n = w.nodes.nextKey ∨ w.Live n
  node : ∀ n, n ≠ w.nodes.nextKey → w'.node n = w.node n
  children : w'.children w.nodes.nextKey = .empty
  mountRoot : (w'.node w.nodes.nextKey).mountRoot = none
  isRam : (w'.node w.nodes.nextKey).IsRam

section

variable {w w' : World} (s : w.Grown w') {n d c : NodeId}

include s

/-- A node that is there already is not the new one, and reads as before. -/
theorem Grown.node_of_live (hn : w.Live n) : w'.node n = w.node n := s.node n (Nat.ne_of_lt hn.lt)

theorem Grown.live_of_lt (hlt : n < w.nodes.nextKey) (hn : w'.Live n) : w.Live n :=
  ((s.live n).1 hn).resolve_left (Nat.ne_of_lt hlt)

theorem Grown.entry {name : String} (he : w'.Entry d name c) : w.Entry d name c := by
  have hne : d ≠ w.nodes.nextKey := by
    intro heq
    subst heq
    rw [Entry, s.children] at he
    cases he
  rw [Entry, World.children, s.node d hne] at he
  exact he

theorem Linked.grown (h : w.Linked)
    (hparent : ∀ d, w'.parent w.nodes.nextKey = some d →
      w.isDirectory d = true ∧ (w'.node w.nodes.nextKey).volume = (w.node d).volume) :
    w'.Linked := by
  have hold : ∀ n d, n ≠ w.nodes.nextKey → w'.Hangs n d → w.Hangs n d := by
    rintro n d hne ⟨hn, hd⟩
    rw [World.parent, s.node n hne] at hn
    exact ⟨hn, s.live_of_lt (h.given n d hn) hd⟩
  have hacc : ∀ n, w.Live n → Acc (fun d n => w'.Hangs n d) n := by
    intro n hn
    induction h.acc n hn with
    | intro n _ ih =>
      refine Acc.intro n fun d hd => ?_
      have hhangs := hold n d (Nat.ne_of_lt hn.lt) hd
      exact ih d hhangs hhangs.2
  refine ⟨fun d name c he => ?_, fun d name c he => ?_, fun d name c he => ?_,
    fun d a b c ha hb => ?_, fun n d hn => ?_, fun n d hn => ?_, fun n d hn => ?_, fun n hn => ?_⟩
  · exact (s.live c).2 (.inr (h.live d name c (s.entry he)))
  · rw [World.parent, s.node_of_live (h.live d name c (s.entry he))]
    exact h.parent d name c (s.entry he)
  · exact h.name d name c (s.entry he)
  · exact h.name_inj d a b c (s.entry ha) (s.entry hb)
  · by_cases hk : n = w.nodes.nextKey
    · subst hk
      have hdir := (hparent d hn.1).1
      rwa [World.isDirectory, s.node_of_live (live_of_isDirectory hdir)]
    · have hhangs := hold n d hk hn
      rw [World.isDirectory, s.node_of_live hhangs.2]
      exact h.isDirectory n d hhangs
  · by_cases hk : n = w.nodes.nextKey
    · subst hk
      obtain ⟨hdir, hvolume⟩ := hparent d hn.1
      rwa [s.node_of_live (live_of_isDirectory hdir)]
    · have hhangs := hold n d hk hn
      rw [s.node n hk, s.node_of_live hhangs.2]
      exact h.volume n d hhangs
  · rw [s.nextKey]
    by_cases hk : n = w.nodes.nextKey
    · subst hk
      exact Nat.lt_succ_of_lt (live_of_isDirectory (hparent d hn).1).lt
    · rw [World.parent, s.node n hk] at hn
      exact Nat.lt_succ_of_lt (h.given n d hn)
  · rcases (s.live n).1 hn with rfl | hn
    · refine Acc.intro _ fun d hd => hacc d ?_
      exact live_of_isDirectory (hparent d hd.1).1
    · exact hacc n hn

/-- Mounts stay right when a volume is added, if it is mounted nowhere. -/
theorem Mounted.grown (h : w.Mounted)
    (hlive : ∀ v, w.volumes.has v = true → w.Live (w.volume v).root)
    (hold : ∀ v, w.volumes.has v = true → w'.volumes.has v = true ∧
      (w'.volume v).root = (w.volume v).root ∧ (w'.volume v).id = (w.volume v).id ∧
      (w'.volume v).point = (w.volume v).point)
    (hnew : ∀ v, w'.volumes.has v = true → w.volumes.has v = true ∨
      (w'.volume v).root = w.nodes.nextKey ∧ (w'.volume v).point = none)
    (hroot : w'.rootVolume = w.rootVolume) (hrootVolume : w.volumes.has w.rootVolume = true) :
    w'.Mounted := by
  have hmount : ∀ n r, (w'.node n).mountRoot = some r → (w.node n).mountRoot = some r := by
    intro n r hr
    have hne : n ≠ w.nodes.nextKey := by
      intro heq
      subst heq
      rw [s.mountRoot] at hr
      cases hr
    rwa [s.node n hne] at hr
  -- A volume that is mounted somewhere is an old one.
  have hpoint : ∀ v p, w'.volumes.has v = true → (w'.volume v).point = some p →
      w.volumes.has v = true ∧ (w.volume v).point = some p := by
    intro v p hv hp
    rcases hnew v hv with hv | ⟨-, hnone⟩
    · exact ⟨hv, by rwa [(hold v hv).2.2.2] at hp⟩
    · rw [hnone] at hp
      cases hp
  refine ⟨fun n r hr => ?_, fun v p hv hp => ?_, fun v p hv hp hn => ?_, fun v p hv hp hn => ?_,
    fun n r hr => ?_, fun v hv => ?_, ?_⟩
  · obtain ⟨v, hv, rfl, hp⟩ := h.covered n r (hmount n r hr)
    obtain ⟨hv', hroot', -, hpoint'⟩ := hold v hv
    exact ⟨v, hv', hroot', by rwa [hpoint']⟩
  · obtain ⟨hv, hp⟩ := hpoint v p hv hp
    rw [s.nextKey]
    exact Nat.lt_succ_of_lt (h.given v p hv hp)
  · obtain ⟨hv, hp⟩ := hpoint v p hv hp
    have hn := s.live_of_lt (h.given v p hv hp) hn
    rw [s.node_of_live hn, (hold v hv).2.1]
    exact h.mountRoot v p hv hp hn
  · obtain ⟨hv, hp⟩ := hpoint v p hv hp
    have hn := s.live_of_lt (h.given v p hv hp) hn
    rw [s.node_of_live hn, (hold v hv).2.2.1]
    exact h.volumeId_lt v p hv hp hn
  · rw [World.isDirectory, s.node_of_live (live_of_mountRoot (hmount n r hr))]
    exact h.isDirectory n r (hmount n r hr)
  · rcases hnew v hv with hv | ⟨hnew, -⟩
    · rw [(hold v hv).2.1, s.node_of_live (hlive v hv)]
      exact h.bare v hv
    · rw [hnew, s.mountRoot]
  · rw [hroot, (hold _ hrootVolume).2.2.2]
    exact h.root

theorem Held.grown (h : w.Held) (hfiles : w'.files = w.files) (hcontexts : w'.contexts = w.contexts)
    (hpins : w'.pins = w.pins) (hdrivers : w'.drivers = w.drivers)
    (hlimits : w'.limits = w.limits) :
    w'.Held where
  file f file hf := (s.live _).2 (.inr (h.file f file (hfiles ▸ hf)))
  cwd c context hc := (s.live _).2 (.inr (h.cwd c context (hcontexts ▸ hc)))
  pin name n hn := (s.live _).2 (.inr (h.pin name n (hpins ▸ hn)))
  driver name driver hd := h.driver name driver (hdrivers ▸ hd)
  table c context hc := hlimits ▸ h.table c context (hcontexts ▸ hc)

theorem isRam_grown (h : ∀ n, w.Live n → (w.node n).IsRam) (n : NodeId) (hn : w'.Live n) :
    (w'.node n).IsRam := by
  rcases (s.live n).1 hn with rfl | hn
  · exact s.isRam
  · rw [s.node_of_live hn]
    exact h n hn

end

section

variable {w : World} (h : w.WellFormed) {d : NodeId} {ino : Nat} {mode : UInt32} {content : Content}
  {ops : Option OpsKind}

theorem node_withNode (w : World) (d : NodeId) (ino : Nat) (mode : UInt32) (content : Content)
    (ops : Option OpsKind) :
    (w.withNode d ino mode content ops).node w.nodes.nextKey =
      { ino, mode, ops
        volume := (w.node d).volume
        volumeId := (w.volume (w.node d).volume).id
        driver := (w.node d).driver
        payload := .ram { parent := some d, content } } := by
  rw [node_push rfl rfl, if_pos rfl]

theorem has_withNode (v : VolumeKey) :
    (w.withNode d ino mode content ops).volumes.has v = w.volumes.has v :=
  has_setVolume _ _

include h

theorem grown_withNode (hd : w.isDirectory d = true) (hmode : Mode.typeBits mode = content.type)
    (hcontent : content.children = .empty) (hops : ops = some .ram ∨ content = .device) :
    w.Grown (w.withNode d ino mode content ops) := by
  have hnew := node_withNode w d ino mode content ops
  refine ⟨Arena.nextKey_push _ _, fun n => live_push rfl rfl, fun n hne => ?_, ?_, ?_, ?_⟩
  · rw [node_push rfl rfl, if_neg hne]
  · rw [children, hnew, Payload.children_ram, hcontent]
  · rw [hnew]
  · rw [hnew]
    exact ⟨rfl, (h.ram d (live_of_isDirectory hd)).driver, hmode, hops⟩

theorem volume_withNode (hd : w.isDirectory d = true) (v : VolumeKey) :
    (w.withNode d ino mode content ops).volume v =
      if v = (w.node d).volume then { w.volume v with nextIno := some (ino + 1) }
      else w.volume v := by
  have hv := h.numbered.volume d (live_of_isDirectory hd)
  refine (volume_setVolume hv (fun v => { v with nextIno := some (ino + 1) }) v).trans ?_
  split
  · next heq => rw [heq]
  · rfl

/-- Making a node changes nothing of a volume but the next number. -/
theorem volume_withNode_fields (hd : w.isDirectory d = true) (v : VolumeKey) :
    ((w.withNode d ino mode content ops).volume v).root = (w.volume v).root ∧
      ((w.withNode d ino mode content ops).volume v).id = (w.volume v).id ∧
      ((w.withNode d ino mode content ops).volume v).point = (w.volume v).point := by
  rw [volume_withNode h hd]
  split <;> exact ⟨rfl, rfl, rfl⟩

theorem Numbered.made (hd : w.isDirectory d = true)
    (hino : (w.volume (w.node d).volume).nextIno = some ino)
    (s : w.Grown (w.withNode d ino mode content ops)) :
    (w.withNode d ino mode content ops).Numbered := by
  have hlive := live_of_isDirectory hd
  have hnew := node_withNode w d ino mode content ops
  -- The numbers of the volume so far are below the one that is given now.
  have hbelow : ∀ n, w.Live n → (w.node n).volume = (w.node d).volume → (w.node n).ino < ino := by
    intro n hn hvolume
    obtain ⟨next, hnext, hlt⟩ := h.numbered.ino_lt n hn
    rw [hvolume, hino] at hnext
    cases hnext
    exact hlt
  refine ⟨fun n hn => ?_, fun n hn => ?_, fun n hn => ?_, fun a b ha hb => ?_, fun v hv => ?_,
    fun u v hu hv => ?_⟩
  · rw [has_withNode]
    rcases (s.live n).1 hn with rfl | hn
    · rw [hnew]
      exact h.numbered.volume d hlive
    · rw [s.node_of_live hn]
      exact h.numbered.volume n hn
  · rw [(volume_withNode_fields h hd _).2.1]
    rcases (s.live n).1 hn with rfl | hn
    · rw [hnew]
    · rw [s.node_of_live hn]
      exact h.numbered.volumeId n hn
  · rw [volume_withNode h hd]
    rcases (s.live n).1 hn with rfl | hn
    · rw [hnew, if_pos rfl]
      exact ⟨ino + 1, rfl, Nat.lt_succ_self _⟩
    · rw [s.node_of_live hn]
      split
      · next hvolume => exact ⟨ino + 1, rfl, Nat.lt_succ_of_lt (hbelow n hn hvolume)⟩
      · exact h.numbered.ino_lt n hn
  · rcases (s.live a).1 ha with rfl | ha <;> rcases (s.live b).1 hb with rfl | hb
    · exact fun _ _ => rfl
    · rw [hnew, s.node_of_live hb]
      exact fun hvolume heq => absurd heq.symm (Nat.ne_of_lt (hbelow b hb hvolume.symm))
    · rw [hnew, s.node_of_live ha]
      exact fun hvolume heq => absurd heq (Nat.ne_of_lt (hbelow a ha hvolume))
    · rw [s.node_of_live ha, s.node_of_live hb]
      exact h.numbered.ino_inj a b ha hb
  · rw [has_withNode] at hv
    rw [(volume_withNode_fields h hd _).2.1]
    exact h.numbered.id_lt v hv
  · rw [has_withNode] at hu hv
    rw [(volume_withNode_fields h hd _).2.1, (volume_withNode_fields h hd _).2.1]
    exact h.numbered.id_inj u v hu hv

theorem Rooted.made (hd : w.isDirectory d = true)
    (s : w.Grown (w.withNode d ino mode content ops)) :
    (w.withNode d ino mode content ops).Rooted := by
  have hroot : ∀ v, ((w.withNode d ino mode content ops).volume v).root = (w.volume v).root :=
    fun v => (volume_withNode_fields h hd v).1
  have hlive : ∀ v, (w.withNode d ino mode content ops).volumes.has v = true →
      w.volumes.has v = true ∧ w.Live (w.volume v).root := fun v hv => by
    rw [has_withNode] at hv
    exact ⟨hv, h.rooted.live v hv⟩
  refine ⟨fun v hv => ?_, fun v hv => ?_, fun v hv => ?_, fun v hv => ?_, fun n hn hnone => ?_,
    ?_, ?_, ?_⟩
  · rw [hroot]
    exact (s.live _).2 (.inr (hlive v hv).2)
  · obtain ⟨hv, hlive⟩ := hlive v hv
    rw [hroot, s.node_of_live hlive]
    exact h.rooted.volume v hv
  · obtain ⟨hv, hlive⟩ := hlive v hv
    rw [hroot, World.parent, s.node_of_live hlive]
    exact h.rooted.parent v hv
  · obtain ⟨hv, hlive⟩ := hlive v hv
    rw [hroot, World.isDirectory, s.node_of_live hlive]
    exact h.rooted.isDirectory v hv
  · rw [hroot]
    rcases (s.live n).1 hn with rfl | hn
    · rw [World.parent, node_withNode] at hnone
      cases hnone
    · rw [World.parent, s.node_of_live hn] at hnone
      rw [s.node_of_live hn]
      exact h.rooted.orphan n hn hnone
  · rw [has_withNode]
    exact h.rooted.rootVolume
  · rw [(volume_withNode_fields h hd _).2.1]
    exact h.rooted.rootId
  · rw [World.rootNode, hroot]
    exact h.rooted.rootNode

theorem WellFormed.made (hd : w.isDirectory d = true)
    (hino : (w.volume (w.node d).volume).nextIno = some ino)
    (hmode : Mode.typeBits mode = content.type) (hcontent : content.children = .empty)
    (hops : ops = some .ram ∨ content = .device) :
    (w.withNode d ino mode content ops).WellFormed := by
  have s : w.Grown (w.withNode d ino mode content ops) := grown_withNode h hd hmode hcontent hops
  refine ⟨isRam_grown s h.ram, Numbered.made h hd hino s, Rooted.made h hd s,
    h.linked.grown s fun e he => ?_,
    h.mounted.grown s h.rooted.live (fun v hv => ?_) (fun v hv => ?_) rfl h.rooted.rootVolume,
    h.held.grown s rfl rfl rfl rfl rfl⟩
  · rw [World.parent, node_withNode] at he
    cases he
    refine ⟨hd, ?_⟩
    rw [node_withNode]
  · rw [has_withNode]
    exact ⟨hv, volume_withNode_fields h hd v⟩
  · rw [has_withNode] at hv
    exact .inl hv

end

section

variable {w : World} (h : w.WellFormed) {id : Nat} {device : String} {flags : VolumeFlags}

theorem node_withVolume (w : World) (id : Nat) (device : String) (flags : VolumeFlags) :
    (w.withVolume id device flags).node w.nodes.nextKey =
      { ino := RamFs.rootIno
        volumeId := id
        volume := w.volumes.nextKey
        driver := .ram
        ops := some .ram
        mode := Mode.make Mode.directory 0o777
        payload := .ram { parent := none, content := .directory .empty } } := by
  rw [node_push rfl rfl, if_pos rfl]

theorem grown_withVolume (w : World) (id : Nat) (device : String) (flags : VolumeFlags) :
    w.Grown (w.withVolume id device flags) := by
  have hnew := node_withVolume w id device flags
  refine ⟨Arena.nextKey_push _ _, fun n => live_push rfl rfl, fun n hne => ?_, ?_, ?_, ?_⟩
  · rw [node_push rfl rfl, if_neg hne]
  · rw [children, hnew]
    rfl
  · rw [hnew]
  · rw [hnew]
    exact ⟨rfl, rfl, (Mode.typeBits_make _ _).trans rfl, .inl rfl⟩

theorem has_withVolume (v : VolumeKey) :
    (w.withVolume id device flags).volumes.has v = true ↔
      v = w.volumes.nextKey ∨ w.volumes.has v = true := by
  rw [Arena.has, Arena.has, withVolume, Arena.get?_push]
  split
  · next heq => simp [heq]
  · next hne => simp [hne]

theorem volume_withVolume (w : World) (id : Nat) (device : String) (flags : VolumeFlags)
    (v : VolumeKey) :
    (w.withVolume id device flags).volume v =
      if v = w.volumes.nextKey then
        { id, device, flags, root := w.nodes.nextKey, driver := .ram,
          nextIno := some (RamFs.rootIno + 1) }
      else w.volume v := by
  rw [World.volume, withVolume, Arena.get?_push]
  split <;> rfl

/-- A volume that is there already is not the new one, and reads as before. -/
theorem volume_withVolume_of_has {v : VolumeKey} (hv : w.volumes.has v = true) :
    (w.withVolume id device flags).volume v = w.volume v := by
  rw [volume_withVolume, if_neg (Nat.ne_of_lt (Arena.lt_nextKey_of_has hv))]

include h

theorem Numbered.volumeMade (hid : id < w.nextVolumeId)
    (hids : ∀ v, w.volumes.has v = true → (w.volume v).id < id) :
    (w.withVolume id device flags).Numbered := by
  have s := grown_withVolume w id device flags
  have hnew := node_withVolume w id device flags
  have hold := @volume_withVolume_of_has w id device flags
  have hself : (w.withVolume id device flags).volume w.volumes.nextKey = _ :=
    (volume_withVolume w id device flags _).trans (if_pos rfl)
  -- No node of before is on the new volume.
  have hother : ∀ n, w.Live n → w.volumes.nextKey ≠ (w.node n).volume := fun n hn heq =>
    Nat.lt_irrefl _ (heq ▸ Arena.lt_nextKey_of_has (h.numbered.volume n hn))
  refine ⟨fun n hn => ?_, fun n hn => ?_, fun n hn => ?_, fun a b ha hb => ?_, fun v hv => ?_,
    fun u v hu hv => ?_⟩
  · rw [has_withVolume]
    rcases (s.live n).1 hn with rfl | hn
    · exact .inl (by rw [hnew])
    · exact .inr (by rw [s.node_of_live hn]; exact h.numbered.volume n hn)
  · rcases (s.live n).1 hn with rfl | hn
    · rw [hnew, hself]
    · rw [s.node_of_live hn, hold (h.numbered.volume n hn)]
      exact h.numbered.volumeId n hn
  · rcases (s.live n).1 hn with rfl | hn
    · rw [hnew, hself]
      exact ⟨_, rfl, Nat.lt_succ_self _⟩
    · rw [s.node_of_live hn, hold (h.numbered.volume n hn)]
      exact h.numbered.ino_lt n hn
  · rcases (s.live a).1 ha with rfl | ha <;> rcases (s.live b).1 hb with rfl | hb
    · exact fun _ _ => rfl
    · rw [hnew, s.node_of_live hb]
      exact fun hvolume => absurd hvolume (hother b hb)
    · rw [hnew, s.node_of_live ha]
      exact fun hvolume => absurd hvolume.symm (hother a ha)
    · rw [s.node_of_live ha, s.node_of_live hb]
      exact h.numbered.ino_inj a b ha hb
  · rcases has_withVolume v |>.1 hv with rfl | hv
    · rw [hself]
      exact hid
    · rw [hold hv]
      exact h.numbered.id_lt v hv
  · rcases has_withVolume u |>.1 hu with rfl | hu <;> rcases has_withVolume v |>.1 hv with rfl | hv
    · exact fun _ => rfl
    · rw [hself, hold hv]
      exact fun heq => absurd heq.symm (Nat.ne_of_lt (hids v hv))
    · rw [hself, hold hu]
      exact fun heq => absurd heq (Nat.ne_of_lt (hids u hu))
    · rw [hold hu, hold hv]
      exact h.numbered.id_inj u v hu hv

theorem Rooted.volumeMade : (w.withVolume id device flags).Rooted := by
  have s := grown_withVolume w id device flags
  have hnew := node_withVolume w id device flags
  have hold := @volume_withVolume_of_has w id device flags
  have hself : (w.withVolume id device flags).volume w.volumes.nextKey = _ :=
    (volume_withVolume w id device flags _).trans (if_pos rfl)
  refine ⟨fun v hv => ?_, fun v hv => ?_, fun v hv => ?_, fun v hv => ?_, fun n hn hnone => ?_,
    (has_withVolume _).2 (.inr h.rooted.rootVolume), ?_, ?_⟩
  · rcases has_withVolume v |>.1 hv with rfl | hv
    · rw [hself]
      exact (s.live _).2 (.inl rfl)
    · rw [hold hv]
      exact (s.live _).2 (.inr (h.rooted.live v hv))
  · rcases has_withVolume v |>.1 hv with rfl | hv
    · rw [hself, hnew]
    · rw [hold hv, s.node_of_live (h.rooted.live v hv)]
      exact h.rooted.volume v hv
  · rcases has_withVolume v |>.1 hv with rfl | hv
    · rw [hself, World.parent, hnew]
      rfl
    · rw [hold hv, World.parent, s.node_of_live (h.rooted.live v hv)]
      exact h.rooted.parent v hv
  · rcases has_withVolume v |>.1 hv with rfl | hv
    · rw [hself, World.isDirectory, hnew]
      exact (by decide : Mode.isDirectory (Mode.make Mode.directory 0o777) = true)
    · rw [hold hv, World.isDirectory, s.node_of_live (h.rooted.live v hv)]
      exact h.rooted.isDirectory v hv
  · rcases (s.live n).1 hn with rfl | hn
    · rw [hnew, hself]
    · rw [World.parent, s.node_of_live hn] at hnone
      rw [s.node_of_live hn, hold (h.numbered.volume n hn)]
      exact h.rooted.orphan n hn hnone
  · exact (congrArg Volume.id (hold h.rooted.rootVolume)).trans h.rooted.rootId
  · exact (congrArg Volume.root (hold h.rooted.rootVolume)).trans h.rooted.rootNode

theorem WellFormed.volumeMade (hid : id < w.nextVolumeId)
    (hids : ∀ v, w.volumes.has v = true → (w.volume v).id < id) :
    (w.withVolume id device flags).WellFormed := by
  have s := grown_withVolume w id device flags
  refine ⟨isRam_grown s h.ram, Numbered.volumeMade h hid hids, Rooted.volumeMade h,
    h.linked.grown s fun d hd => ?_,
    h.mounted.grown s h.rooted.live (fun v hv => ?_) (fun v hv => ?_) rfl h.rooted.rootVolume,
    h.held.grown s rfl rfl rfl rfl rfl⟩
  · rw [World.parent, node_withVolume] at hd
    cases hd
  · rw [volume_withVolume_of_has hv]
    exact ⟨(has_withVolume v).2 (.inr hv), rfl, rfl, rfl⟩
  · rcases has_withVolume v |>.1 hv with rfl | hv
    · rw [volume_withVolume, if_pos rfl]
      exact .inr ⟨rfl, rfl⟩
    · exact .inl hv

end

/-! ## Attaching -/

section

variable {w : World} (h : w.WellFormed) {v : VolumeKey} {p : NodeId}

theorem volume_attach (hv : w.volumes.has v = true) (id : Nat) (p : NodeId) (u : VolumeKey) :
    (w.attach id v p).volume u =
      if u = v then { w.volume u with point := some p } else w.volume u := by
  refine (volume_setVolume hv (fun volume => { volume with point := some p }) u).trans ?_
  split
  · next heq => rw [heq]
  · rfl

theorem node_attach (hv : w.volumes.has v = true) (hp : w.Live p) (id : Nat) (n : NodeId) :
    (w.attach id v p).node n =
      if n = p then { w.node p with mountRoot := some (w.volume v).root } else w.node n := by
  have hroot : ((w.attach id v p).volume v).root = (w.volume v).root := by
    rw [volume_attach hv, if_pos rfl]
  rw [← hroot]
  exact node_setNode (n := p) (f := fun node => { node with mountRoot := some _ }) hp

/-- What a mount does not change of a node reads as before. -/
theorem view_attach {α : Type} (view : Node → α)
    (hsame : ∀ node root, view { node with mountRoot := root } = view node)
    (hv : w.volumes.has v = true) (hp : w.Live p) (id : Nat) (n : NodeId) :
    view ((w.attach id v p).node n) = view (w.node n) := by
  rw [node_attach hv hp]
  split
  · next heq => rw [hsame, heq]
  · rfl

theorem view_volume_attach {α : Type} (view : Volume → α)
    (hsame : ∀ volume point, view { volume with point } = view volume)
    (hv : w.volumes.has v = true) (id : Nat) (p : NodeId) (u : VolumeKey) :
    view ((w.attach id v p).volume u) = view (w.volume u) := by
  rw [volume_attach hv]
  split
  · exact hsame _ _
  · rfl

theorem alike_attach (hv : w.volumes.has v = true) (hp : w.Live p) (id : Nat) :
    w.Alike (w.attach id v p) where
  nextKey := Arena.nextKey_modify _ _ _
  live _ := live_setNode
  ino := view_attach Node.ino (fun _ _ => rfl) hv hp id
  volume := view_attach Node.volume (fun _ _ => rfl) hv hp id
  volumeId := view_attach Node.volumeId (fun _ _ => rfl) hv hp id
  isDirectory := view_attach (fun node => Mode.isDirectory node.mode) (fun _ _ => rfl) hv hp id
  orphan n := by
    have hview := view_attach (fun node => node.ram.parent) (fun _ _ => rfl) hv hp id n
    rw [World.parent, World.parent, hview]
  hasVolume _ := has_setVolume _ _
  id := view_volume_attach Volume.id (fun _ _ => rfl) hv id p
  root := view_volume_attach Volume.root (fun _ _ => rfl) hv id p
  nextIno := view_volume_attach Volume.nextIno (fun _ _ => rfl) hv id p
  rootVolume := rfl
  nextVolumeId := Nat.le_refl _

include h

theorem Mounted.attached (hv : w.volumes.has v = true) (hv' : v ≠ w.rootVolume)
    (hpoint : (w.volume v).point = none) (hp : w.isDirectory p = true)
    (hmount : (w.node p).mountRoot = none) (hparent : w.parent p ≠ none)
    (hlt : (w.node p).volumeId < (w.volume v).id) (id : Nat) : (w.attach id v p).Mounted := by
  have hlive := live_of_isDirectory hp
  have s := alike_attach hv hlive id
  -- A volume that was mounted before is another one, and lies elsewhere.
  have hcases : ∀ u q, (w.attach id v p).volumes.has u = true →
      ((w.attach id v p).volume u).point = some q →
      u = v ∧ q = p ∨ w.volumes.has u = true ∧ (w.volume u).point = some q := by
    intro u q hu hq
    rw [s.hasVolume] at hu
    rw [volume_attach hv] at hq
    split at hq
    · next heq => exact .inl ⟨heq, (Option.some.inj hq).symm⟩
    · exact .inr ⟨hu, hq⟩
  refine ⟨fun n r hr => ?_, fun u q hu hq => ?_, fun u q hu hq hn => ?_, fun u q hu hq hn => ?_,
    fun n r hr => ?_, fun u hu => ?_, ?_⟩
  · rw [node_attach hv hlive] at hr
    split at hr
    · next heq =>
      cases hr
      refine ⟨v, by rwa [s.hasVolume], s.root v, ?_⟩
      rw [volume_attach hv, if_pos rfl, heq]
    · obtain ⟨u, hu, rfl, hn⟩ := h.mounted.covered n r hr
      have hne : u ≠ v := by
        intro heq
        subst heq
        rw [hpoint] at hn
        cases hn
      refine ⟨u, by rwa [s.hasVolume], s.root u, ?_⟩
      rw [volume_attach hv, if_neg hne, hn]
  · rw [s.nextKey]
    rcases hcases u q hu hq with ⟨-, rfl⟩ | ⟨hu, hq⟩
    · exact hlive.lt
    · exact h.mounted.given u q hu hq
  · rw [s.root, node_attach hv hlive]
    rcases hcases u q hu hq with ⟨rfl, rfl⟩ | ⟨hu, hq⟩
    · rw [if_pos rfl]
    · have hroot := h.mounted.mountRoot u q hu hq ((s.live q).1 hn)
      have hne : q ≠ p := by
        intro heq
        subst heq
        rw [hmount] at hroot
        cases hroot
      rwa [if_neg hne]
  · rw [s.id, s.volumeId]
    rcases hcases u q hu hq with ⟨rfl, rfl⟩ | ⟨hu, hq⟩
    · exact hlt
    · exact h.mounted.volumeId_lt u q hu hq ((s.live q).1 hn)
  · rw [s.isDirectory]
    rw [node_attach hv hlive] at hr
    split at hr
    · next heq => rwa [heq]
    · exact h.mounted.isDirectory n r hr
  · rw [s.hasVolume] at hu
    have hne : (w.volume u).root ≠ p := by
      rintro heq
      exact hparent (heq ▸ h.rooted.parent u hu)
    rw [s.root, node_attach hv hlive, if_neg hne]
    exact h.mounted.bare u hu
  · rw [s.rootVolume, volume_attach hv, if_neg (Ne.symm hv')]
    exact h.mounted.root

theorem WellFormed.attached (hv : w.volumes.has v = true) (hv' : v ≠ w.rootVolume)
    (hpoint : (w.volume v).point = none) (hp : w.isDirectory p = true)
    (hmount : (w.node p).mountRoot = none) (hparent : w.parent p ≠ none)
    (hlt : (w.node p).volumeId < (w.volume v).id) (id : Nat) : (w.attach id v p).WellFormed := by
  have hlive := live_of_isDirectory hp
  have s := alike_attach hv hlive id
  refine ⟨fun n hn => ?_, h.numbered.of_alike s, h.rooted.of_alike s,
    h.linked.of_alike s
      (view_attach (fun node => node.payload.children) (fun _ _ => rfl) hv hlive id)
      (view_attach (fun node => node.ram.parent) (fun _ _ => rfl) hv hlive id),
    Mounted.attached h hv hv' hpoint hp hmount hparent hlt id,
    h.held.of_alike s rfl rfl rfl rfl rfl⟩
  have hram := h.ram n ((s.live n).1 hn)
  rw [node_attach hv hlive]
  split
  · next heq =>
    subst heq
    exact ⟨hram.payload, hram.driver, hram.type, hram.ops⟩
  · exact hram

end

/-! ## What is not about nodes -/

section

variable {w : World} (h : w.WellFormed)

theorem alike_held (files : Arena OpenFile) (contexts : Array Context) (tasks : Array Task)
    (pins : NameMap NodeId) : w.Alike { w with files, contexts, tasks, pins } :=
  ⟨rfl, fun _ => Iff.rfl, fun _ => rfl, fun _ => rfl, fun _ => rfl, fun _ => rfl, fun _ => Iff.rfl,
    fun _ => rfl, fun _ => rfl, fun _ => rfl, fun _ => rfl, rfl, Nat.le_refl _⟩

theorem alike_idTaken (w : World) : w.Alike { w with nextVolumeId := w.nextVolumeId + 1 } :=
  ⟨rfl, fun _ => Iff.rfl, fun _ => rfl, fun _ => rfl, fun _ => rfl, fun _ => rfl, fun _ => Iff.rfl,
    fun _ => rfl, fun _ => rfl, fun _ => rfl, fun _ => rfl, rfl, Nat.le_succ _⟩

include h

theorem WellFormed.heldChanged {files : Arena OpenFile} {contexts : Array Context}
    {tasks : Array Task} {pins : NameMap NodeId}
    (hheld : ({ w with files, contexts, tasks, pins } : World).Held) :
    ({ w with files, contexts, tasks, pins } : World).WellFormed := by
  have s := alike_held (w := w) files contexts tasks pins
  exact ⟨h.ram, h.numbered.of_alike s, h.rooted.of_alike s,
    h.linked.of_alike s (fun _ => rfl) fun _ => rfl,
    h.mounted.of_alike s (fun _ => rfl) fun _ => rfl, hheld⟩

theorem WellFormed.idTaken :
    ({ w with nextVolumeId := w.nextVolumeId + 1 } : World).WellFormed := by
  have s := alike_idTaken w
  exact ⟨h.ram, h.numbered.of_alike s, h.rooted.of_alike s,
    h.linked.of_alike s (fun _ => rfl) fun _ => rfl,
    h.mounted.of_alike s (fun _ => rfl) fun _ => rfl, h.held.of_alike s rfl rfl rfl rfl rfl⟩

end

/-- **An edit keeps a world well-formed.** -/
theorem Edit.wellFormed {w w' : World} (h : w.WellFormed) (e : Edit w w') : w'.WellFormed := by
  cases e with
  | swept => exact h.swept
  | touched hn ht => exact h.touched hn ht
  | unlisted hd => exact h.unlisted hd _
  | listed hd hn hfree hname => exact h.listed hd hn hfree hname
  | turned hn hd hvolume hfree habove => exact h.turned hn hd hvolume hfree habove
  | made hd hino hmode hcontent hops => exact h.made hd hino hmode hcontent hops
  | idTaken => exact h.idTaken
  | volumeMade hid hids => exact h.volumeMade hid hids
  | attached hv hv' hpoint hp hmount hparent hlt =>
    exact h.attached hv hv' hpoint hp hmount hparent hlt _
  | held hheld => exact h.heldChanged hheld

theorem Edits.wellFormed {w w' : World} (e : Edits w w') (h : w.WellFormed) : w'.WellFormed := by
  induction e with
  | refl => exact h
  | tail _ e ih => exact e.wellFormed ih

end World

end VirtualFs
