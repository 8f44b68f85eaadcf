/-
Directories that hang together with the root of their volume, and those that
came loose: removed or replaced, but still held by a task or an open file. A
loose directory lists nothing when it comes loose, for only an empty one is
removed or replaced. Here is what a change to the trees does to this: which
nodes stay attached, and that no entry is left behind in a directory that
comes loose (`StrandsNothing`).
-/
import VirtualFs.Proofs.RamEdits

namespace VirtualFs.World

/-- Names lead to the node from the root of its volume. A node is on the volume of the directory
that lists it, so from no other root do they. -/
inductive Attached (w : World) : NodeId → Prop where
  | root {v} : w.volumes.has v = true → Attached w (w.volume v).root
  | entry {d name c} : Attached w d → w.Entry d name c → Attached w c

/-- What a directory that is loose afterwards lists then, it listed before, when it was loose
already. -/
def StrandsNothing (w w' : World) : Prop :=
  ∀ d name c, ¬w'.Attached d → w'.Entry d name c → ¬w.Attached d ∧ w.Entry d name c

/-- Every volume stays, with its root. -/
def KeepsRoots (w w' : World) : Prop :=
  ∀ v, w.volumes.has v = true → w'.volumes.has v = true ∧ (w'.volume v).root = (w.volume v).root

theorem StrandsNothing.refl (w : World) : w.StrandsNothing w := fun _ _ _ hd he => ⟨hd, he⟩

theorem StrandsNothing.trans {w w' w'' : World} (h : w.StrandsNothing w')
    (h' : w'.StrandsNothing w'') : w.StrandsNothing w'' := by
  intro d name c hd he
  obtain ⟨hd', he'⟩ := h' d name c hd he
  exact h d name c hd' he'

/-- An entry that was not there before is one of an attached directory. -/
theorem StrandsNothing.attached_of_new {w w' : World} (h : w.StrandsNothing w') {d c : NodeId}
    {name : String} (he : w'.Entry d name c) (hnew : ¬w.Entry d name c) : w'.Attached c := by
  by_cases hd : w'.Attached d
  · exact hd.entry he
  · exact absurd (h d name c hd he).2 hnew

variable {w w' : World} {n d c : NodeId} {name : String}

theorem KeepsRoots.attached (hroots : w.KeepsRoots w') {v : VolumeKey}
    (hv : w.volumes.has v = true) : w'.Attached (w.volume v).root := by
  obtain ⟨hv', hroot⟩ := hroots v hv
  rw [← hroot]
  exact .root hv'

theorem KeepsRoots.of_volumes (hvolumes : w'.volumes = w.volumes) : w.KeepsRoots w' := by
  intro v hv
  rw [World.volume, World.volume, hvolumes]
  exact ⟨hv, rfl⟩

theorem KeepsRoots.trans {w'' : World} (hroots : w.KeepsRoots w') (hroots' : w'.KeepsRoots w'') :
    w.KeepsRoots w'' := by
  intro v hv
  obtain ⟨hv', heq⟩ := hroots v hv
  obtain ⟨hv'', heq'⟩ := hroots' v hv'
  exact ⟨hv'', heq'.trans heq⟩

/-- What is attached stays so if every entry does. -/
theorem Attached.keep (hroots : w.KeepsRoots w')
    (hentry : ∀ d name c, w.Entry d name c → w'.Entry d name c) (hn : w.Attached n) :
    w'.Attached n := by
  induction hn with
  | root hv => exact hroots.attached hv
  | entry _ he ih => exact ih.entry (hentry _ _ _ he)

/-- Nothing is stranded if only nodes that list nothing come loose, and no loose directory gets an
entry. -/
theorem strandsNothing_of_keep
    (hkeep : ∀ n, w.Attached n → w'.Attached n ∨ ∀ name c, ¬w.Entry n name c)
    (hentry : ∀ d name c, ¬w'.Attached d → w'.Entry d name c → w.Entry d name c) :
    w.StrandsNothing w' := by
  intro d name c hd he
  have he' := hentry d name c hd he
  exact ⟨fun hattached => (hkeep d hattached).elim hd fun hbare => hbare name c he', he'⟩

/-- Nothing is stranded where every entry stays and loose directories get none. -/
theorem strandsNothing_of_entries (hroots : w.KeepsRoots w')
    (hkeep : ∀ d name c, w.Entry d name c → w'.Entry d name c)
    (hentry : ∀ d name c, ¬w'.Attached d → w'.Entry d name c → w.Entry d name c) :
    w.StrandsNothing w' :=
  strandsNothing_of_keep (fun _ hn => .inl (hn.keep hroots hkeep)) hentry

/-! ## Changes that leave the trees alone -/

/-- Every volume stays, and every node lists what it listed. -/
structure SameTrees (w w' : World) : Prop where
  roots : w.KeepsRoots w'
  children : ∀ n, w'.children n = w.children n

theorem SameTrees.entry_iff (s : w.SameTrees w') : w'.Entry d name c ↔ w.Entry d name c := by
  rw [Entry, Entry, s.children]

theorem SameTrees.strandsNothing (s : w.SameTrees w') : w.StrandsNothing w' :=
  strandsNothing_of_entries s.roots (fun _ _ _ => s.entry_iff.2) fun _ _ _ _ => s.entry_iff.1

theorem SameTrees.of_nodes (hnodes : w'.nodes = w.nodes) (hvolumes : w'.volumes = w.volumes) :
    w.SameTrees w' where
  roots := .of_volumes hvolumes
  children n := by rw [World.children, World.children, World.node, World.node, hnodes]

/-! ## Growing -/

theorem Grown.entry_of (s : w.Grown w') (he : w.Entry d name c) : w'.Entry d name c := by
  rw [Entry, World.children, s.node_of_live he.live]
  exact he

theorem Grown.strandsNothing (s : w.Grown w') (hroots : w.KeepsRoots w') : w.StrandsNothing w' :=
  strandsNothing_of_entries hroots (fun _ _ _ he => s.entry_of he) fun _ _ _ _ he => s.entry he

theorem keepsRoots_withVolume (id : Nat) (device : String) (flags : VolumeFlags) :
    w.KeepsRoots (w.withVolume id device flags) :=
  fun v hv => ⟨(has_withVolume v).2 (.inr hv), by rw [volume_withVolume_of_has hv]⟩

theorem sameTrees_attach {v : VolumeKey} (hv : w.volumes.has v = true) (hp : w.Live n) (id : Nat) :
    w.SameTrees (w.attach id v n) where
  roots u hu := ⟨(has_setVolume _ u).trans hu,
    view_volume_attach Volume.root (fun _ _ => rfl) hv id n u⟩
  children := view_attach (fun node => node.payload.children) (fun _ _ => rfl) hv hp id

variable (h : w.WellFormed)

include h

theorem keepsRoots_withNode (hd : w.isDirectory d = true) (ino : Nat) (mode : UInt32)
    (content : Content) (ops : Option OpsKind) :
    w.KeepsRoots (w.withNode d ino mode content ops) :=
  fun v hv => ⟨(has_withNode v).trans hv, (volume_withNode_fields h hd v).1⟩

/-! ## Sweeping up -/

theorem Attached.live (hn : w.Attached n) : w.Live n := by
  cases hn with
  | root hv => exact h.rooted.live _ hv
  | entry _ he => exact h.linked.live _ _ _ he

/-- A node that has a directory is no root, so it is that directory which lists it. -/
theorem Attached.listed (hn : w.Attached n) (hd : w.parent n = some d) :
    w.Attached d ∧ ∃ name, w.Entry d name n := by
  cases hn with
  | root hv =>
    rw [h.rooted.parent _ hv] at hd
    cases hd
  | entry hd' he =>
    obtain rfl := Option.some.inj ((h.linked.parent _ _ _ he).symm.trans hd)
    exact ⟨hd', _, he⟩

theorem not_attached_of_unlisted (hd : w.parent n = some d)
    (hunlisted : n ∉ (w.children d).values) : ¬w.Attached n := by
  intro hn
  obtain ⟨-, name, he⟩ := hn.listed h hd
  exact hunlisted (NameMap.mem_values he)

theorem attached_rootNode : w.Attached w.rootNode := .root h.rooted.rootVolume

theorem attached_zero : w.Attached 0 := h.rooted.rootNode ▸ attached_rootNode h

omit h in
theorem Entry.sweep (he : w.Entry d name c) (hd : w.sweep.Live d) : w.sweep.Entry d name c := by
  rw [Entry, World.children, node_sweep hd]
  exact he

/-- A volume refers to its root and a directory to what it lists. -/
theorem Attached.sweep (hn : w.Attached n) : w.sweep.Attached n := by
  induction hn with
  | root hv =>
    have hroots : w.KeepsRoots w.sweep := .of_volumes rfl
    exact hroots.attached hv
  | entry _ he ih => exact ih.entry (he.sweep (ih.live h.swept))

theorem strandsNothing_sweep : w.StrandsNothing w.sweep :=
  strandsNothing_of_keep (fun _ hn => .inl (hn.sweep h)) fun _ _ _ _ he => entry_of_sweep he

omit h in
/-- What sweeps keep, settling keeps. -/
theorem settle_induction {P : World → Prop} (hw : w.WellFormed) (hP : P w)
    (hsweep : ∀ w', w'.WellFormed → P w' → P w'.sweep) : P w.settle := by
  have hrounds : ∀ rounds w, w.WellFormed → P w → P (settleFor rounds w) := by
    intro rounds
    induction rounds with
    | zero => exact fun _ _ hP => hP
    | succ rounds ih =>
      intro w hw hP
      rw [settleFor]
      split
      · exact hP
      · exact ih _ hw.swept (hsweep w hw hP)
  exact hrounds _ w hw hP

theorem Attached.settle (hn : w.Attached n) : w.settle.Attached n :=
  settle_induction (P := fun w' => w'.Attached n) h hn fun _ hw hn => hn.sweep hw

theorem Entry.settle (he : w.Entry d name c) (hd : w.Attached d) :
    w.settle.Entry d name c ∧ w.settle.Attached d :=
  settle_induction (P := fun w' => w'.Entry d name c ∧ w'.Attached d) h ⟨he, hd⟩
    fun _ hw ⟨he, hd⟩ => ⟨he.sweep ((hd.sweep hw).live hw.swept), hd.sweep hw⟩

theorem strandsNothing_settle : w.StrandsNothing w.settle :=
  settle_induction (P := fun w' => w.StrandsNothing w') h (.refl w) fun _ hw hs =>
    hs.trans (strandsNothing_sweep hw)

/-! ## Entries that come and go -/

theorem entry_unlisted (hd : w.isDirectory d = true) {e x : NodeId} {a : String} :
    (w.setChildren d ((w.children d).erase name)).Entry e a x ↔
      ¬(e = d ∧ a = name) ∧ w.Entry e a x := by
  rw [Entry, children_setChildren h hd]
  by_cases heq : e = d
  · subst heq
    rw [if_pos rfl, NameMap.get?_erase]
    by_cases ha : a = name
    · simp [ha]
    · simp [ha, Entry]
  · simp [heq, Entry]

theorem entry_listed (hd : w.isDirectory d = true) {e x : NodeId} {a : String} :
    (w.setChildren d ((w.children d).insert name c)).Entry e a x ↔
      if e = d ∧ a = name then x = c else w.Entry e a x := by
  rw [Entry, children_setChildren h hd]
  by_cases heq : e = d
  · subst heq
    rw [if_pos rfl, NameMap.get?_insert]
    by_cases ha : a = name
    · simp [ha, eq_comm]
    · simp [ha, Entry]
  · simp [heq, Entry]

/-- A new name in an attached directory. -/
theorem strandsNothing_listed (hd : w.Attached d) (hdir : w.isDirectory d = true)
    (hfree : ∀ x, ¬w.Entry d name x) (c : NodeId) :
    w.StrandsNothing (w.setChildren d ((w.children d).insert name c)) := by
  have hroots : w.KeepsRoots (w.setChildren d ((w.children d).insert name c)) := .of_volumes rfl
  have hkeep : ∀ e a x, w.Entry e a x →
      (w.setChildren d ((w.children d).insert name c)).Entry e a x := by
    intro e a x he
    rw [entry_listed h hdir, if_neg ?_]
    · exact he
    · rintro ⟨rfl, rfl⟩
      exact hfree x he
  refine strandsNothing_of_entries hroots hkeep fun e a x hloose he => ?_
  rw [entry_listed h hdir, if_neg ?_] at he
  · exact he
  · rintro ⟨rfl, -⟩
    exact hloose (hd.keep hroots hkeep)

/-- Of an entry that goes, nothing but the node itself comes loose, if that lists nothing. -/
theorem Attached.unlisted (hentry : w.Entry d name c) (hbare : ∀ a x, ¬w.Entry c a x)
    (hn : w.Attached n) : (w.setChildren d ((w.children d).erase name)).Attached n ∨ n = c := by
  have hdir := h.isDirectory_of_entry hentry
  induction hn with
  | root hv => exact .inl ((KeepsRoots.of_volumes rfl).attached hv)
  | @entry e a x _ he ih =>
    rcases ih with ih | rfl
    · by_cases hsame : e = d ∧ a = name
      · obtain ⟨rfl, rfl⟩ := hsame
        exact .inr (Option.some.inj (he.symm.trans hentry))
      · exact .inl (ih.entry ((entry_unlisted h hdir).2 ⟨hsame, he⟩))
    · exact absurd he (hbare a x)

theorem strandsNothing_unlisted (hentry : w.Entry d name c) (hbare : ∀ a x, ¬w.Entry c a x) :
    w.StrandsNothing (w.setChildren d ((w.children d).erase name)) := by
  refine strandsNothing_of_keep (fun n hn => ?_) fun e a x _ he => ?_
  · rcases hn.unlisted h hentry hbare with hn | rfl
    · exact .inl hn
    · exact .inr hbare
  · exact ((entry_unlisted h (h.isDirectory_of_entry hentry)).1 he).2

/-! ## Entries that are moved -/

section

variable {oldDir : NodeId} {oldName : String} (hentry : w.Entry oldDir oldName n)
  (hdir : w.isDirectory d = true)

include hentry hdir

/-- Turning a node to another directory changes no entry. The taken entry is gone, and the new one
is in place of what was there. -/
theorem entry_relinked {e x : NodeId} {a : String} :
    (w.relinked n oldDir oldName d name).Entry e a x ↔
      if e = d ∧ a = name then x = n else ¬(e = oldDir ∧ a = oldName) ∧ w.Entry e a x := by
  have hold := h.isDirectory_of_entry hentry
  have hedit : w.Edit (w.setChildren oldDir ((w.children oldDir).erase oldName)) := .unlisted hold
  have s := alike_setChildren h hold ((w.children oldDir).erase oldName)
  have hdir' := (s.isDirectory d).trans hdir
  have hlive : ((w.setChildren oldDir ((w.children oldDir).erase oldName)).setChildren d
      (((w.setChildren oldDir ((w.children oldDir).erase oldName)).children d).insert name n)).Live
        n := live_setNode.2 ((s.live n).2 (h.linked.live _ _ _ hentry))
  rw [relinked, Entry, children_setParent hlive, ← Entry, entry_listed (hedit.wellFormed h) hdir',
    entry_unlisted h hold]

theorem entry_relinked_target : (w.relinked n oldDir oldName d name).Entry d name n := by
  rw [entry_relinked h hentry hdir, if_pos ⟨rfl, rfl⟩]

theorem entry_relinked_of {e x : NodeId} {a : String} (he : w.Entry e a x)
    (hnew : ¬(e = d ∧ a = name)) (hold : ¬(e = oldDir ∧ a = oldName)) :
    (w.relinked n oldDir oldName d name).Entry e a x := by
  rw [entry_relinked h hentry hdir, if_neg hnew]
  exact ⟨hold, he⟩

variable (hd : w.Attached d) (habove : ¬w.Above n d)
  (hbare : ∀ t, w.Entry d name t → ∀ a x, ¬w.Entry t a x)

include hd habove hbare

/-- The directory that gets the entry is not below the node that moves, so it stays attached
whatever hangs on that node. -/
theorem attached_target_relinked : (w.relinked n oldDir oldName d name).Attached d := by
  have hroots : w.KeepsRoots (w.relinked n oldDir oldName d name) := .of_volumes rfl
  have hkeep : ∀ {m}, w.Attached m → ¬w.Above n m →
      (w.relinked n oldDir oldName d name).Attached m ∨ w.Entry d name m := by
    intro m hm
    induction hm with
    | root hv => exact fun _ => .inl (hroots.attached hv)
    | @entry e a m _ he ih =>
      intro hnot
      have hstays := ih fun hup => hnot (.head (h.hangs_of_entry he) hup)
      rcases hstays with hstays | hreplaced
      · by_cases hnew : e = d ∧ a = name
        · obtain ⟨rfl, rfl⟩ := hnew
          exact .inr he
        · refine .inl (hstays.entry (entry_relinked_of h hentry hdir he hnew fun hold => hnot ?_))
          obtain ⟨rfl, rfl⟩ := hold
          obtain rfl : m = n := Option.some.inj (he.symm.trans hentry)
          exact .refl
      · exact absurd he (hbare e hreplaced a m)
  exact (hkeep hd habove).resolve_right fun hself => hbare d hself name d hself

/-- **Only what is replaced comes loose** when an entry is moved into an attached directory. -/
theorem attached_relinked {m : NodeId} (hm : w.Attached m) :
    (w.relinked n oldDir oldName d name).Attached m ∨ w.Entry d name m := by
  have hroots : w.KeepsRoots (w.relinked n oldDir oldName d name) := .of_volumes rfl
  have htarget := attached_target_relinked h hentry hdir hd habove hbare
  induction hm with
  | root hv => exact .inl (hroots.attached hv)
  | @entry e a m _ he ih =>
    rcases ih with ih | hreplaced
    · by_cases hnew : e = d ∧ a = name
      · obtain ⟨rfl, rfl⟩ := hnew
        exact .inr he
      by_cases hold : e = oldDir ∧ a = oldName
      · obtain ⟨rfl, rfl⟩ := hold
        obtain rfl : m = n := Option.some.inj (he.symm.trans hentry)
        exact .inl (htarget.entry (entry_relinked_target h hentry hdir))
      · exact .inl (ih.entry (entry_relinked_of h hentry hdir he hnew hold))
    · exact absurd he (hbare e hreplaced a m)

theorem strandsNothing_relinked : w.StrandsNothing (w.relinked n oldDir oldName d name) := by
  refine strandsNothing_of_keep (fun m hm => ?_) fun e a x hloose he => ?_
  · exact (attached_relinked h hentry hdir hd habove hbare hm).imp_right (hbare m)
  · rw [entry_relinked h hentry hdir] at he
    split at he
    · next hnew =>
      obtain ⟨rfl, -⟩ := hnew
      exact absurd (attached_target_relinked h hentry hdir hd habove hbare) hloose
    · exact he.2

end

end VirtualFs.World
