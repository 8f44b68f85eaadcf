/-
What the memory filesystem leaves strands nothing, as long as no entry is put
into a loose directory: an entry is removed or replaced only if the node it
leads to lists nothing, and no directory is moved below itself. Directories that
carry volumes stay attached as long as nothing is moved into a loose directory,
for they are neither removed nor replaced (`World.Anchors`).
-/
import VirtualFs.Proofs.OtherVolumes
import VirtualFs.Proofs.RamChecks
import VirtualFs.Proofs.Tidiness

namespace VirtualFs

open Relation (ReflTransGen)

namespace World

variable {w w' : World} (h : w.WellFormed) {n d oldDir : NodeId} {name oldName : String}

include h

/-! ## Making nodes -/

theorem Inserted.entry (hinserted : w.Inserted d name n w') : w'.Entry d name n := by
  obtain ⟨ino, mode, content, ops, hmade, -, hdir, -, -, -, -, rfl⟩ := hinserted.made h
  rw [entry_listed (hmade.wellFormed h) hdir, if_pos ⟨rfl, rfl⟩]

theorem Inserted.strandsNothing (hinserted : w.Inserted d name n w') (hd : w.Attached d) :
    w.StrandsNothing w' := by
  obtain ⟨ino, mode, content, ops, hmade, s, hdir, -, -, -, -, rfl⟩ := hinserted.made h
  have hroots := keepsRoots_withNode h hinserted.isDirectory ino mode content ops
  have hattached := hd.keep hroots fun _ _ _ he => s.entry_of he
  exact (s.strandsNothing hroots).trans (strandsNothing_listed (hmade.wellFormed h) hattached hdir
    (fun c he => hinserted.free c (s.entry he)) n)

/-! ## Taking entries away -/

theorem Removed.strandsNothing (hremoved : w.Removed d name w') : w.StrandsNothing w' := by
  obtain ⟨hentry, hbare⟩ := hremoved
  have hedit : w.Edit (w.setChildren d ((w.children d).erase name)) :=
    .unlisted (h.isDirectory_of_entry hentry)
  exact (strandsNothing_unlisted h hentry hbare).trans
    (strandsNothing_settle (hedit.wellFormed h))

/-! ## Moving entries -/

section

variable (hrenamed : w.Renamed oldDir oldName d name w') (hd : w.Attached d)

include hrenamed hd

theorem Renamed.listed : ∃ c, w'.Entry d name c ∧ w'.Attached c := by
  cases hrenamed with
  | @same c _ hc => exact ⟨c, hc, hd.entry hc⟩
  | @moved c hentry hdir hvolume habove hname hbare =>
    have h' := Edits.wellFormed (RamFs.edits_relinked h hentry hdir hvolume habove hname) h
    have hd' := attached_target_relinked h hentry hdir hd habove hbare
    obtain ⟨hlisted, hsettled⟩ := Entry.settle h' (entry_relinked_target h hentry hdir) hd'
    exact ⟨c, hlisted, hsettled.entry hlisted⟩

/-- Nothing comes loose but what was replaced. -/
theorem Renamed.attached (hn : w.Attached n) : w'.Attached n ∨ w.Entry d name n := by
  cases hrenamed with
  | same => exact .inl hn
  | moved hentry hdir hvolume habove hname hbare =>
    have h' := Edits.wellFormed (RamFs.edits_relinked h hentry hdir hvolume habove hname) h
    exact (attached_relinked h hentry hdir hd habove hbare hn).imp_left (Attached.settle h')

theorem Renamed.strandsNothing : w.StrandsNothing w' := by
  cases hrenamed with
  | same => exact .refl w
  | moved hentry hdir hvolume habove hname hbare =>
    have h' := Edits.wellFormed (RamFs.edits_relinked h hentry hdir hvolume habove hname) h
    exact (strandsNothing_relinked h hentry hdir hd habove hbare).trans (strandsNothing_settle h')

end

/-! ## Touching nodes -/

omit h in
theorem SameTrees.of_touch (htouch : w.Touch w') : w.SameTrees w' := by
  obtain ⟨hn, ht⟩ := htouch
  exact ⟨.of_volumes rfl, view_setNode (fun node => node.payload.children) hn ht.children⟩

omit h in
theorem strandsNothing_of_touches (hsteps : ReflTransGen Touch w w') : w.StrandsNothing w' := by
  induction hsteps with
  | refl => exact .refl w
  | tail _ hstep ih => exact ih.trans (SameTrees.of_touch hstep).strandsNothing

/-! ## Directories that carry volumes -/

/-- What carries a volume and is attached carries it still and stays attached. -/
def Anchors (w w' : World) : Prop :=
  ∀ p r, (w.node p).mountRoot = some r → w.Attached p →
    (w'.node p).mountRoot = some r ∧ w'.Attached p

omit h in
theorem Anchors.refl (w : World) : w.Anchors w := fun _ _ hr hp => ⟨hr, hp⟩

omit h in
theorem Anchors.trans {w'' : World} (s : w.Anchors w') (s' : w'.Anchors w'') : w.Anchors w'' := by
  intro p r hr hp
  obtain ⟨hr', hp'⟩ := s p r hr hp
  exact s' p r hr' hp'

omit h in
theorem SameTrees.anchors (s : w.SameTrees w')
    (hmount : ∀ p r, (w.node p).mountRoot = some r → (w'.node p).mountRoot = some r) :
    w.Anchors w' :=
  fun p r hr hp => ⟨hmount p r hr, hp.keep s.roots fun _ _ _ => s.entry_iff.2⟩

omit h in
theorem anchors_settle (h : w.WellFormed) : w.Anchors w.settle := by
  intro p r hr hp
  have hsettled := hp.settle h
  rw [(node_settle (hsettled.live (Edits.wellFormed (edits_settle w) h))).2]
  exact ⟨hr, hsettled⟩

omit h in
theorem Touch.anchors (htouch : w.Touch w') : w.Anchors w' := by
  obtain ⟨hn, ht⟩ := htouch
  have hmount := view_setNode (fun node => node.mountRoot) hn ht.mountRoot
  exact (SameTrees.of_touch ⟨hn, ht⟩).anchors fun p r hr => (hmount p).trans hr

omit h in
theorem anchors_of_touches (hsteps : ReflTransGen Touch w w') : w.Anchors w' := by
  induction hsteps with
  | refl => exact .refl w
  | tail _ hstep ih => exact ih.trans hstep.anchors

theorem Inserted.anchors (hinserted : w.Inserted d name n w') : w.Anchors w' := by
  intro p r hr hp
  refine ⟨hinserted.mountRoot_eq h hr, hp.keep (hinserted.keepsRoots h) fun e a x he => ?_⟩
  exact (hinserted.entry_iff h).2 (.inl he)

omit h in
/-- What a node lists and where it hangs is no concern of what is mounted on it. -/
theorem mountRoot_relinked (oldDir : NodeId) (oldName : String) (d : NodeId) (name : String)
    (p : NodeId) :
    ((w.relinked n oldDir oldName d name).node p).mountRoot = (w.node p).mountRoot := by
  have hview (w : World) (m : NodeId) (f : RamNode → RamNode) :
      ((w.setNode m (Node.mapRam f)).node p).mountRoot = (w.node p).mountRoot :=
    view_setNode_of Node.mountRoot (Node.mountRoot_mapRam f) p
  rw [relinked, setParent, World.setChildren, World.setChildren, hview, hview, hview]

theorem Removed.anchors (hremoved : w.Removed d name w')
    (hplain : ∀ c, w.Entry d name c → (w.node c).mountRoot = none) : w.Anchors w' := by
  obtain ⟨hentry, hbare⟩ := hremoved
  have hdir := h.isDirectory_of_entry hentry
  have hedit : w.Edit (w.setChildren d ((w.children d).erase name)) := .unlisted hdir
  refine Anchors.trans (fun p r hr hp => ⟨?_, ?_⟩) (anchors_settle (hedit.wellFormed h))
  · exact (view_setNode_of Node.mountRoot (Node.mountRoot_mapRam _) p).trans hr
  · rcases hp.unlisted h hentry hbare with hp' | rfl
    · exact hp'
    · cases (hplain p hentry).symm.trans hr

theorem Renamed.anchors (hrenamed : w.Renamed oldDir oldName d name w') (hd : w.Attached d)
    (hplain : ∀ t, w.Entry d name t → (w.node t).mountRoot = none) : w.Anchors w' := by
  cases hrenamed with
  | same => exact .refl w
  | moved hentry hdir hvolume habove hname hbare =>
    have h' := Edits.wellFormed (RamFs.edits_relinked h hentry hdir hvolume habove hname) h
    refine Anchors.trans (fun p r hr hp => ⟨?_, ?_⟩) (anchors_settle h')
    · rw [mountRoot_relinked, hr]
    · rcases attached_relinked h hentry hdir hd habove hbare hp with hp' | hreplaced
      · exact hp'
      · cases (hplain p hreplaced).symm.trans hr

/-- **A request strands nothing** if it puts no entry into a loose directory. -/
theorem Served.strandsNothing {target : Option NodeId} (hserved : w.Served target w')
    (htarget : ∀ d, target = some d → w.Attached d) : w.StrandsNothing w' := by
  cases hserved with
  | inserted _ hinserted => exact hinserted.strandsNothing h (htarget _ rfl)
  | removed hremoved => exact hremoved.strandsNothing h
  | renamed hrenamed => exact hrenamed.strandsNothing h (htarget _ rfl)
  | touched hsteps => exact strandsNothing_of_touches hsteps

end World

/-! ## Edits that strand nothing -/

variable {w w' : World} (h : w.WellFormed) {n d oldDir : NodeId} {name oldName : String}
  {v : VolumeKey}

/-- A sequence of edits that strands nothing. -/
def World.Grafts (w w' : World) : Prop := w.Edits w' ∧ w.StrandsNothing w'

/-- One that keeps to a volume. -/
structure World.GraftsOn (v : VolumeKey) (w w' : World) : Prop where
  grafts : w.Grafts w'
  exempts : ∀ u ≠ v, w.Exempts u w'
  tidy : w.Tidy → w'.Tidy
  anchors : w.Anchors w'

theorem World.GraftsOn.of_steps (hsteps : ReflTransGen (World.GraftsOn v) w w') :
    w.GraftsOn v w' := by
  induction hsteps with
  | refl => exact ⟨⟨.refl, .refl w⟩, fun u _ => .refl w, id, .refl w⟩
  | tail _ hstep ih =>
    exact ⟨⟨ih.grafts.1.trans hstep.grafts.1, ih.grafts.2.trans hstep.grafts.2⟩,
      fun u hu => (ih.exempts u hu).trans (hstep.exempts u hu), hstep.tidy ∘ ih.tidy,
      ih.anchors.trans hstep.anchors⟩

include h

namespace RamFs

theorem wellFormed_of_grafts (hsteps : ReflTransGen (World.GraftsOn v) w w') : w'.WellFormed :=
  World.Edits.wellFormed (World.GraftsOn.of_steps hsteps).grafts.1 h

theorem insert_grafts {mode : UInt32} {content : Content} {ops : Option OpsKind}
    (hd : w.Attached d) (hv : (w.node d).volume = v) (hname : IsEntryName name)
    (hmode : Mode.typeBits mode = content.type) (hcontent : content.children = .empty)
    (hops : w.isDirectory d = true → ops = some .ram ∨ content = .device) :
    (insert v d name mode content ops).Leads (World.GraftsOn v) w fun n w' =>
      w'.Attached n ∧ (w'.node n).volume = v ∧ w.Keeps w' :=
  (insert_inserts h (hd.live h) hv.symm hmode hcontent hops).leads fun n w' hinserted => by
    have hstrands := hinserted.strandsNothing h hd
    have hexempts : ∀ u ≠ v, w.Exempts u w' := fun u hu =>
      hinserted.exempts (hv ▸ Ne.symm hu)
    exact ⟨.single ⟨⟨hinserted.edits h hname, hstrands⟩, hexempts, hinserted.tidy h,
        hinserted.anchors h⟩,
      hstrands.attached_of_new (hinserted.entry h) (hinserted.free n),
      (hinserted.volume_eq h).trans hv, hinserted.keeps h⟩

theorem rename_grafts (hold : w.Live oldDir) (hd : w.Attached d)
    (holdVolume : (w.node oldDir).volume = v) (hv : (w.node d).volume = v)
    (hold_name : IsEntryName oldName) (hname : IsEntryName name) (mustBeDirectory : Bool) :
    (rename v oldDir oldName d name mustBeDirectory).LeadsOnly (World.GraftsOn v) w := by
  have hrenames := rename_renames h v hold (hd.live h) (holdVolume.trans hv.symm) hold_name hname
    mustBeDirectory
  have hchecks := rename_checks h v hold (hd.live h) hold_name hname mustBeDirectory
  refine (hrenames.and hchecks).leads fun _ w' ⟨hrenamed, hchecked⟩ => ⟨.single ?_, trivial⟩
  obtain ⟨n, hentry⟩ := hrenamed.source
  obtain ⟨hplain, hgives⟩ := hchecked n hentry
  exact
    { grafts := ⟨hrenamed.edits h, hrenamed.strandsNothing h hd⟩
      exempts := fun _ hu => hrenamed.exempts h (hv ▸ Ne.symm hu) (holdVolume ▸ Ne.symm hu)
      tidy := hrenamed.tidy
      anchors := hrenamed.anchors h hd fun t ht => by
        by_cases heq : t = n
        · exact heq ▸ hplain
        · exact ((hgives t ht).2 heq).plain }

theorem unlink_grafts (hd : w.Live d) (hv : (w.node d).volume = v) (name : String) :
    (unlink v d name).LeadsOnly (World.GraftsOn v) w := by
  have hremoves := (unlink_removes h v hd name).and (unlink_checks h v hd name)
  refine hremoves.leads fun _ w' ⟨hremoved, hchecked⟩ => ⟨.single ?_, trivial⟩
  exact
    { grafts := ⟨hremoved.edits h, hremoved.strandsNothing h⟩
      exempts := fun _ hu => hremoved.exempts (hv ▸ Ne.symm hu)
      tidy := fun _ => hremoved.tidy
      anchors := hremoved.anchors h fun c hc => h.mountRoot_of_not_isDirectory (hchecked c hc) }

end RamFs

end VirtualFs
