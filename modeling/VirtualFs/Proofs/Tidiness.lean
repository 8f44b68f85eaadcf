/-
What the memory filesystem leaves is tidy if what it found was. A node that is
made is listed at once; where an entry goes, everything is settled; and nothing
else takes a reference away.
-/
import VirtualFs.Proofs.Attachment
import VirtualFs.Proofs.References

namespace VirtualFs.World

open Relation (ReflTransGen)

variable {w w' : World} {n d : NodeId} {name : String}

/-- What is referred to stays so if volumes keep their roots, the node is listed by something still
and is mounted where it was, and nothing changes outside the trees. -/
theorem Refers.keep (hn : w.Refers n) (hroots : w.KeepsRoots w')
    (hentry : ∀ d name, w.Entry d name n → ∃ d' name', w'.Entry d' name' n)
    (hmount : ∀ p, (w.node p).mountRoot = some n → (w'.node p).mountRoot = some n)
    (hfiles : w'.files = w.files) (hcontexts : w'.contexts = w.contexts)
    (hpins : w'.pins = w.pins) : w'.Refers n := by
  cases hn with
  | root hv =>
    obtain ⟨hv', hroot⟩ := hroots _ hv
    exact hroot ▸ .root hv'
  | entry he =>
    obtain ⟨d', name', he'⟩ := hentry _ _ he
    exact .entry he'
  | mounted hr => exact .mounted (hmount _ hr)
  | file hf => exact .file (hfiles ▸ hf)
  | cwd hc => exact .cwd (hcontexts ▸ hc)
  | pin hp => exact .pin (hpins ▸ hp)

/-- A world whose nodes all lived before, and are as much referred to as they were. -/
theorem Tidy.keep (htidy : w.Tidy) (hlive : ∀ n, w'.Live n → w.Live n) (hroots : w.KeepsRoots w')
    (hentry : ∀ d name c, w.Entry d name c → w'.Entry d name c)
    (hmount : ∀ p r, (w.node p).mountRoot = some r → (w'.node p).mountRoot = some r)
    (hfiles : w'.files = w.files) (hcontexts : w'.contexts = w.contexts)
    (hpins : w'.pins = w.pins) : w'.Tidy := fun n hn =>
  (htidy n (hlive n hn)).keep hroots (fun d name he => ⟨d, name, hentry d name n he⟩)
    (fun p hr => hmount p n hr) hfiles hcontexts hpins

theorem Touch.tidy (htouch : w.Touch w') (htidy : w.Tidy) : w'.Tidy := by
  obtain ⟨hn, ht⟩ := htouch
  have hchildren := view_setNode (fun node => node.payload.children) hn ht.children
  have hmount := view_setNode (fun node => node.mountRoot) hn ht.mountRoot
  exact htidy.keep (fun _ hlive => live_setNode.1 hlive) (.of_volumes rfl)
    (fun d name c he => by rw [Entry, World.children, hchildren d]; exact he)
    (fun p r hr => (hmount p).trans hr) rfl rfl rfl

theorem tidy_of_touches (hsteps : ReflTransGen Touch w w') (htidy : w.Tidy) : w'.Tidy := by
  induction hsteps with
  | refl => exact htidy
  | tail _ hstep ih => exact hstep.tidy ih

/-! ## Mounting -/

theorem tidy_withVolume (htidy : w.Tidy) (id : Nat) (device : String) (flags : VolumeFlags) :
    (w.withVolume id device flags).Tidy := by
  have s := grown_withVolume w id device flags
  have hroot : ((w.withVolume id device flags).volume w.volumes.nextKey).root =
      w.nodes.nextKey := by
    rw [volume_withVolume, if_pos rfl]
  intro n hn
  rcases (s.live n).1 hn with rfl | hold
  · exact hroot ▸ .root ((has_withVolume _).2 (.inl rfl))
  · exact (htidy n hold).keep (keepsRoots_withVolume id device flags)
      (fun d name he => ⟨d, name, s.entry_of he⟩)
      (fun p hr => by rw [s.node_of_live (live_of_mountRoot hr)]; exact hr) rfl rfl rfl

/-- Nothing that was mounted somewhere else is touched by a mount. -/
theorem mountRoot_attach {v : VolumeKey} {p q r : NodeId} (hv : w.volumes.has v = true)
    (hp : w.Live p) (hbare : (w.node p).mountRoot = none) (id : Nat)
    (hr : (w.node q).mountRoot = some r) : ((w.attach id v p).node q).mountRoot = some r := by
  rw [node_attach hv hp, if_neg]
  · exact hr
  · rintro rfl
    cases hbare.symm.trans hr

theorem tidy_attach {v : VolumeKey} {p : NodeId} (htidy : w.Tidy) (hv : w.volumes.has v = true)
    (hp : w.Live p) (hbare : (w.node p).mountRoot = none) (id : Nat) :
    (w.attach id v p).Tidy := by
  have s := sameTrees_attach hv hp id
  exact htidy.keep (fun n hn => ((alike_attach hv hp id).live n).1 hn) s.roots
    (fun _ _ _ => s.entry_iff.2) (fun _ _ hr => mountRoot_attach hv hp hbare id hr) rfl rfl rfl

/-! ## Requests -/

variable (h : w.WellFormed)

include h

/-- What a new node adds is its one entry. -/
theorem Inserted.entry_iff (hinserted : w.Inserted d name n w') {e x : NodeId} {a : String} :
    w'.Entry e a x ↔ w.Entry e a x ∨ e = d ∧ a = name ∧ x = n := by
  have hfree := hinserted.free
  obtain ⟨ino, mode, content, ops, hmade, s, hdir, -, -, -, -, rfl⟩ := hinserted.made h
  rw [entry_listed (hmade.wellFormed h) hdir]
  by_cases hnew : e = d ∧ a = name
  · obtain ⟨rfl, rfl⟩ := hnew
    simp [hfree x]
  · rw [if_neg hnew]
    refine ⟨fun he => .inl (s.entry he), fun he => s.entry_of (he.resolve_right ?_)⟩
    rintro ⟨rfl, rfl, -⟩
    exact hnew ⟨rfl, rfl⟩

theorem Inserted.live_iff (hinserted : w.Inserted d name n w') {m : NodeId} :
    w'.Live m ↔ w.Live m ∨ m = n := by
  cases hinserted with
  | mk hdir _ _ hmode hcontent hops =>
    rw [or_comm, ← (grown_withNode h hdir hmode hcontent hops).live m]
    exact live_setNode

/-- Of the nodes that were there, the one that lists the new node changes, in what it lists. -/
theorem Inserted.node_eq (hinserted : w.Inserted d name n w') {m : NodeId} (hm : w.Live m) :
    w'.node m = if m = d then
      (w.node d).mapRam fun ram => { ram with content := .directory ((w.children d).insert name n) }
    else w.node m := by
  cases hinserted with
  | @mk ino mode content ops hdir _ _ hmode hcontent hops =>
    have s : w.Grown (w.withNode d ino mode content ops) :=
      grown_withNode h hdir hmode hcontent hops
    have hlive := live_of_isDirectory hdir
    rw [World.setChildren, node_setNode ((s.live d).2 (.inr hlive)), s.node_of_live hlive,
      s.node_of_live hm]

theorem Inserted.mountRoot_eq (hinserted : w.Inserted d name n w') {p r : NodeId}
    (hr : (w.node p).mountRoot = some r) : (w'.node p).mountRoot = some r := by
  have hp := live_of_mountRoot hr
  rw [hinserted.node_eq h hp]
  split
  · next heq =>
    subst heq
    rw [(h.ram _ hp).mapRam]
    exact hr
  · exact hr

theorem Inserted.keepsRoots (hinserted : w.Inserted d name n w') : w.KeepsRoots w' := by
  cases hinserted with
  | @mk ino mode content ops hdir =>
    have hroots : w.KeepsRoots (w.withNode d ino mode content ops) :=
      keepsRoots_withNode h hdir ino mode content ops
    exact hroots

theorem Inserted.tidy (hinserted : w.Inserted d name n w') (htidy : w.Tidy) : w'.Tidy := by
  intro m hm
  rcases (hinserted.live_iff h).1 hm with hold | rfl
  · obtain ⟨hfiles, hcontexts, hpins⟩ : w'.files = w.files ∧ w'.contexts = w.contexts ∧
        w'.pins = w.pins := by
      cases hinserted with
      | mk => exact ⟨rfl, rfl, rfl⟩
    exact (htidy m hold).keep (hinserted.keepsRoots h)
      (fun e a he => ⟨e, a, (hinserted.entry_iff h).2 (.inl he)⟩)
      (fun p hp => hinserted.mountRoot_eq h hp) hfiles hcontexts hpins
  · exact .entry ((hinserted.entry_iff h).2 (.inr ⟨rfl, rfl, rfl⟩))

omit h in
theorem Removed.tidy (hremoved : w.Removed d name w') : w'.Tidy := by
  obtain ⟨-, -⟩ := hremoved
  exact tidy_settle _

omit h in
theorem Renamed.tidy {oldDir : NodeId} {oldName : String}
    (hrenamed : w.Renamed oldDir oldName d name w') (htidy : w.Tidy) : w'.Tidy := by
  cases hrenamed with
  | same => exact htidy
  | moved => exact tidy_settle _

/-- **A request leaves a world tidy.** -/
theorem Served.tidy {target : Option NodeId} (hserved : w.Served target w') (htidy : w.Tidy) :
    w'.Tidy := by
  cases hserved with
  | inserted _ hinserted => exact hinserted.tidy h htidy
  | removed hremoved => exact hremoved.tidy
  | renamed hrenamed => exact hrenamed.tidy htidy
  | touched hsteps => exact tidy_of_touches hsteps htidy

end VirtualFs.World
