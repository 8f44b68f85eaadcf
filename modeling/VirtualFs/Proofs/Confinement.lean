/-
The memory filesystem keeps to its own data, in whatever world it is asked:
it changes what nodes hold, makes nodes and the numbers they get, and lets go
of nodes that nothing refers to.
-/
import VirtualFs.Boot
import VirtualFs.Proofs.Drivers
import VirtualFs.Proofs.RamEdits

namespace VirtualFs

open VirtualFs.Action (leads_query_bind leads_demand_bind leads_bind leads_pure leads_throw
  leads_change leads_change_bind leads_world_bind leads_ask_bind leads_query leads_note_bind
  leads_andFinally)

namespace World

/-! ## Sequences of confined changes -/

theorem Confined.refl (w : World) : w.Confined none w where
  limits := rfl
  table := rfl
  nextVolumeId := rfl
  rootVolume := rfl
  drivers := rfl
  contexts := rfl
  tasks := rfl
  files := rfl
  pins := rfl
  hasVolume v := by simp
  volume v _ := .refl _
  nextKey := Nat.le_refl _
  old n _ hn := ⟨hn, .refl _⟩
  new n hle hn := absurd hn.lt (Nat.not_lt.2 hle)
  kept n _ hn := hn

/-- What the library keeps is not for a driver to change. -/
theorem Confined.anchored {w w' : World} {made : Option VolumeKey} (c : w.Confined made w')
    {n : NodeId} (hn : w.Anchored n) : w'.Anchored n := by
  rcases hn with ⟨v, hv, rfl⟩ | ⟨f, file, hfile, rfl⟩ | ⟨i, context, hcontext, rfl⟩ | ⟨name, hname⟩
  · exact .inl ⟨v, (c.hasVolume v).2 (.inr hv), (c.volume v hv).root_eq⟩
  · exact .inr (.inl ⟨f, file, by rw [c.files]; exact hfile, rfl⟩)
  · exact .inr (.inr (.inl ⟨i, context, by rw [c.contexts]; exact hcontext, rfl⟩))
  · exact .inr (.inr (.inr ⟨name, by rw [c.pins]; exact hname⟩))

theorem Confined.trans {w w' w'' : World} (c : w.Confined none w') (c' : w'.Confined none w'') :
    w.Confined none w'' where
  limits := c'.limits.trans c.limits
  table := c'.table.trans c.table
  nextVolumeId := c'.nextVolumeId.trans c.nextVolumeId
  rootVolume := c'.rootVolume.trans c.rootVolume
  drivers := c'.drivers.trans c.drivers
  contexts := c'.contexts.trans c.contexts
  tasks := c'.tasks.trans c.tasks
  files := c'.files.trans c.files
  pins := c'.pins.trans c.pins
  hasVolume v := by simpa [c.hasVolume v] using c'.hasVolume v
  volume v hv := (c.volume v hv).trans (c'.volume v ((c.hasVolume v).2 (.inr hv)))
  nextKey := Nat.le_trans c.nextKey c'.nextKey
  old n hlt hn := by
    obtain ⟨hn', hstays'⟩ := c'.old n (Nat.lt_of_lt_of_le hlt c.nextKey) hn
    obtain ⟨hn, hstays⟩ := c.old n hlt hn'
    exact ⟨hn, hstays.trans hstays'⟩
  new n hle hn := by
    by_cases hlt : n < w'.nodes.nextKey
    · obtain ⟨hn', hstays⟩ := c'.old n hlt hn
      rw [hstays.mountRoot]
      exact c.new n hle hn'
    · exact c'.new n (Nat.not_lt.1 hlt) hn
  kept n hanchored hn := c'.kept n (c.anchored hanchored) (c.kept n hanchored hn)

/-- A change that a driver may make. -/
abbrev Own (w w' : World) : Prop := w.Confined none w'

theorem Own.of_steps {w w' : World} (h : Relation.ReflTransGen Own w w') : w.Own w' := by
  induction h with
  | refl => exact .refl w
  | tail _ hstep ih => exact Confined.trans ih hstep

/-! ## Single changes -/

section

variable {w : World} {n : NodeId}

theorem own_sweep (w : World) : w.Own w.sweep where
  __ := Confined.refl w
  nextKey := Nat.le_of_eq (Arena.nextKey_keep _ _).symm
  old n _ hn := by
    rw [node_sweep hn]
    exact ⟨(live_sweep.1 hn).1, .refl _⟩
  new n hle hn := absurd (live_sweep.1 hn).1.lt (Nat.not_lt.2 hle)
  kept n hanchored hn := by
    refine live_sweep.2 ⟨hn, ?_⟩
    rcases hanchored with ⟨v, hv, rfl⟩ | ⟨f, file, hfile, rfl⟩ | ⟨c, context, hcontext, rfl⟩ |
      ⟨name, hname⟩
    · exact root_mem_references hv
    · exact file_mem_references hfile
    · exact cwd_mem_references hcontext
    · exact pin_mem_references hname

theorem own_settle (w : World) : w.Own w.settle :=
  settle_related Confined.refl Confined.trans own_sweep w

/-- What a node holds is the driver's. -/
theorem own_setNode {f : Node → Node} (hf : (w.node n).Stays (f (w.node n))) :
    w.Own (w.setNode n f) where
  __ := Confined.refl w
  nextKey := Nat.le_of_eq nextKey_setNode.symm
  old m _ hm := by
    rw [live_setNode] at hm
    refine ⟨hm, ?_⟩
    have hnode : (w.setNode n f).node m = if n = m then f (w.node m) else w.node m := by
      rw [World.node, setNode, Arena.get?_modify, hm.get?]
      split <;> rfl
    rw [hnode]
    split
    · next heq => exact heq ▸ hf
    · exact .refl _
  new m hle hm := absurd (live_setNode.1 hm).lt (Nat.not_lt.2 hle)
  kept m _ hm := live_setNode.2 hm

theorem own_mapRam (n : NodeId) (f : RamNode → RamNode) : w.Own (w.setNode n (·.mapRam f)) := by
  refine own_setNode ?_
  rw [Node.mapRam]
  split <;> exact ⟨rfl, rfl, rfl, rfl⟩

theorem own_setVolume (v : VolumeKey) (next : Option Nat) :
    w.Own (w.setVolume v fun volume => { volume with nextIno := next }) where
  __ := Confined.refl w
  hasVolume u := by simp [has_setVolume]
  volume u hu := by
    obtain ⟨volume, hvolume⟩ := Arena.has_iff.1 hu
    rw [World.volume, World.volume, setVolume, Arena.get?_modify, hvolume]
    split
    · rfl
    · exact .refl _

theorem own_push {node : Node} (hbare : node.mountRoot = none) :
    w.Own { w with nodes := w.nodes.push node } := by
  have hnodes : ({ w with nodes := w.nodes.push node } : World).nodes = w.nodes.push node := rfl
  refine
    { Confined.refl w with
      nextKey := by simp
      old := fun m hlt hm => ?_
      new := fun m hle hm => ?_
      kept := fun m _ hm => (live_push rfl hnodes).2 (.inr hm) }
  · have hne : m ≠ w.nodes.nextKey := Nat.ne_of_lt hlt
    rw [node_push rfl hnodes, if_neg hne]
    exact ⟨((live_push rfl hnodes).1 hm).resolve_left hne, .refl _⟩
  · rcases (live_push rfl hnodes).1 hm with rfl | hm
    · rwa [node_push rfl hnodes, if_pos rfl]
    · exact absurd hm.lt (Nat.not_lt.2 hle)

end

/-! ## Requests -/

variable {w w' : World} {d : NodeId} {name : String}

theorem Inserted.own {n : NodeId} (hinserted : w.Inserted d name n w') : w.Own w' := by
  obtain ⟨-, -, -, -, -, -⟩ := hinserted
  exact ((own_setVolume _ _).trans (own_push rfl)).trans (own_mapRam d _)

theorem Removed.own (hremoved : w.Removed d name w') : w.Own w' := by
  obtain ⟨-, -⟩ := hremoved
  exact (own_mapRam d _).trans (own_settle _)

theorem Renamed.own {oldDir : NodeId} {oldName : String}
    (hrenamed : w.Renamed oldDir oldName d name w') : w.Own w' := by
  cases hrenamed with
  | same => exact .refl w
  | @moved n =>
    exact (((own_mapRam oldDir _).trans (own_mapRam d _)).trans (own_mapRam n _)).trans
      (own_settle _)

theorem Touch.own (htouch : w.Touch w') : w.Own w' := by
  obtain ⟨-, ht⟩ := htouch
  exact own_setNode ⟨ht.ino, ht.volumeId, ht.volume, ht.mountRoot⟩

/-- A request changes nothing but what is the memory filesystem's. -/
theorem Served.own {target : Option NodeId} (hserved : w.Served target w') : w.Own w' := by
  cases hserved with
  | inserted _ hinserted => exact hinserted.own
  | removed hremoved => exact hremoved.own
  | renamed hrenamed => exact hrenamed.own
  | touched hsteps => exact .of_steps (Relation.ReflTransGen.mono (fun _ _ => Touch.own) _ _ hsteps)

end World

open World (Own own_settle own_mapRam own_setVolume own_push)

/-! ## The memory filesystem -/

namespace RamFs

variable {w : World} {v : VolumeKey} {n d : NodeId}

theorem modifyNode_own (n : NodeId) (f : RamNode → RamNode) :
    (modifyNode n f).LeadsOnly Own w :=
  leads_change (.single (own_mapRam n f)) trivial

theorem settle_own : (Action.change World.settle : Act Unit).LeadsOnly Own w :=
  leads_change (.single (own_settle w)) trivial

theorem makeNode_own (v : VolumeKey) (d : NodeId) (mode : UInt32) (content : Content)
    (ops : Option OpsKind) : (makeNode v d mode content ops).LeadsOnly Own w := by
  refine leads_query_bind fun ino _ => leads_world_bind (leads_change_bind ?_ (leads_pure trivial))
  exact .head (own_setVolume v (some (ino + 1))) (.single (own_push rfl))

theorem insert_own (v : VolumeKey) (d : NodeId) (name : String) (mode : UInt32) (content : Content)
    (ops : Option OpsKind) : (insert v d name mode content ops).LeadsOnly Own w :=
  leads_query_bind fun _ _ => leads_query_bind fun _ _ => leads_demand_bind fun _ =>
    leads_bind (makeNode_own v d mode content ops) fun _ _ _ _ =>
      leads_bind (modifyNode_own d _) fun _ _ _ _ => leads_pure trivial

theorem unlink_own (v : VolumeKey) (d : NodeId) (name : String) :
    (unlink v d name).LeadsOnly Own w :=
  leads_query_bind fun _ _ => leads_query_bind fun _ _ => leads_query_bind fun _ _ =>
    leads_ask_bind (leads_demand_bind fun _ =>
      leads_bind (modifyNode_own d _) fun _ _ _ _ => settle_own)

theorem move_own (moved oldDir : NodeId) (oldName : String) (newDir : NodeId) (newName : String) :
    (move moved oldDir oldName newDir newName).LeadsOnly Own w := by
  refine leads_andFinally ?_ fun _ _ => settle_own
  exact leads_query_bind fun _ _ => leads_bind (modifyNode_own oldDir _) fun _ _ _ _ =>
    leads_query_bind fun _ _ => leads_bind (modifyNode_own newDir _) fun _ _ _ _ =>
      modifyNode_own moved _

theorem rename_own (v : VolumeKey) (oldDir : NodeId) (oldName : String) (newDir : NodeId)
    (newName : String) (mustBeDirectory : Bool) :
    (rename v oldDir oldName newDir newName mustBeDirectory).LeadsOnly Own w := by
  refine leads_query_bind fun _ _ => leads_query_bind fun moved _ => leads_world_bind <|
    leads_demand_bind fun _ => leads_demand_bind fun _ => leads_query_bind fun _ _ =>
    leads_demand_bind fun _ => leads_query_bind fun found _ => ?_
  split
  · split
    · exact leads_pure trivial
    · exact leads_query_bind fun _ _ => move_own moved oldDir oldName newDir newName
  · exact move_own moved oldDir oldName newDir newName
  · exact leads_throw

/-! ### Devices -/

theorem ensureDirectory_own (v : VolumeKey) (d : NodeId) (name : String) :
    (ensureDirectory v d name).LeadsOnly Own w := by
  refine leads_query_bind fun found _ => ?_
  split
  · exact leads_pure trivial
  · exact leads_query_bind fun _ _ => insert_own v d name _ _ _
  · exact leads_throw

theorem descend_own (v : VolumeKey) (d : NodeId) (names : List String) :
    (descend v d names).LeadsOnly Own w := by
  induction names generalizing d w with
  | nil => exact leads_throw
  | cons name rest ih =>
    cases rest with
    | nil => exact leads_query_bind fun _ _ => leads_pure trivial
    | cons next rest =>
      exact leads_query_bind fun _ _ => leads_bind (ensureDirectory_own v d name) fun n _ _ _ =>
        ih n

theorem devicePlace_own (v : VolumeKey) (path : String) : (devicePlace v path).LeadsOnly Own w :=
  leads_query_bind fun _ _ => descend_own v _ _

end RamFs

/-! ## Mounts and devices -/

/-- A volume with a root of its own is all that a mount makes. -/
theorem World.confined_withVolume (w : World) (id : Nat) (device : String) (flags : VolumeFlags) :
    w.Confined (some w.volumes.nextKey) (w.withVolume id device flags) := by
  have s := World.grown_withVolume w id device flags
  exact
    { World.Confined.refl w with
      hasVolume := fun v => by rw [World.has_withVolume, Option.some.injEq, eq_comm]
      volume := fun v hv => by
        rw [World.volume_withVolume_of_has hv]
        exact .refl _
      nextKey := by rw [s.nextKey]; exact Nat.le_succ _
      old := fun n hlt hn => by
        have hn := s.live_of_lt hlt hn
        rw [s.node_of_live hn]
        exact ⟨hn, .refl _⟩
      new := fun n hle hn => by
        rcases (s.live n).1 hn with rfl | hn
        · exact s.mountRoot
        · exact absurd hn.lt (Nat.not_lt.2 hle)
      kept := fun n _ hn => (s.live n).2 (.inr hn) }

theorem World.minted_withVolume (w : World) (id : Nat) (device : String) (flags : VolumeFlags) :
    w.Minted (w.withVolume id device flags) id w.volumes.nextKey := by
  have s := World.grown_withVolume w id device flags
  have hvolume : (w.withVolume id device flags).volume w.volumes.nextKey = _ :=
    (World.volume_withVolume w id device flags _).trans (if_pos rfl)
  have hnode := World.node_withVolume w id device flags
  have hroot : ((w.withVolume id device flags).volume w.volumes.nextKey).root =
      w.nodes.nextKey := by
    rw [hvolume]
  refine ⟨?_, by rw [hvolume], by rw [hvolume], Nat.le_of_eq hroot.symm, ?_, ?_, ?_⟩
  · exact Bool.eq_false_iff.2 fun hv => Nat.lt_irrefl _ (Arena.lt_nextKey_of_has hv)
  · exact hroot ▸ (s.live _).2 (.inl rfl)
  · rw [hroot, hnode]
  · rw [hroot, hnode]

/-- What happens below the device directory is the memory filesystem's doing. -/
theorem addDevice_own (path : String) (ops : OpsKind) (w : World) :
    w.Own ((addDevice path ops).after w) := by
  have hpublish : (addDevice path ops).LeadsOnly Own w :=
    leads_ask_bind (leads_bind (leads_bind (RamFs.devicePlace_own _ path) fun _ _ _ _ =>
      leads_bind (RamFs.insert_own _ _ _ _ _ _) fun _ _ _ _ => leads_query fun _ _ => trivial)
      fun _ _ _ _ => leads_note_bind (leads_pure trivial))
  exact .of_steps hpublish.1

theorem moveDevice_own (ino : Nat) (path : String) (w : World) :
    w.Own ((moveDevice ino path).after w) := by
  have hmove : (moveDevice ino path).LeadsOnly Own w :=
    leads_ask_bind (leads_query_bind fun _ _ => leads_bind (RamFs.devicePlace_own _ path)
      fun _ _ _ _ => RamFs.rename_own _ _ _ _ _ _)
  exact .of_steps hmove.1

theorem withdrawDevice_own (ino : Nat) (w : World) : w.Own ((withdrawDevice ino).after w) := by
  have hwithdraw : (withdrawDevice ino).LeadsOnly Own w :=
    leads_ask_bind (leads_query_bind fun _ _ => RamFs.unlink_own _ _ _)
  exact .of_steps hwithdraw.1

end VirtualFs
