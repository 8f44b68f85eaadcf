/-
What mounted volumes hang on. A directory that carries a volume is neither
removed nor replaced, so it stays where names lead to it, with two exceptions:
a volume can be mounted on a directory that came loose and is still held, and
a directory above a mount point can be moved into one. Short of these, every
volume but the first stays moored (`World.Moored`), whatever is done.
-/
import VirtualFs.Proofs.LooseDirectories
import VirtualFs.Proofs.MountHistory
import VirtualFs.Proofs.Whereabouts

namespace VirtualFs

open Relation (ReflTransGen)
open World (Move Turn)
open VirtualFs.Action (leads_query_bind leads_demand_bind leads_bind leads_pure leads_throw
  leads_note_bind leads_ask_bind leads_orUndo fails_note_bind)

/-! ## What leaves mount points where they are -/

namespace World

variable {w w' : World} {n d p : NodeId} {name : String}

/-- No entries are put anywhere and nothing is mounted. -/
def Range.none : Range := ⟨fun _ _ => False, fun _ _ => False⟩

theorem anchors_of_steps (hsteps : ReflTransGen Anchors w w') : w.Anchors w' := by
  induction hsteps with
  | refl => exact .refl w
  | tail _ hstep ih => exact ih.trans hstep

/-- A sequence of edits that leaves mount points where they are. -/
def Secures (w w' : World) : Prop := w.Edits w' ∧ w.Anchors w'

theorem secures_of_steps (hsteps : ReflTransGen Secures w w') : w.Secures w' := by
  induction hsteps with
  | refl => exact ⟨.refl, .refl w⟩
  | tail _ hstep ih => exact ⟨ih.1.trans hstep.1, ih.2.trans hstep.2⟩

theorem Anchors.of_nodes (hnodes : w'.nodes = w.nodes) (hvolumes : w'.volumes = w.volumes) :
    w.Anchors w' :=
  (SameTrees.of_nodes hnodes hvolumes).anchors fun p r hr => by
    rw [World.node, hnodes]
    exact hr

variable (h : w.WellFormed)

include h

theorem attached_mountedOn {name : String} {driver : DriverKind} {p : NodeId}
    (hdriver : w.drivers.get? name = some driver) (hp : w.Mountable p) (device : String)
    (flags : VolumeFlags) (args : String) (hn : w.Attached n) :
    (w.mountedOn driver device flags args p).Attached n := by
  obtain ⟨hroots, hentries⟩ := trees_mountedOn h hdriver hp device flags args
  exact hn.keep hroots fun d a c => (hentries d a c).2

theorem anchors_mountedOn {name : String} {driver : DriverKind} {p : NodeId}
    (hdriver : w.drivers.get? name = some driver) (hp : w.Mountable p) (device : String)
    (flags : VolumeFlags) (args : String) :
    w.Anchors (w.mountedOn driver device flags args p) := by
  intro q r hr hq
  refine ⟨?_, attached_mountedOn h hdriver hp device flags args hq⟩
  rw [h.mountedOn_eq hdriver hp]
  have s := grown_withVolume { w with nextVolumeId := w.nextVolumeId + 1 } w.nextVolumeId device
    flags
  refine mountRoot_attach ((has_withVolume _).2 (.inl rfl)) ((s.live p).2 (.inr hp.known.live)) ?_
    w.nextVolumeId ?_
  · exact hp.bare_withVolume _ _ device flags
  · rw [s.node_of_live (live_of_mountRoot hr)]
    exact hr

/-- Without new entries nothing is moved, and a directory that carries a volume is not removed. -/
theorem anchors_of_turn (hturn : Turn .none w w') : w.Anchors w' := by
  cases hturn with
  | asked request hproper htarget =>
    cases request with
    | createFile | createDirectory | createSymlink | rename => exact (htarget _ rfl).elim
    | unlink driver v d name =>
      obtain rfl := h.driver_eq_ram hproper.1
      have hd := hproper.1.known.live
      exact (fails_note_bind ((RamFs.unlink_removes h v hd name).and
        (RamFs.unlink_checks h v hd name))).after (.refl w) fun _ _ ⟨hremoved, hchecked⟩ =>
          hremoved.anchors h fun c hc => h.mountRoot_of_not_isDirectory (hchecked c hc)
    | removeDirectory driver v d name =>
      obtain rfl := h.driver_eq_ram hproper.1
      have hd := hproper.1.known.live
      exact (fails_note_bind ((RamFs.removeDirectory_removes h v hd name).and
        (RamFs.removeDirectory_checks h v hd name))).after (.refl w) fun _ _ ⟨hremoved, hchecked⟩ =>
          hremoved.anchors h fun c hc => (hchecked c hc).2
    | openFile ops v n flags =>
      exact anchors_of_touches (ops.openFile_touches h v hproper.1.known.live flags).1
    | write ops file position data =>
      exact anchors_of_touches (ops.write_touches h hproper.known.live position data).1
    | writeStatus ops v n status mask =>
      exact anchors_of_touches (ops.writeStatus_touches h v hproper.1.known.live status mask).1
  | mounted hdriver hp _ => exact anchors_mountedOn h hdriver hp _ _ _
  | deviceAdded => exact (addDevice_grafts h _ _).anchors
  | deviceMoved => exact (moveDevice_grafts h _ _).anchors
  | deviceWithdrawn => exact (withdrawDevice_grafts h _).anchors
  | held _ _ => exact .of_nodes rfl rfl
  | dropped hgripped =>
    have hmove : Move .none w _ := .held hgripped
    refine Anchors.trans ?_ (anchors_settle (Edits.wellFormed (h.edits_of_move hmove) h))
    exact .of_nodes rfl rfl

theorem anchors_of_turns (hturns : ReflTransGen (Turn .none) w w') : w.Anchors w' := by
  induction hturns with
  | refl => exact .refl w
  | tail hturns hturn ih =>
    have h' := Edits.wellFormed (h.edits_of_moves (moves_of_turns hturns)) h
    exact ih.trans (anchors_of_turn h' hturn)

/-! ### Renames -/

/-- What hangs neither on the moved node nor in the directory that gets it stays where it is. -/
theorem Attached.relinked {oldDir : NodeId} {oldName : String} (hentry : w.Entry oldDir oldName n)
    (hdir : w.isDirectory d = true) (hloose : ¬w.Attached d) {m : NodeId} (hm : w.Attached m)
    (habove : ¬w.Above n m) : (w.relinked n oldDir oldName d name).Attached m := by
  induction hm with
  | root hv => exact (KeepsRoots.of_volumes rfl).attached hv
  | @entry e a m he hem ih =>
    refine (ih fun hup => habove (.head (h.hangs_of_entry hem) hup)).entry
      (entry_relinked_of h hentry hdir hem ?_ ?_)
    · rintro ⟨rfl, -⟩
      exact hloose he
    · rintro ⟨rfl, rfl⟩
      obtain rfl : m = n := Option.some.inj (hem.symm.trans hentry)
      exact habove .refl

/-- A directory that carries a volume stays where it is unless something above it is moved to where
no names lead. -/
theorem Renamed.anchored {oldDir p r : NodeId} {oldName : String}
    (hrenamed : w.Renamed oldDir oldName d name w')
    (hplain : ∀ t, w.Entry d name t → (w.node t).mountRoot = none)
    (hr : (w.node p).mountRoot = some r) (hp : w.Attached p)
    (hclear : ∀ n, w.Entry oldDir oldName n → w.Above n p → w.Attached d) :
    (w'.node p).mountRoot = some r ∧ w'.Attached p := by
  by_cases hd : w.Attached d
  · exact hrenamed.anchors h hd hplain p r hr hp
  cases hrenamed with
  | same => exact ⟨hr, hp⟩
  | moved hentry hdir hvolume habove hname _ =>
    have h' := Edits.wellFormed (RamFs.edits_relinked h hentry hdir hvolume habove hname) h
    refine anchors_settle h' p r ?_ (hp.relinked h hentry hdir hd (mt (hclear _ hentry) hd))
    rw [mountRoot_relinked, hr]

end World

/-! ## Operations -/

/-- An operation moves a node, or one above it, to where no names lead. -/
def Operation.CastsOff (w : World) (p : NodeId) : Operation → Prop
  | .rename t oldBase oldPath newBase newPath => ∃ oldDir oldName d name n,
      (resolveTarget t oldBase (stripSlashes oldPath).1 w).result = .ok (oldDir, oldName) ∧
      (resolveTarget t newBase (stripSlashes newPath).1 w).result = .ok (d, name) ∧
      w.Entry oldDir oldName n ∧ w.Above n p ∧ ¬w.Attached d
  | _ => False

/-- An operation casts no mount point off, and mounts nothing on a directory that came loose. -/
def Operation.Moors (w : World) (op : Operation) : Prop :=
  (∀ p r, (w.node p).mountRoot = some r → ¬op.CastsOff w p) ∧ ∀ p, op.Covers w p → w.Attached p

section

variable {w : World} (h : w.WellFormed)

include h

theorem openName_anchors (t : TaskId) {d : NodeId} (hd : w.Known d) (name : String)
    (flags : OpenFlags) (mode : UInt32) :
    w.Anchors ((openName t d name flags mode).after w) := by
  have hsteps : (openName t d name flags mode).LeadsOnly World.Anchors w := by
    refine leads_query_bind fun found hfound => ?_
    rw [Query.result_attempt, Except.ok.injEq] at hfound
    split
    · next n =>
      have hsteady : w.Steady .none := h.steady
      have hturns := (openFound_turns hsteady (h.sound.known_opened hd hfound) flags).1
      exact leads_demand_bind fun _ =>
        ⟨.single (World.anchors_of_turns h hturns), fun _ _ => trivial⟩
    · split
      · exact (createNode_inserts h hd name flags mode).leads fun _ _ hinserted =>
          ⟨.single (hinserted.anchors h), trivial⟩
      · exact leads_throw
  exact World.anchors_of_steps hsteps.1

/-- A file that is created is listed, wherever that is; the rest of an open puts no entry
anywhere. -/
theorem openPath_anchors (t : TaskId) (base : Option Handle) (path : String) (flags : OpenFlags)
    (mode : UInt32) : w.Anchors ((openPath t base path flags mode).after w) := by
  have hturned : ∀ {α : Type} {x : Act α} {w : World} {Q : α → World → Prop}, w.WellFormed →
      x.Leads (Turn .none) w Q → x.LeadsOnly World.Secures w := fun h hx =>
    ⟨.single ⟨h.edits_of_moves (World.moves_of_turns hx.1), World.anchors_of_turns h hx.1⟩,
      fun _ _ => trivial⟩
  have hsteps : (openPath t base path flags mode).LeadsOnly World.Secures w := by
    refine leads_ask_bind (leads_bind (hturned h (allocateHandle_turns h.steady _))
      fun handle w₁ hsteps _ => ?_)
    have h₁ := World.Edits.wellFormed (World.secures_of_steps hsteps).1 h
    have hundone : ∀ w', ReflTransGen World.Secures w₁ w' →
        (giveBack (w.contextOf t flags.forKernel) handle).LeadsOnly World.Secures w' := by
      intro w' hsteps'
      have h' := World.Edits.wellFormed (World.secures_of_steps hsteps').1 h₁
      exact hturned h' (giveBack_turns h'.steady _ _)
    refine leads_orUndo ?_ hundone
    refine leads_query_bind fun start hstart => leads_query_bind fun found hfound => ?_
    obtain ⟨hknown, hwhole⟩ := h₁.sound.resolveTarget_yields t base path found
      (Query.result_bind_eq_ok.2 ⟨start, hstart, hfound⟩)
    have hopened : (openName t found.1 found.2 flags mode).Leads (Turn .all) w₁
        fun file w' => w'.Known file.node :=
      openName_turns h₁.steady t hknown hwhole flags mode fun _ _ => trivial
    have hsecured := And.intro (h₁.edits_of_moves (World.moves_of_turns hopened.1))
      (openName_anchors h₁ t hknown found.2 flags mode)
    refine leads_bind (P := fun file w' => w'.Known file.node) ⟨.single hsecured, hopened.2⟩
      fun file w₂ hsteps₂ hfile => ?_
    have h₂ := World.Edits.wellFormed (World.secures_of_steps hsteps₂).1 h₁
    exact leads_bind (hturned h₂ (commitFile_turns h₂.steady _ handle hfile)) fun _ _ _ _ =>
      leads_note_bind (leads_pure trivial)
  exact (World.secures_of_steps hsteps.1).2

theorem rename_anchored (t : TaskId) (oldBase : Option Handle) (oldPath : String)
    (newBase : Option Handle) (newPath : String) {p r : NodeId}
    (hr : (w.node p).mountRoot = some r) (hp : w.Attached p)
    (hclear : ¬(Operation.rename t oldBase oldPath newBase newPath).CastsOff w p) :
    (((rename t oldBase oldPath newBase newPath).after w).node p).mountRoot = some r ∧
      ((rename t oldBase oldPath newBase newPath).after w).Attached p := by
  have hkept : (w.node p).mountRoot = some r ∧ w.Attached p := ⟨hr, hp⟩
  refine (rename_renames h t oldBase oldPath newBase newPath).after (P := fun w' =>
    (w'.node p).mountRoot = some r ∧ w'.Attached p) hkept ?_
  rintro _ w' ⟨oldDir, oldName, d, name, hold, hnew, hrenamed, hchecked⟩
  obtain ⟨n, hentry⟩ := hrenamed.source
  obtain ⟨hplain, hgives⟩ := hchecked n hentry
  refine hrenamed.anchored h (fun t ht => ?_) hr hp fun n hn habove => ?_
  · by_cases heq : t = n
    · exact heq ▸ hplain
    · exact ((hgives t ht).2 heq).plain
  · by_contra hd
    exact hclear ⟨oldDir, oldName, d, name, n, hold, hnew, hn, habove, hd⟩

/-- What carries a volume and is attached stays so, whatever else is done than to cast it off. -/
theorem Operation.anchored (op : Operation) {p r : NodeId} (hr : (w.node p).mountRoot = some r)
    (hp : w.Attached p) (hclear : ¬op.CastsOff w p) :
    ((op.run w).node p).mountRoot = some r ∧ (op.run w).Attached p := by
  rw [op.run_eq_after]
  cases op with
  | rename t oldBase oldPath newBase newPath =>
    rw [act, Action.after_only]
    exact rename_anchored h t oldBase oldPath newBase newPath hr hp hclear
  | openPath t base path flags mode =>
    rw [act, Action.after_only]
    exact openPath_anchors h t base path flags mode p r hr hp
  | makeDirectory t base path mode =>
    rw [act, Action.after_only]
    refine (?_ : w.Anchors _) p r hr hp
    exact (makeDirectory_inserts h t base path mode).after (.refl w)
      fun _ _ ⟨_, _, _, ⟨_, hinserted⟩, _⟩ => hinserted.anchors h
  | makeSymlink t base path text =>
    rw [act, Action.after_only]
    refine (?_ : w.Anchors _) p r hr hp
    exact (makeSymlink_inserts h t base path text).after (.refl w)
      fun _ _ ⟨_, _, _, ⟨_, hinserted⟩, _⟩ => hinserted.anchors h
  | mount t device dir fs flags args =>
    rw [act, Action.after_only]
    have hsteady : w.Steady .all := h.steady
    rcases after_mount t device dir fs flags args with heq | ⟨q, driver, hq, hdriver, heq⟩
    · rw [heq]
      exact ⟨hr, hp⟩
    · rw [heq]
      exact World.anchors_mountedOn h hdriver (resolveMountPoint_mountable hsteady t dir q hq) _ _ _
        p r hr hp
  | _ =>
    -- Nothing else puts entries anywhere or mounts anything.
    refine (?_ : w.Anchors _) p r hr hp
    exact World.anchors_of_turns h (Operation.turns h.steady _ (fun _ _ _ _ => False.elim)
      (fun _ _ hentered => hentered) fun _ hcovers => hcovers)

/-- A mount leaves all that is attached attached. -/
theorem Operation.Covers.attached {op : Operation} {p n : NodeId} (hcovers : op.Covers w p)
    (hn : w.Attached n) : (op.run w).Attached n := by
  obtain ⟨t, device, dir, fs, flags, args, rfl⟩ := hcovers.eq_mount
  have hsteady : w.Steady .all := h.steady
  rw [Operation.run_eq_after, act, Action.after_only]
  rcases after_mount t device dir fs flags args with heq | ⟨q, driver, hq, hdriver, heq⟩
  · rwa [heq]
  · rw [heq]
    exact World.attached_mountedOn h hdriver (resolveMountPoint_mountable hsteady t dir q hq) _ _ _
      hn

end

/-! ## Moored volumes -/

section

variable {w : World} (h : w.WellFormed) {n m : NodeId} {name : String}

namespace World

/-- A volume is mounted on a directory that names lead to from the root of the volume the directory
is on, and a step up from the root of the mounted volume leads to where that is listed. -/
structure Moored (w : World) (v : VolumeKey) (p : NodeId) : Prop where
  point : w.mountPoint v = some p
  mountRoot : (w.node p).mountRoot = some (w.volume v).root
  listed : ∃ d name, w.parent p = some d ∧ w.Entry d name p
  attached : w.Attached p
  up : ∀ t (flags : LookupMode) d, w.parent p = some d →
    (resolveIn t (w.volume v).root ".." flags w).result =
      .ok (if flags.crossMounts then w.cross d else d)

variable {v : VolumeKey} {p : NodeId}

omit h in
/-- A volume that has a mount point is there. -/
theorem has_of_mountPoint (hpoint : w.mountPoint v = some p) : w.volumes.has v = true := by
  have hknows := (Option.filter_eq_some_iff.1 hpoint).1
  rw [Arena.has_iff]
  cases hget : w.volumes.get? v with
  | some volume => exact ⟨volume, rfl⟩
  | none =>
    rw [World.volume, hget] at hknows
    cases hknows

include h

/-- The link of a mount point and its being attached make for all of it. -/
theorem moored_of_attached (hv : w.volumes.has v = true)
    (hroot : (w.node p).mountRoot = some (w.volume v).root) (hp : w.Attached p) :
    w.Moored v p := by
  have hlive := live_of_mountRoot hroot
  have hpoint : w.mountPoint v = some p := by
    obtain ⟨u, hu, heq, hknows⟩ := h.mounted.covered p _ hroot
    obtain rfl : u = v := by rw [← h.rooted.volume u hu, heq, h.rooted.volume v hv]
    have hhas : w.nodes.has p = true := hlive
    rw [World.mountPoint, hknows, Option.filter_some, hhas, hroot, beq_self_eq_true]
    rfl
  have hlisted : ∃ d name, w.Entry d name p := by
    cases hp with
    | root hu => cases hroot.symm.trans (h.mounted.bare _ hu)
    | entry _ he => exact ⟨_, _, he⟩
  obtain ⟨d, name, he⟩ := hlisted
  have hparent := h.linked.parent d name p he
  refine ⟨hpoint, hroot, ⟨d, name, hparent, he⟩, hp, fun t flags d' hd' => ?_⟩
  obtain rfl : d = d' := Option.some.inj (hparent.symm.trans hd')
  have hne : (w.volume v).root ≠ w.rootNode := by
    intro heq
    obtain rfl : v = w.rootVolume := by
      rw [← h.rooted.volume v hv, heq, h.volume_rootNode]
    rw [World.mountPoint, h.mounted.root] at hpoint
    cases hpoint
  rw [resolveIn_dots_seen h t flags (h.rooted.live v hv), if_neg hne,
    foothold_of_eq_root (h.rooted.volume v hv), hpoint, Option.elim_some,
    if_pos (h.mounted.isDirectory p _ hroot), up_eq_of_hangs (h.hangs_of_entry he)]

end World

end

/-! ## Runs -/

namespace World

theorem serve_operation (op : Operation) (w : World) :
    Serve (· = standard) (· = .ram) w (op.run w) :=
  op.run_eq_after w ▸ .operation op rfl

variable {w w' : World} {v : VolumeKey} {p : NodeId}

theorem Reachable.arises (hw : w.Reachable) : w.Arises (· = standard) (· = .ram) := by
  obtain ⟨limits, hsteps⟩ := hw
  induction hsteps with
  | refl => exact ⟨limits, .refl⟩
  | tail _ hstep ih =>
    obtain ⟨op, rfl⟩ := hstep
    exact ih.stirs ((serve_operation op _).stirs allLawful_ram ih)

theorem Reachable.later (hw : w.Reachable) (op : Operation) : w.Later (op.run w) :=
  ((hw.arises.tended allLawful_ram).stirs allLawful_ram hw.arises
    ((serve_operation op w).stirs allLawful_ram hw.arises)).2

/-- **What one operation keeps**: a volume stays moored where it is unless the operation casts its
mount point off. -/
theorem Moored.after (hw : w.Reachable) (hmoored : w.Moored v p) (op : Operation)
    (hclear : op.run w = w ∨ ¬op.CastsOff w p) : (op.run w).Moored v p := by
  rcases hclear with heq | hclear
  · rwa [heq]
  have hv := has_of_mountPoint hmoored.point
  have hlater := hw.later op
  obtain ⟨hlink, hattached⟩ :=
    op.anchored hw.wellFormed hmoored.mountRoot hmoored.attached hclear
  refine moored_of_attached (hw.steps (.single ⟨op, rfl⟩)).wellFormed (hlater.hasVolume v hv) ?_
    hattached
  rw [hlink, hlater.root v hv]

/-- Every volume but the root volume is moored somewhere. -/
def AllMoored (w : World) : Prop :=
  ∀ id v, (id, v) ∈ w.table → v ≠ w.rootVolume → ∃ p, w.Moored v p

theorem allMoored_fresh (limits : Limits) : (fresh limits).AllMoored := by
  obtain ⟨htended, honly⟩ := tended_fresh limits
  intro id v he hne
  have hv := has_rootOnly.1 (honly v (htended.mounts.entry id v he).1)
  have hroot := has_rootOnly.1 (honly _ htended.mounts.has_rootVolume.1)
  exact absurd (hv.trans hroot.symm) hne

/-- **What one operation does**: with all volumes moored before, all are moored after it, a volume
that it mounts included. -/
theorem AllMoored.after (hw : w.Reachable) (hall : w.AllMoored) (op : Operation)
    (hmoors : op.run w = w ∨ op.Moors w) : (op.run w).AllMoored := by
  rcases hmoors with heq | ⟨hclear, hcovers⟩
  · rwa [heq]
  have hw' : (op.run w).Reachable := hw.steps (.single ⟨op, rfl⟩)
  have hlater := hw.later op
  have hmounts := (hw.arises.tended allLawful_ram).mounts
  have hmounts' := (hw'.arises.tended allLawful_ram).mounts
  intro id v he hne
  obtain ⟨hv, -⟩ := hmounts'.entry id v he
  have hlinked := linked_of_operation allLawful_ram hw.arises rfl op
    (op.run_eq_after w ▸ hv : (op.act.after w).volumes.has v = true)
  rw [← op.run_eq_after] at hlinked
  rcases hlinked with hold | ⟨p, hp, hlink⟩
  · obtain ⟨p, hmoored⟩ := hall _ v (hmounts.listed v hold) (hlater.rootVolume ▸ hne)
    exact ⟨p, hmoored.after hw op (.inr (hclear p _ hmoored.mountRoot))⟩
  · exact ⟨p, moored_of_attached hw'.wellFormed hv hlink
      (hp.attached hw.wellFormed (hcovers p hp))⟩

/-- Operations that cast a node off only where they change nothing. -/
def HoldingSteps (p : NodeId) : World → World → Prop :=
  ReflTransGen fun w w' => ∃ op : Operation, w' = op.run w ∧ (w' = w ∨ ¬op.CastsOff w p)

/-- Operations that keep volumes moored, or change nothing. -/
def MooringSteps : World → World → Prop :=
  ReflTransGen fun w w' => ∃ op : Operation, w' = op.run w ∧ (w' = w ∨ op.Moors w)

theorem HoldingSteps.steps (hsteps : w.HoldingSteps p w') : w.Steps w' :=
  ReflTransGen.mono (fun _ _ ⟨op, hrun, _⟩ => ⟨op, hrun⟩) _ _ hsteps

theorem MooringSteps.steps (hsteps : w.MooringSteps w') : w.Steps w' :=
  ReflTransGen.mono (fun _ _ ⟨op, hrun, _⟩ => ⟨op, hrun⟩) _ _ hsteps

theorem Moored.later (hw : w.Reachable) (hmoored : w.Moored v p) (hsteps : w.HoldingSteps p w') :
    w'.Moored v p := by
  induction hsteps with
  | refl => exact hmoored
  | tail hsteps hstep ih =>
    obtain ⟨op, rfl, hclear⟩ := hstep
    exact ih.after (hw.steps (HoldingSteps.steps hsteps)) op hclear

theorem AllMoored.later (hw : w.Reachable) (hall : w.AllMoored) (hsteps : w.MooringSteps w') :
    w'.AllMoored := by
  induction hsteps with
  | refl => exact hall
  | tail hsteps hstep ih =>
    obtain ⟨op, rfl, hmoors⟩ := hstep
    exact ih.after (hw.steps (MooringSteps.steps hsteps)) op hmoors

end World

/-- **Mounted volumes stay moored.** As long as nothing is mounted on a directory that came loose
and no directory above a mount point is moved into one, every volume of the table but the root
volume is. And from any world there is, a volume that is moored stays so, where it is, whatever is
done short of the latter. -/
theorem mounts_stay_moored :
    (∀ limits w, (World.fresh limits).MooringSteps w →
      ∀ id v, (id, v) ∈ w.table → v ≠ w.rootVolume → ∃ p, w.Moored v p) ∧
    ∀ (w w' : World) v p, w.Reachable → w.Moored v p → w.HoldingSteps p w' → w'.Moored v p :=
  ⟨fun limits _ hsteps => (World.allMoored_fresh limits).later ⟨limits, .refl⟩ hsteps,
    fun _ _ _ _ hw hmoored hsteps => hmoored.later hw hsteps⟩

/-- A volume on a directory in a directory. -/
def mooredBelow : World :=
  Operation.runAll
    [.addTask 0, .makeDirectory 0 none "/a" 0o755, .makeDirectory 0 none "/a/b" 0o755,
      .mount 0 "none" "/a/b" "tmpfs" {} ""]
    (World.fresh {})

theorem reachable_mooredBelow : mooredBelow.Reachable := ⟨_, World.steps_runAll _ _⟩

theorem mooringSteps_mooredBelow : (World.fresh {}).MooringSteps mooredBelow := by
  refine .head ⟨.addTask 0, rfl, .inr ⟨fun _ _ _ => id, nofun⟩⟩ ?_
  refine .head ⟨.makeDirectory 0 none "/a" 0o755, rfl, .inr ⟨fun _ _ _ => id, nofun⟩⟩ ?_
  refine .head ⟨.makeDirectory 0 none "/a/b" 0o755, rfl, .inr ⟨fun _ _ _ => id, nofun⟩⟩ ?_
  refine .single ⟨.mount 0 "none" "/a/b" "tmpfs" {} "", rfl,
    .inr ⟨fun _ _ _ => id, fun p hp => ?_⟩⟩
  let w := Operation.runAll [.addTask 0, .makeDirectory 0 none "/a" 0o755,
    .makeDirectory 0 none "/a/b" 0o755] (World.fresh {})
  have hw : w.WellFormed := World.Reachable.wellFormed ⟨_, World.steps_runAll _ _⟩
  have hb : (resolveMountPoint 0 "/a/b" w).result = .ok 3 := by decide +kernel
  obtain rfl : 3 = p := Except.ok.inj (hb.symm.trans hp)
  have ha : w.Entry 0 "a" 2 := by decide +kernel
  have hbelow : w.Entry 2 "b" 3 := by decide +kernel
  exact ((World.attached_zero hw).entry ha).entry hbelow

/-- The directory above the mount point is moved; the mount point is not removed. -/
theorem mounts_stay_moored_below :
    let w := mooredBelow
    let w' := Operation.runAll [.rename 0 none "/a" none "/c", .removeDirectory 0 none "/c/b"] w
    ((World.fresh {}).MooringSteps w ∧ (16, 1) ∈ w.table ∧ 1 ≠ w.rootVolume ∧ w.Reachable ∧
      w.HoldingSteps 3 w') ∧
      w.Moored 1 3 ∧ w'.Moored 1 3 := by
  intro w w'
  obtain ⟨hmoors, hholds⟩ := mounts_stay_moored
  have hlisted : (16, 1) ∈ w.table := by decide +kernel
  have hother : 1 ≠ w.rootVolume := by decide +kernel
  have hpoint : w.mountPoint 1 = some 3 := by decide +kernel
  obtain ⟨p, hp⟩ := hmoors _ w mooringSteps_mooredBelow 16 1 hlisted hother
  obtain rfl : p = 3 := Option.some.inj (hp.point.symm.trans hpoint)
  have hsteps : w.HoldingSteps 3 w' := by
    refine .head ⟨.rename 0 none "/a" none "/c", rfl, .inr ?_⟩
      (.single ⟨.removeDirectory 0 none "/c/b", rfl, .inr id⟩)
    rintro ⟨-, -, d, name, -, -, hnew, -, -, hloose⟩
    have hroot : (resolveTarget 0 none (stripSlashes "/c").1 w).result = .ok (0, "c") := by
      decide +kernel
    obtain ⟨rfl, -⟩ := Prod.mk.inj (Except.ok.inj (hroot.symm.trans hnew))
    exact hloose (World.attached_zero reachable_mooredBelow.wellFormed)
  exact ⟨⟨mooringSteps_mooredBelow, hlisted, hother, reachable_mooredBelow, hsteps⟩, hp,
    hholds w w' 1 3 reachable_mooredBelow hp hsteps⟩

/-- A volume below a directory that is beside one that came loose and is still held. -/
def mooredBeside : World :=
  Operation.runAll
    [.addTask 0, .makeDirectory 0 none "/a" 0o755, .makeDirectory 0 none "/b" 0o755,
      .makeDirectory 0 none "/b/m" 0o755, .mount 0 "none" "/b/m" "tmpfs" {} "",
      .changeDirectory 0 "/a", .removeDirectory 0 none "/a"]
    (World.fresh {})

/-- **Nothing keeps a volume from being mounted on a removed directory, or moved into one.** It
stays in the table when the directory is let go, and no step leads up from its root then. -/
theorem volumes_cast_off :
    let w := (Operation.mount 0 "none" "." "tmpfs" {} "").run removedUnderfoot
    let moved := (Operation.rename 0 none "/b" none "y").run mooredBeside
    let left := Operation.changeDirectory 0 "/"
    (w.Reachable ∧ (16, 1) ∈ w.table ∧ w.mountPoint 1 = some 2 ∧ ¬w.Attached 2 ∧
      ∀ p, ¬w.Moored 1 p) ∧
      ((16, 1) ∈ (left.run w).table ∧ (left.run w).mountPoint 1 = none ∧
        (resolveIn 0 ((left.run w).volume 1).root ".." .full (left.run w)).result =
          .error .notFound) ∧
      (mooredBeside.Reachable ∧ mooredBeside.mountPoint 1 = some 4 ∧ mooredBeside.Attached 4 ∧
        moved.mountPoint 1 = some 4 ∧ ¬moved.Attached 4 ∧ ∀ p, ¬moved.Moored 1 p) ∧
      ((16, 1) ∈ (left.run moved).table ∧ (left.run moved).mountPoint 1 = none) := by
  intro w moved left
  have hw : w.Reachable := reachable_removedUnderfoot.steps (.single ⟨_, rfl⟩)
  have hbeside : mooredBeside.Reachable := ⟨_, World.steps_runAll _ _⟩
  have hmoved : moved.Reachable := hbeside.steps (.single ⟨_, rfl⟩)
  have hloose : ¬w.Attached 2 :=
    World.not_attached_of_unlisted (d := 0) hw.wellFormed (by decide +kernel) (by decide +kernel)
  have hpoint : w.mountPoint 1 = some 2 := by decide +kernel
  have hb : mooredBeside.Entry 0 "b" 3 := by decide +kernel
  have hm : mooredBeside.Entry 3 "m" 4 := by decide +kernel
  have hloose_removed : ¬moved.Attached 2 :=
    World.not_attached_of_unlisted (d := 0) hmoved.wellFormed (by decide +kernel)
      (by decide +kernel)
  have hpoint_moved : moved.mountPoint 1 = some 4 := by decide +kernel
  -- The mount point hangs in a directory that hangs in the removed one.
  have hloose_moved : ¬moved.Attached 4 := by
    intro hattached
    have hupper : moved.parent 4 = some 3 := by decide +kernel
    have hupmost : moved.parent 3 = some 2 := by decide +kernel
    have habove := (hattached.listed hmoved.wellFormed hupper).1
    exact hloose_removed (habove.listed hmoved.wellFormed hupmost).1
  refine ⟨⟨hw, by decide +kernel, hpoint, hloose, fun p hp => ?_⟩,
    ⟨by decide +kernel, by decide +kernel, by decide +kernel⟩,
    ⟨hbeside, by decide +kernel, ((World.attached_zero hbeside.wellFormed).entry hb).entry hm,
      hpoint_moved, hloose_moved, fun p hp => ?_⟩, ⟨by decide +kernel, by decide +kernel⟩⟩
  · obtain rfl : p = 2 := Option.some.inj (hp.point.symm.trans hpoint)
    exact hloose hp.attached
  · obtain rfl : p = 4 := Option.some.inj (hp.point.symm.trans hpoint_moved)
    exact hloose_moved hp.attached

end VirtualFs
