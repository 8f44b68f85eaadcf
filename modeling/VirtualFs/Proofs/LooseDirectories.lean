/-
Directories that came loose and are still held. Nothing keeps an operation from
putting entries into one, and those are then lost to every path from a root. As
long as that does not happen, a loose directory lists nothing, and whatever an
operation makes or moves ends in a place that the root leads to.
-/
import VirtualFs.Proofs.FailedOperations

namespace VirtualFs

open Relation (ReflTransGen)
open World (Move)
open VirtualFs.Action (leads_query_bind leads_bind leads_pure leads_throw leads_change
  leads_change_bind leads_look_bind leads_ask_bind leads_note_bind leads_orUndo leads_any)

namespace World

variable {w w' : World}

/-- What is listed is read off the nodes. -/
theorem entry_congr (hnodes : w'.nodes = w.nodes) {d c : NodeId} {name : String} :
    w'.Entry d name c ↔ w.Entry d name c := by
  rw [Entry, Entry, World.children, World.children, World.node, World.node, hnodes]

/-- Entries go into attached directories only. -/
def Range.attached : Range := ⟨Attached, fun _ _ => True⟩

variable (h : w.WellFormed)

include h

/-- A new volume is a tree of its own, and a mount changes no entry. -/
theorem trees_mountedOn {name : String} {driver : DriverKind} {p : NodeId}
    (hdriver : w.drivers.get? name = some driver) (hp : w.Mountable p) (device : String)
    (flags : VolumeFlags) (args : String) :
    w.KeepsRoots (w.mountedOn driver device flags args p) ∧
      ∀ d a c, (w.mountedOn driver device flags args p).Entry d a c ↔ w.Entry d a c := by
  rw [h.mountedOn_eq hdriver hp]
  have staken : w.SameTrees { w with nextVolumeId := w.nextVolumeId + 1 } := .of_nodes rfl rfl
  have s := grown_withVolume { w with nextVolumeId := w.nextVolumeId + 1 } w.nextVolumeId device
    flags
  have hroots := keepsRoots_withVolume (w := { w with nextVolumeId := w.nextVolumeId + 1 })
    w.nextVolumeId device flags
  have sattached := sameTrees_attach (w := ({ w with nextVolumeId := w.nextVolumeId + 1 } :
      World).withVolume w.nextVolumeId device flags) ((has_withVolume _).2 (.inl rfl))
    ((s.live p).2 (.inr hp.known.live)) w.nextVolumeId
  refine ⟨(staken.roots.trans hroots).trans sattached.roots, fun d a c => ?_⟩
  exact sattached.entry_iff.trans
    ⟨fun he => staken.entry_iff.1 (s.entry he), fun he => s.entry_of (staken.entry_iff.2 he)⟩

theorem strandsNothing_mountedOn {name : String} {driver : DriverKind} {p : NodeId}
    (hdriver : w.drivers.get? name = some driver) (hp : w.Mountable p) (device : String)
    (flags : VolumeFlags) (args : String) :
    w.StrandsNothing (w.mountedOn driver device flags args p) := by
  obtain ⟨hroots, hentries⟩ := trees_mountedOn h hdriver hp device flags args
  exact strandsNothing_of_entries hroots (fun d a c => (hentries d a c).2)
    fun d a c _ => (hentries d a c).1

theorem strandsNothing_of_move (hmove : Move .attached w w') : w.StrandsNothing w' := by
  cases hmove with
  | asked request hproper htarget => exact (h.served_after hproper).strandsNothing h htarget
  | mounted hdriver hp _ => exact strandsNothing_mountedOn h hdriver hp _ _ _
  | deviceAdded => exact (addDevice_grafts h _ _).grafts.2
  | deviceMoved => exact (moveDevice_grafts h _ _).grafts.2
  | deviceWithdrawn => exact (withdrawDevice_grafts h _).grafts.2
  | swept => exact strandsNothing_sweep h
  | held _ => exact SameTrees.strandsNothing (.of_nodes rfl rfl)

theorem strandsNothing_of_moves (hmoves : ReflTransGen (Move .attached) w w') :
    w.StrandsNothing w' := by
  induction hmoves with
  | refl => exact .refl w
  | tail hmoves hmove ih =>
    have h' := World.Edits.wellFormed (h.edits_of_moves hmoves) h
    exact ih.trans (strandsNothing_of_move h' hmove)

end World

/-! ## Operations -/

section

variable {w : World} (h : w.WellFormed) {d : NodeId} {name : String}

include h

/-- **An operation strands nothing** if the directory it puts an entry into is attached. -/
theorem Operation.strandsNothing (op : Operation)
    (hentered : ∀ d name, op.Enters w d name → w.Attached d) : w.StrandsNothing (op.run w) := by
  have hsame : ∀ (w' : World) d, w'.nodes = w.nodes → w'.volumes = w.volumes → w.Attached d →
      w'.Attached d := by
    intro w' d hnodes hvolumes hd
    have s : w.SameTrees w' := .of_nodes hnodes hvolumes
    exact hd.keep s.roots fun _ _ _ => s.entry_iff.2
  have hmoves : ReflTransGen (Move .attached) w (op.act.after w) :=
    op.moves h.steady hsame hentered fun _ _ => trivial
  rw [op.run_eq_after]
  exact World.strandsNothing_of_moves h hmoves

omit h in
/-- Binding a file to a number touches no node. -/
theorem commitFile_nodes (c : ContextId) (handle : Handle) (file : OpenFile) :
    ((commitFile c handle file).after w).nodes = w.nodes := by
  have hsteps : (commitFile c handle file).LeadsOnly (fun w w' => w'.nodes = w.nodes) w := by
    refine leads_query_bind fun _ _ => ?_
    split
    · exact leads_query_bind fun _ _ => leads_throw
    · refine leads_bind (P := fun _ _ => True) ?_ fun f w' _ _ => ?_
      · exact leads_look_bind (leads_change_bind (.single rfl) (leads_pure trivial))
      · refine leads_bind (P := fun _ _ => True) ?_ fun _ _ _ _ => leads_pure trivial
        refine leads_query_bind fun _ _ => leads_look_bind ?_
        split
        · exact leads_throw
        · exact leads_change (.single rfl) trivial
  have hsame : ∀ w', ReflTransGen (fun w w' : World => w'.nodes = w.nodes) w w' →
      w'.nodes = w.nodes := by
    intro w' hsteps
    induction hsteps with
    | refl => rfl
    | tail _ hstep ih => exact hstep.trans ih
  exact hsame _ hsteps.1

/-- What an open does, it does once a number is reserved. -/
theorem withReserved_leads (c : ContextId) {work : Handle → Act Handle}
    {Q : Handle → World → Prop}
    (hwork : ∀ handle w₁, w₁.WellFormed → w₁.nodes = w.nodes → w₁ = (allocateHandle c).after w →
      (work handle).Leads (fun _ _ => True) w₁ Q) :
    (withReserved c work).Leads (fun _ _ => True) w Q := by
  have hallocate : (allocateHandle c).Leads (Move .all) w fun _ w' =>
      w'.nodes = w.nodes ∧ w'.volumes = w.volumes := (allocateHandle_turns h.steady _).moves
  refine leads_bind (P := fun _ w' => w'.WellFormed ∧ w'.nodes = w.nodes ∧
    w' = (allocateHandle c).after w) ⟨.single trivial, fun handle hok =>
      ⟨World.Edits.wellFormed (h.edits_of_moves hallocate.1) h, (hallocate.2 handle hok).1, rfl⟩⟩ ?_
  rintro handle w₁ - ⟨h₁, hnodes, heq⟩
  exact leads_orUndo (hwork handle w₁ h₁ hnodes heq) fun w' _ => leads_any

/-- An open that is to create a file and succeeds has done so. -/
theorem openPath_inserts {t : TaskId} {base : Option Handle} {path : String} {flags : OpenFlags}
    {mode : UInt32} (hentered : (Operation.openPath t base path flags mode).Enters w d name) :
    (openPath t base path flags mode).Leads (fun _ _ => True) w fun _ w' =>
      (∀ c, ¬w.Entry d name c) ∧ ∃ c, w'.Entry d name c := by
  obtain ⟨hcreates, htarget, hmissing⟩ := hentered
  refine leads_ask_bind (withReserved_leads h _ fun handle w₁ h₁ hnodes heq => ?_)
  rw [← heq] at htarget hmissing
  refine leads_query_bind fun start hstart => leads_query_bind fun found hfound => ?_
  have hfound : (resolveTarget t base path w₁).result = .ok found :=
    Query.result_bind_eq_ok.2 ⟨start, hstart, hfound⟩
  cases hfound.symm.trans htarget
  have hknown := (h₁.sound.resolveTarget_yields t base path _ htarget).1
  refine leads_bind (P := fun _ w' => ∃ n, w₁.Inserted d name n w') ?_ ?_
  · refine leads_query_bind fun r hr => ?_
    rw [Query.result_attempt, ← openLookup, hmissing] at hr
    cases hr
    dsimp only
    rw [if_pos ⟨rfl, hcreates⟩]
    exact ⟨.single trivial, fun file hfile =>
      ⟨_, (createNode_inserts h₁ hknown name flags mode).2 file hfile⟩⟩
  · rintro file w₂ - ⟨n, hinserted⟩
    refine leads_bind (P := fun _ w' => w'.nodes = w₂.nodes)
      ⟨.single trivial, fun _ _ => commitFile_nodes _ handle file⟩ fun _ w' _ hsame =>
        leads_note_bind (leads_pure ⟨fun c => ?_, n, ?_⟩)
    · rw [World.entry_congr hnodes.symm]
      exact hinserted.free c
    · exact (World.entry_congr hsame).2 (hinserted.entry h₁)

omit h in
/-- The place an operation puts an entry into is settled by its paths. -/
theorem Operation.Enters.unique {op : Operation} {d' : NodeId} {name' : String}
    (hentered : op.Enters w d name) (hentered' : op.Enters w d' name') : d = d' ∧ name = name' := by
  have hsame : ∀ {t base path w}, (resolveTarget t base path w).result = .ok (d, name) →
      (resolveTarget t base path w).result = .ok (d', name') → d = d' ∧ name = name' :=
    fun hfound hfound' => Prod.mk.inj (Except.ok.inj (hfound.symm.trans hfound'))
  cases op with
  | openPath => exact hsame hentered.2.1 hentered'.2.1
  | makeDirectory | makeSymlink | rename => exact hsame hentered hentered'
  | _ => exact hentered.elim

omit h in
theorem Operation.Enters.attached {op : Operation} (hentered : op.Enters w d name)
    (hd : w.Attached d) : ∀ d' name', op.Enters w d' name' → w.Attached d' := by
  intro d' name' hentered'
  obtain ⟨rfl, -⟩ := hentered.unique hentered'
  exact hd

/-- **What is made or moved is attached**, if the directory that gets it is. -/
theorem Operation.attached_of_enters (op : Operation) (hentered : op.Enters w d name)
    (hd : w.Attached d) (hok : (op.act w).result = .ok ()) :
    ∃ c, (op.run w).Entry d name c ∧ (op.run w).Attached c := by
  have hstrands := op.strandsNothing h (hentered.attached hd)
  have hnew : (∀ c, ¬w.Entry d name c) → (∃ c, (op.run w).Entry d name c) →
      ∃ c, (op.run w).Entry d name c ∧ (op.run w).Attached c := by
    rintro hfree ⟨c, hc⟩
    exact ⟨c, hc, hstrands.attached_of_new hc (hfree c)⟩
  cases op with
  | openPath t base path flags mode =>
    obtain ⟨handle, hopen, -⟩ := Action.result_bind_eq_ok.1 hok
    obtain ⟨hfree, hlisted⟩ := (openPath_inserts h hentered).2 handle hopen
    exact hnew hfree hlisted
  | makeDirectory t base path mode =>
    obtain ⟨u, hmade, -⟩ := Action.result_bind_eq_ok.1 hok
    obtain ⟨d', name', hfound, ⟨n, hinserted⟩, -⟩ :=
      (makeDirectory_inserts h t base path mode).2 u hmade
    obtain ⟨rfl, rfl⟩ := hentered.unique hfound
    exact hnew hinserted.free ⟨n, hinserted.entry h⟩
  | makeSymlink t base path text =>
    obtain ⟨u, hmade, -⟩ := Action.result_bind_eq_ok.1 hok
    obtain ⟨d', name', hfound, ⟨n, hinserted⟩, -⟩ :=
      (makeSymlink_inserts h t base path text).2 u hmade
    obtain ⟨rfl, rfl⟩ := hentered.unique hfound
    exact hnew hinserted.free ⟨n, hinserted.entry h⟩
  | rename t oldBase oldPath newBase newPath =>
    obtain ⟨u, hmoved, -⟩ := Action.result_bind_eq_ok.1 hok
    obtain ⟨_, _, d', name', -, hfound, hrenamed, -⟩ :=
      (rename_renames h t oldBase oldPath newBase newPath).2 u hmoved
    obtain ⟨rfl, rfl⟩ := hentered.unique hfound
    exact hrenamed.listed h hd
  | _ => exact hentered.elim

/-- Of a rename into an attached directory nothing comes loose but what it replaces. -/
theorem rename_keeps {t : TaskId} {oldBase newBase : Option Handle} {oldPath newPath : String}
    (hentered : (Operation.rename t oldBase oldPath newBase newPath).Enters w d name)
    (hd : w.Attached d) {n : NodeId} (hn : w.Attached n) :
    ((Operation.rename t oldBase oldPath newBase newPath).run w).Attached n ∨ w.Entry d name n :=
  (rename_renames h t oldBase oldPath newBase newPath).after
    (P := fun w' => w'.Attached n ∨ w.Entry d name n) (.inl hn) fun _ _ hleft => by
      obtain ⟨_, _, d', name', -, hfound, hrenamed, -⟩ := hleft
      obtain ⟨rfl, rfl⟩ := hentered.unique hfound
      exact hrenamed.attached h hd hn

end

/-! ## Worlds in which nothing was put into a loose directory -/

/-- An operation that changes nothing, or else puts entries into an attached directory only. -/
def Operation.Careful (w : World) (op : Operation) : Prop :=
  op.run w = w ∨ ∀ d name, op.Enters w d name → w.Attached d

theorem Operation.Enters.careful {w : World} {op : Operation} {d : NodeId} {name : String}
    (hentered : op.Enters w d name) (hd : w.Attached d) : op.Careful w :=
  .inr (hentered.attached hd)

theorem Operation.Careful.strandsNothing {w : World} (h : w.WellFormed) {op : Operation}
    (hcareful : op.Careful w) : w.StrandsNothing (op.run w) := by
  rcases hcareful with heq | hentered
  · rw [heq]
    exact .refl w
  · exact op.strandsNothing h hentered

namespace World

/-- The second world is one the first leads to by careful operations. -/
def CarefulSteps : World → World → Prop :=
  ReflTransGen fun w w' => ∃ op : Operation, w' = op.run w ∧ op.Careful w

variable {w w' : World}

theorem CarefulSteps.steps (hsteps : w.CarefulSteps w') : w.Steps w' :=
  ReflTransGen.mono (fun _ _ ⟨op, hrun, _⟩ => ⟨op, hrun⟩) _ _ hsteps

theorem CarefulSteps.strandsNothing (hw : w.Reachable) (hsteps : w.CarefulSteps w') :
    w.StrandsNothing w' := by
  induction hsteps with
  | refl => exact .refl w
  | tail hsteps hstep ih =>
    obtain ⟨op, rfl, hcareful⟩ := hstep
    exact ih.trans (hcareful.strandsNothing (hw.steps (CarefulSteps.steps hsteps)).wellFormed)

theorem strandsNothing_fresh (limits : Limits) : (rootOnly limits).StrandsNothing (fresh limits) :=
  strandsNothing_of_moves (wellFormed_rootOnly limits)
    (moves_fresh .attached limits (attached_rootNode (wellFormed_rootOnly limits)))

end World

/-- **A loose directory lists nothing** as long as nothing is made in one and nothing moved into
one. And from any world there is, what an operation makes in an attached directory or moves into one
is attached, and nothing it leaves behind is in a directory that comes loose. -/
theorem loose_directories_list_nothing :
    (∀ limits w, (World.fresh limits).CarefulSteps w →
      ∀ d, ¬w.Attached d → ∀ name c, ¬w.Entry d name c) ∧
    ∀ w : World, w.Reachable →
      (∀ op : Operation, op.Careful w → w.StrandsNothing (op.run w) ∧
        ∀ d name c, (op.run w).Entry d name c → ¬w.Entry d name c → (op.run w).Attached c) ∧
      (∀ (op : Operation) d name, op.Enters w d name → w.Attached d →
        (op.act w).result = .ok () → ∃ c, (op.run w).Entry d name c ∧ (op.run w).Attached c) ∧
      ∀ t oldBase oldPath newBase newPath d name,
        (Operation.rename t oldBase oldPath newBase newPath).Enters w d name → w.Attached d →
        ∀ n, w.Attached n →
          ((Operation.rename t oldBase oldPath newBase newPath).run w).Attached n ∨
            w.Entry d name n := by
  refine ⟨fun limits w hsteps d hd name c he => ?_, fun w hw => ⟨fun op hcareful => ?_, ?_, ?_⟩⟩
  · have hstrands := (World.strandsNothing_fresh limits).trans
      (hsteps.strandsNothing ⟨limits, .refl⟩)
    exact World.not_entry_rootOnly (hstrands d name c hd he).2
  · have hstrands := hcareful.strandsNothing hw.wellFormed
    exact ⟨hstrands, fun d name c he hnew => hstrands.attached_of_new he hnew⟩
  · exact fun op d name hentered hd hok => op.attached_of_enters hw.wellFormed hentered hd hok
  · exact fun _ _ _ _ _ _ _ hentered hd _ hn => rename_keeps hw.wellFormed hentered hd hn

/-- A task's directory is removed, and another one is beside it. -/
def removedUnderfoot : World :=
  Operation.runAll
    [.addTask 0, .makeDirectory 0 none "/a" 0o755, .makeDirectory 0 none "/b" 0o755,
      .changeDirectory 0 "/a", .removeDirectory 0 none "/a"]
    (World.fresh {})

theorem reachable_removedUnderfoot : removedUnderfoot.Reachable := ⟨_, World.steps_runAll _ _⟩

/-- The removed directory hung below the root, which does not list it any more. -/
theorem not_attached_removedUnderfoot : ¬removedUnderfoot.Attached 2 :=
  World.not_attached_of_unlisted (d := 0) reachable_removedUnderfoot.wellFormed (by decide +kernel)
    (by decide +kernel)

theorem carefulSteps_removedUnderfoot : (World.fresh {}).CarefulSteps removedUnderfoot := by
  have hmade : ∀ (ops : List Operation) path name,
      (Operation.makeDirectory 0 none path 0o755).Enters (Operation.runAll ops (World.fresh {})) 0
        name → (Operation.makeDirectory 0 none path 0o755).Careful
          (Operation.runAll ops (World.fresh {})) :=
    fun ops _ _ hentered => hentered.careful
      (World.attached_zero (World.Reachable.wellFormed ⟨_, World.steps_runAll ops _⟩))
  refine .head ⟨.addTask 0, rfl, .inr nofun⟩ ?_
  refine .head ⟨.makeDirectory 0 none "/a" 0o755, rfl,
    hmade [.addTask 0] "/a" "a" (by unfold Operation.Enters; decide +kernel)⟩ ?_
  refine .head ⟨.makeDirectory 0 none "/b" 0o755, rfl,
    hmade [.addTask 0, .makeDirectory 0 none "/a" 0o755] "/b" "b"
      (by unfold Operation.Enters; decide +kernel)⟩ ?_
  refine .head ⟨.changeDirectory 0 "/a", rfl, .inr nofun⟩ ?_
  exact .single ⟨.removeDirectory 0 none "/a", rfl, .inr nofun⟩

theorem loose_directories_list_nothing_of_removedUnderfoot :
    let w := removedUnderfoot
    let moved := Operation.rename 0 none "/b" none "/c"
    ((World.fresh {}).CarefulSteps w ∧ w.Live 2 ∧ ¬w.Attached 2 ∧ w.Reachable ∧ moved.Careful w ∧
      moved.Enters w 0 "c" ∧ w.Attached 0 ∧ w.Attached 3 ∧ (moved.act w).result = .ok () ∧
      (moved.run w).Entry 0 "c" 3 ∧ ¬w.Entry 0 "c" 3) ∧
      (∀ name c, ¬w.Entry 2 name c) ∧ w.StrandsNothing (moved.run w) ∧ (moved.run w).Attached 3 ∧
      (∃ c, (moved.run w).Entry 0 "c" c ∧ (moved.run w).Attached c) ∧
      ((moved.run w).Attached 3 ∨ w.Entry 0 "c" 3) := by
  intro w moved
  obtain ⟨hbare, hlater⟩ := loose_directories_list_nothing
  obtain ⟨hcareful, hmade, hkept⟩ := hlater w reachable_removedUnderfoot
  have hzero : w.Attached 0 := World.attached_zero reachable_removedUnderfoot.wellFormed
  have hb : w.Entry 0 "b" 3 := by decide +kernel
  have hentered : moved.Enters w 0 "c" := by unfold Operation.Enters; decide +kernel
  have hok : (moved.act w).result = .ok () := by decide +kernel
  have hc : (moved.run w).Entry 0 "c" 3 := by decide +kernel
  have hfree : ¬w.Entry 0 "c" 3 := by decide +kernel
  obtain ⟨hstrands, hnew⟩ := hcareful moved (hentered.careful hzero)
  exact ⟨⟨carefulSteps_removedUnderfoot, by decide +kernel, not_attached_removedUnderfoot,
      reachable_removedUnderfoot, hentered.careful hzero, hentered, hzero, hzero.entry hb, hok, hc,
      hfree⟩,
    hbare _ w carefulSteps_removedUnderfoot 2 not_attached_removedUnderfoot, hstrands,
    hnew 0 "c" 3 hc hfree, hmade moved 0 "c" hentered hzero hok,
    hkept 0 none "/b" none "/c" 0 "c" hentered hzero 3 (hzero.entry hb)⟩

/-- **Nothing keeps entries out of a removed directory**: one is made in it, another one moved there
from below the root. -/
theorem removed_directory_takes_entries :
    let w := removedUnderfoot
    let made := Operation.makeDirectory 0 none "x" 0o755
    let moved := Operation.rename 0 none "/b" none "y"
    (w.Reachable ∧ w.Live 2 ∧ w.isDirectory 2 = true ∧ ¬w.Attached 2) ∧
      ((made.act w).result = .ok () ∧ (made.run w).Entry 2 "x" 4 ∧
        ¬(made.run w).Attached 2 ∧ ¬(made.run w).Attached 4) ∧
      ((moved.act w).result = .ok () ∧ (moved.run w).Entry 2 "y" 3 ∧ w.Attached 3 ∧
        ¬(moved.run w).Attached 3 ∧ ∀ c, ¬w.Entry 2 "y" c) := by
  intro w made moved
  have hw : w.Reachable := reachable_removedUnderfoot
  have hloose : ¬w.Attached 2 := not_attached_removedUnderfoot
  have hmade : (made.run w).WellFormed := (hw.steps (.single ⟨made, rfl⟩)).wellFormed
  have hmoved : (moved.run w).WellFormed := (hw.steps (.single ⟨moved, rfl⟩)).wellFormed
  have hloose_made : ¬(made.run w).Attached 2 :=
    World.not_attached_of_unlisted (d := 0) hmade (by decide +kernel) (by decide +kernel)
  have hloose_moved : ¬(moved.run w).Attached 2 :=
    World.not_attached_of_unlisted (d := 0) hmoved (by decide +kernel) (by decide +kernel)
  have hx : (made.run w).Entry 2 "x" 4 := by decide +kernel
  have hy : (moved.run w).Entry 2 "y" 3 := by decide +kernel
  have hb : w.Entry 0 "b" 3 := by decide +kernel
  refine ⟨⟨hw, by decide +kernel, by decide +kernel, hloose⟩,
    ⟨by decide +kernel, hx, hloose_made, fun hn => ?_⟩,
    ⟨by decide +kernel, hy, ?_, fun hn => ?_, fun c he => ?_⟩⟩
  · exact hloose_made (hn.listed hmade (hmade.linked.parent _ _ _ hx)).1
  · exact (World.attached_zero hw.wellFormed).entry hb
  · exact hloose_moved (hn.listed hmoved (hmoved.linked.parent _ _ _ hy)).1
  · have hbare : (w.children 2).get? "y" = none := by decide +kernel
    exact nomatch hbare.symm.trans he

end VirtualFs
