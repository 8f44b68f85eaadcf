/-
Every operation is a sequence of moves, which it makes in turns: it lets go of
nothing without sweeping up (`World.Turn`). The proofs follow the operations'
texts; what a turn requires to have been made sure of is what the text checks
before it.
-/
import VirtualFs.Proofs.Moves
import VirtualFs.Proofs.Operations
import VirtualFs.Proofs.References

namespace VirtualFs

open Query (expect look)
open Relation (ReflTransGen)
open World (Move)
open VirtualFs.Action (leads_query_bind leads_demand_bind leads_bind leads_pure leads_throw
  leads_change leads_change_bind leads_look_bind leads_world_bind leads_ask_bind leads_query
  leads_note_bind leads_when leads_attempt leads_orUndo)

variable [Backends] {range : World.Range} {w : World} {n d : NodeId}

/-! ## Whole turns -/

theorem World.moves_settleFor (rounds : Nat) (w : World) :
    ReflTransGen (Move range) w (World.settleFor rounds w) := by
  induction rounds generalizing w with
  | zero => exact .refl
  | succ rounds ih =>
    rw [World.settleFor]
    split
    · exact .refl
    · exact .head .swept (ih w.sweep)

theorem World.moves_settle (w : World) : ReflTransGen (Move range) w w.settle :=
  w.moves_settleFor _

/-- What an operation does in one go, and does not leave half done: after something was let go of,
everything is swept up. -/
inductive World.Turn (range : World.Range) : World → World → Prop where
  /-- A driver is asked to change its filesystem. -/
  | asked {w : World} (request : DriverRequest) :
      request.Proper w → (∀ d, request.target = some d → range.entered w d) →
      Turn range w (request.after w)
  /-- A volume is mounted. -/
  | mounted {w : World} {name driver device flags args p} :
      w.drivers.get? name = some driver → w.Mountable p → range.covered w p →
      Turn range w (w.mountedOn driver device flags args p)
  /-- The device directory changes. -/
  | deviceAdded {w : World} {path ops} : Turn range w ((addDevice path ops).after w)
  | deviceMoved {w : World} {ino path} : Turn range w ((moveDevice ino path).after w)
  | deviceWithdrawn {w : World} {ino} : Turn range w ((withdrawDevice ino).after w)
  /-- What is held from outside changes, and no less is held than before. -/
  | held {w : World} {files contexts tasks pins} :
      ({ w with files, contexts, tasks, pins } : World).Gripped →
      (∀ n, w.Refers n → ({ w with files, contexts, tasks, pins } : World).Refers n) →
      Turn range w { w with files, contexts, tasks, pins }
  /-- Something is let go of. -/
  | dropped {w : World} {files contexts tasks pins} :
      ({ w with files, contexts, tasks, pins } : World).Gripped →
      Turn range w ({ w with files, contexts, tasks, pins } : World).settle

open World (Turn)

theorem World.Turn.moves {w w' : World} (h : Turn range w w') : ReflTransGen (Move range) w w' := by
  cases h with
  | asked request hproper htarget => exact .single (.asked request hproper htarget)
  | mounted hdriver hp hcovers => exact .single (.mounted hdriver hp hcovers)
  | deviceAdded => exact .single .deviceAdded
  | deviceMoved => exact .single .deviceMoved
  | deviceWithdrawn => exact .single .deviceWithdrawn
  | held hgripped _ => exact .single (.held hgripped)
  | dropped hgripped => exact .head (.held hgripped) (World.moves_settle _)

theorem World.moves_of_turns {w w' : World} (hturns : ReflTransGen (Turn range) w w') :
    ReflTransGen (Move range) w w' := by
  induction hturns with
  | refl => exact .refl
  | tail _ hturn ih => exact ih.trans hturn.moves

theorem World.Steady.turned {w w' : World} (h : w.Steady range)
    (hturns : ReflTransGen (Turn range) w w') : w'.Steady range :=
  h.after (moves_of_turns hturns)

/-- What an action does in turns it does in moves. -/
theorem Action.Leads.moves {α : Type} {x : Act α} {Q : α → World → Prop}
    (hx : x.Leads (Turn range) w Q) : x.Leads (Move range) w Q :=
  ⟨World.moves_of_turns hx.1, hx.2⟩

theorem turns_setTable (h : w.Gripped) (c : ContextId) {files : ReservationTable FileId}
    (hfiles : (w.context c).files.Neat w.limits.handles → files.Neat w.limits.handles) :
    ReflTransGen (Turn range) w (w.setContext c fun context => { context with files }) :=
  .single (.held (h.setTable c hfiles) fun _ hn => hn.setContext c fun _ => rfl)

theorem turns_setFile (h : w.Gripped) (f : FileId) {g : OpenFile → OpenFile}
    (hg : ∀ file, (g file).node = file.node) : ReflTransGen (Turn range) w (w.setFile f g) :=
  .single (.held (h.setFile f hg) fun _ hn => hn.setFile f hg)

/-- A close that fails is only logged. -/
theorem closeFile_result (key : Option FileId) (file : OpenFile) :
    (closeFile key file w).result = .ok () := by
  rw [closeFile]
  split
  · rfl
  · rw [Query.look_bind]
    cases (w.node file.node).ops with
    | none => rfl
    | some ops =>
      refine Query.result_bind_eq_ok.2 ⟨(ops.close file key w).result, rfl, ?_⟩
      cases (ops.close file key w).result with
      | ok _ => rfl
      | error _ => rfl

/-- What is one turn is a sequence of turns. -/
theorem turn_turns {α : Type} {x : Act α} (hx : Turn range w (x.after w)) :
    x.LeadsOnly (Turn range) w :=
  ⟨.single hx, fun _ _ => trivial⟩

/-! ## Handle tables -/

section

variable (h : w.Steady range)

include h

theorem allocateHandle_turns (c : ContextId) :
    (allocateHandle c).Leads (Turn range) w fun _ w' =>
      w'.nodes = w.nodes ∧ w'.volumes = w.volumes := by
  refine leads_look_bind ?_
  split
  · exact leads_throw
  · next hreserve =>
    exact leads_change_bind (turns_setTable h.sound.gripped c fun hneat => hneat.reserve hreserve)
      (leads_pure ⟨rfl, rfl⟩)

theorem freeHandle_turns (c : ContextId) (handle : Handle) :
    (freeHandle c handle).LeadsOnly (Turn range) w := by
  refine leads_look_bind ?_
  split
  · exact leads_change_bind (turns_setTable h.sound.gripped c fun hneat => hneat.release _)
      (leads_pure trivial)
  · exact leads_pure trivial

theorem bindHandle_turns (c : ContextId) (handle : Handle) (f : FileId) :
    (bindHandle c handle f).LeadsOnly (Turn range) w := by
  refine leads_query_bind fun _ _ => leads_look_bind ?_
  split
  · exact leads_throw
  · next hfill =>
    exact leads_change (turns_setTable h.sound.gripped c fun hneat => hneat.fill hfill) trivial

theorem installHandle_turns (c : ContextId) (handle : Handle) (f : FileId) :
    (installHandle c handle f).LeadsOnly (Turn range) w := by
  refine leads_query_bind fun _ _ => leads_look_bind ?_
  split
  · exact leads_throw
  · next hreplace =>
    exact leads_change_bind (turns_setTable h.sound.gripped c fun hneat => hneat.replace hreplace)
      (leads_pure trivial)

theorem dropFile_turns (f : FileId) : (dropFile f).LeadsOnly (Turn range) w := by
  refine leads_look_bind ?_
  split
  · exact leads_pure trivial
  · exact leads_look_bind (leads_query_bind fun _ _ => leads_change
      (.single (.dropped (h.sound.gripped.removeFile f))) trivial)

theorem dropDisplaced_turns (displaced : Option FileId) :
    (dropDisplaced displaced).LeadsOnly (Turn range) w := by
  cases displaced with
  | none => exact leads_pure trivial
  | some f => exact dropFile_turns h f

theorem giveBack_turns (c : ContextId) (handle : Handle) :
    (giveBack c handle).LeadsOnly (Turn range) w :=
  leads_bind (freeHandle_turns h c handle)
    fun displaced _ hturns _ => dropDisplaced_turns (h.turned hturns) displaced

/-- The work runs once the number is reserved, which changes no node and no volume. -/
theorem withReserved_turns (c : ContextId) {work : Handle → Act Handle}
    (hwork : ∀ handle w', (allocateHandle c w).result = .ok handle →
      w' = (allocateHandle c).after w → w'.Steady range → w'.nodes = w.nodes →
      w'.volumes = w.volumes → (work handle).LeadsOnly (Turn range) w') :
    (withReserved c work).LeadsOnly (Turn range) w := by
  have hallocate : (allocateHandle c).Leads (Turn range) w fun handle w' =>
      ((allocateHandle c w).result = .ok handle ∧ w' = (allocateHandle c).after w) ∧
        w'.nodes = w.nodes ∧ w'.volumes = w.volumes :=
    ⟨(allocateHandle_turns h c).1, fun handle hok =>
      ⟨⟨hok, rfl⟩, (allocateHandle_turns h c).2 handle hok⟩⟩
  refine leads_bind hallocate ?_
  rintro handle w' hturns ⟨⟨hok, hw'⟩, hnodes, hvolumes⟩
  have h' := h.turned hturns
  exact leads_orUndo (hwork handle w' hok hw' h' hnodes hvolumes) fun w'' hturns' =>
    giveBack_turns (h'.turned hturns') c handle

theorem addFile_turns {file : OpenFile} (hfile : w.Known file.node) :
    (addFile file).LeadsOnly (Turn range) w :=
  leads_look_bind (leads_change_bind (.single (.held (h.sound.gripped.pushFile hfile)
    fun _ hn => hn.pushFile _))
    (leads_pure trivial))

theorem commitFile_turns (c : ContextId) (handle : Handle) {file : OpenFile}
    (hfile : w.Known file.node) : (commitFile c handle file).LeadsOnly (Turn range) w := by
  refine leads_query_bind fun bindable _ => ?_
  split
  · exact leads_query_bind fun _ _ => leads_throw
  · exact leads_bind (addFile_turns h hfile) fun f _ hturns _ =>
      leads_bind (bindHandle_turns (h.turned hturns) c handle f) fun _ _ _ _ => leads_pure trivial

omit h in
theorem dropFiles_turns (files : List FileId) (h : w.Steady range) :
    (dropFiles files).LeadsOnly (Turn range) w := by
  induction files generalizing w with
  | nil => exact leads_pure trivial
  | cons f rest ih =>
    rw [dropFiles]
    split
    · exact ih h
    · exact leads_bind (dropFile_turns h f) fun _ _ hturns _ => ih (h.turned hturns)

theorem setWorkingDirectory_turns (c : ContextId) (hn : w.Known n) :
    (setWorkingDirectory c n).LeadsOnly (Turn range) w :=
  leads_change (.single (.dropped (h.sound.gripped.setCwd c hn))) trivial

theorem emptyTable_turns (c : ContextId) : (emptyTable c).LeadsOnly (Turn range) w := by
  have hturns : ReflTransGen (Turn range) w (w.setContext c fun context =>
      { context with files := (w.context c).files.drain.2 }) :=
    turns_setTable h.sound.gripped c fun hneat => hneat.drain
  exact leads_look_bind (leads_change_bind hturns (dropFiles_turns _ (h.turned hturns)))

theorem retireContext_turns (c : ContextId) : (retireContext c).LeadsOnly (Turn range) w :=
  leads_bind (emptyTable_turns h c) fun _ _ hturns _ =>
    leads_look_bind (setWorkingDirectory_turns (h.turned hturns) c (h.turned hturns).sound.root)

/-! ## Where operations put entries -/

/-- How an open looks for the last name of its path. -/
def openLookup (flags : OpenFlags) : LookupMode :=
  if flags.nofollow then .crossOnly else .full

omit h in
/-- An open that finds a node for its last name finds one that may be asked about. -/
theorem World.Sound.known_opened (hw : w.Sound) (hd : w.Known d) {t : TaskId} {name : String}
    {flags : OpenFlags} (hfound : (resolveIn t d name (openLookup flags) w).result = .ok n) :
    w.Known n := by
  have hcross : (openLookup flags).crossMounts = true := by
    unfold openLookup
    split <;> rfl
  exact hw.closed_known.resolveName (hw.closed_known.followFor t) hd name hcross n hfound

/-- An operation is to put an entry into a directory, under a name: those its path ends in. An open
looks for them once it has reserved a number, and it creates only what it does not find. -/
def Operation.Enters (w : World) (d : NodeId) (name : String) : Operation → Prop
  | .openPath t base path flags _ =>
    let reserved := (allocateHandle (w.contextOf t flags.forKernel)).after w
    flags.creates = true ∧ (resolveTarget t base path reserved).result = .ok (d, name) ∧
      (resolveIn t d name (openLookup flags) reserved).result = .error .notFound
  | .makeDirectory t base path _ =>
    (resolveTarget t base (stripSlashes path).1 w).result = .ok (d, name)
  | .makeSymlink t base path _ => (resolveTarget t base path w).result = .ok (d, name)
  | .rename t _ _ newBase newPath =>
    (resolveTarget t newBase (stripSlashes newPath).1 w).result = .ok (d, name)
  | _ => False

/-! ## Opening -/

theorem openFound_turns (hn : w.Known n) (flags : OpenFlags) :
    (openFound n flags).Leads (Turn range) w fun file w' => w'.Known file.node := by
  rw [openFound]
  split
  · exact leads_pure hn
  refine leads_world_bind (leads_demand_bind fun _ => leads_query_bind fun ops hops =>
    leads_query_bind fun v hv => ?_)
  have hused : w.Used ops v n := by
    rw [World.WellFormed.volumeOf_yields n v hv]
    exact World.Sound.opsOf_used hn ops hops
  dsimp only
  split
  · exact leads_demand_bind fun _ => leads_query fun file hfile =>
      h.sound.listing ops v n _ file hused hfile
  · refine leads_demand_bind fun _ => leads_demand_bind fun hwritable => ?_
    have hproper : DriverRequest.Proper w
        (.openFile ops v n (flags.without OpenFlags.createBit)) := by
      refine ⟨hused, fun hwrites => ?_⟩
      rw [hwrites] at hwritable
      simpa using hwritable
    exact ⟨.single (.asked _ hproper fun _ htarget => by cases htarget), fun file hfile =>
      h.sound.opened ops v n _ file hproper hfile⟩

theorem createNode_turns (hd : w.Known d) {name : String} (hwhole : '/' ∉ name.toList)
    (htarget : range.entered w d) (flags : OpenFlags) (mode : UInt32) :
    (createNode d name flags mode).Leads (Turn range) w fun file w' => w'.Known file.node := by
  refine leads_query_bind fun _ hchecked => leads_query_bind fun v hv => leads_ask_bind ?_
  rw [Query.result_ofResult] at hchecked
  have hproper : DriverRequest.Proper w (.createFile (w.node d).driver v d name flags mode) :=
    ⟨World.Sound.volumeForWriting_asked hd v hv, hchecked, hwhole⟩
  refine ⟨.single (.asked _ hproper fun d' hd' => ?_), fun file hfile =>
    h.sound.created _ v d name flags mode file hproper hfile⟩
  cases hd'
  exact htarget

theorem openName_turns (t : TaskId) (hd : w.Known d) {name : String} (hwhole : '/' ∉ name.toList)
    (flags : OpenFlags) (mode : UInt32)
    (htarget : flags.creates = true → (resolveIn t d name (openLookup flags) w).result =
      .error .notFound → range.entered w d) :
    (openName t d name flags mode).Leads (Turn range) w fun file w' => w'.Known file.node := by
  refine leads_query_bind fun found hfound => ?_
  rw [Query.result_attempt, Except.ok.injEq] at hfound
  split
  · next n =>
    exact leads_demand_bind fun _ => openFound_turns h (h.sound.known_opened hd hfound) flags
  · split
    · next hcreates =>
      obtain ⟨rfl, hcreates⟩ := hcreates
      exact createNode_turns h hd hwhole (htarget hcreates hfound) flags mode
    · exact leads_throw

/-- Opening a path puts an entry into no other directory than the one the path ends in, which is
looked for once a number has been reserved. -/
theorem openPath_turns (t : TaskId) (base : Option Handle) (path : String) (flags : OpenFlags)
    (mode : UInt32)
    (hsame : ∀ w' d, w'.nodes = w.nodes → w'.volumes = w.volumes → range.entered w d →
      range.entered w' d)
    (htarget : ∀ d name, (Operation.openPath t base path flags mode).Enters w d name →
      range.entered w d) :
    (openPath t base path flags mode).LeadsOnly (Turn range) w := by
  refine leads_ask_bind (withReserved_turns h _ fun handle w' _ heq h' hnodes hvolumes => ?_)
  refine leads_query_bind fun start hstart => leads_query_bind fun found hfound => ?_
  have hfound : (resolveTarget t base path w').result = .ok found :=
    Query.result_bind_eq_ok.2 ⟨start, hstart, hfound⟩
  obtain ⟨hknown, hwhole⟩ := h'.sound.resolveTarget_yields t base path found hfound
  have hentered : flags.creates = true →
      (resolveIn t found.1 found.2 (openLookup flags) w').result = .error .notFound →
        range.entered w' found.1 := by
    intro hcreates hmissing
    rw [heq] at hfound hmissing
    exact hsame w' _ hnodes hvolumes (htarget found.1 found.2 ⟨hcreates, hfound, hmissing⟩)
  have hopened := openName_turns h' t hknown hwhole flags mode hentered
  exact leads_bind hopened fun file w'' hturns hfile =>
    leads_bind (commitFile_turns (h'.turned hturns) _ handle hfile) fun _ _ _ _ =>
      leads_note_bind (leads_pure trivial)

theorem openHeld_turns (t : TaskId) (hn : w.Known n) (flags : OpenFlags) :
    (openHeld t n flags).LeadsOnly (Turn range) w :=
  leads_ask_bind (withReserved_turns h _ fun handle _ _ _ h' hnodes hvolumes =>
    leads_bind (openFound_turns h' (hn.congr hnodes hvolumes) flags) fun _ _ hturns hfile =>
      commitFile_turns (h'.turned hturns) _ handle hfile)

theorem openPinned_turns (t : TaskId) (name : String) (flags : OpenFlags) :
    (openPinned t name flags).LeadsOnly (Turn range) w :=
  leads_ask_bind (leads_query_bind fun _ hheld =>
    openHeld_turns h t (h.sound.known_held (Query.result_expect_eq_ok.1 hheld)) flags)

theorem close_turns (t : TaskId) (handle : Handle) : (close t handle).LeadsOnly (Turn range) w :=
  leads_ask_bind (leads_query_bind fun _ _ => giveBack_turns h _ handle)

theorem duplicate_turns (t : TaskId) (handle : Handle) :
    (duplicate t handle).LeadsOnly (Turn range) w :=
  leads_query_bind fun f _ => leads_ask_bind (withReserved_turns h _ fun copy _ _ _ h' _ _ =>
    leads_bind (bindHandle_turns h' _ copy f) fun _ _ _ _ => leads_pure trivial)

theorem duplicateTo_turns (t : TaskId) (handle onto : Handle) :
    (duplicateTo t handle onto).LeadsOnly (Turn range) w := by
  refine leads_query_bind fun f _ => ?_
  split
  · exact leads_pure trivial
  · exact leads_ask_bind (leads_bind (installHandle_turns h _ onto f)
      fun displaced _ hturns _ => leads_bind (dropDisplaced_turns (h.turned hturns) displaced)
        fun _ _ _ _ => leads_pure trivial)

theorem reopen_turns (t : TaskId) (handle : Handle) :
    (reopen t handle).LeadsOnly (Turn range) w := by
  refine leads_query_bind fun file hfile =>
    leads_ask_bind (withReserved_turns h _ fun copy _ _ _ h' hnodes hvolumes => ?_)
  have hn := (h.sound.openFileOf_yields t handle file hfile).congr hnodes hvolumes
  refine leads_bind (openFound_turns h' hn _) fun fresh _ hturns hfresh =>
    commitFile_turns (h'.turned hturns) _ copy ?_
  rwa [OpenFile.setPosition_node]

theorem setFlags_turns (t : TaskId) (handle : Handle) (flags : OpenFlags) :
    (setFlags t handle flags).LeadsOnly (Turn range) w :=
  leads_query_bind fun f _ =>
    leads_change (turns_setFile h.sound.gripped f fun _ => rfl) trivial

/-! ## Moving bytes -/

theorem moveBy_turns (f : FileId) (position count : Nat) :
    (moveBy f position count).LeadsOnly (Turn range) w :=
  leads_query_bind fun _ _ =>
    leads_change (turns_setFile h.sound.gripped f fun file => file.setPosition_node _) trivial

omit [Backends] h in
/-- A delivery changes nothing, so only what follows it takes steps. -/
theorem receive_leads {S : World → World → Prop} {α : Type} {buffers : List ByteArray}
    {deliver : Act ByteArray} {finish : ByteArray → Act α}
    (hdeliver : deliver.LeadsOnly (fun _ _ => False) w)
    (hfinish : ∀ data, (finish data).LeadsOnly S w) :
    (receive buffers deliver finish).LeadsOnly S w := by
  have hsame := hdeliver.world_eq
  have hdelivered : (Action.attempt deliver : Act _).Leads S w fun _ w' => w' = w := by
    refine ⟨?_, fun _ _ => hsame⟩
    show ReflTransGen S w (deliver w).world
    rw [hsame]
  refine leads_bind hdelivered ?_
  rintro delivered _ - rfl
  cases delivered with
  | error e => exact leads_pure trivial
  | ok data =>
    exact leads_bind (leads_attempt (hfinish data)) fun _ _ _ _ => leads_pure trivial

theorem readv_turns (t : TaskId) (handle : Handle) (buffers : List ByteArray) :
    (readv t handle buffers).LeadsOnly (Turn range) w := by
  refine leads_query_bind fun _ _ => ?_
  split
  · exact leads_pure trivial
  · exact receive_leads (leads_query fun _ _ => trivial) fun data =>
      leads_bind (moveBy_turns h _ _ _) fun _ _ _ _ => leads_pure trivial

omit h in
theorem preadv_turns (t : TaskId) (handle : Handle) (position : Nat) (buffers : List ByteArray) :
    (preadv t handle position buffers).LeadsOnly (Turn range) w :=
  receive_leads (leads_query_bind fun _ _ => leads_query fun _ _ => trivial) fun _ =>
    leads_pure trivial

/-- A stream that may be written is a node with its own operations. -/
theorem writableOf_used (t : TaskId) (handle : Handle) :
    (writableOf t handle).Yields w fun found =>
      w.Used found.2.2 (w.node found.2.1.node).volume found.2.1.node := by
  refine .bind (P := fun found => w.Used found.2.2 (w.node found.2.1.node).volume found.2.1.node) ?_
    fun found hfound => .skip fun _ => .pure hfound
  refine .skip fun f => Query.Yields.look_bind (.skip fun _ => ?_)
  exact (World.Sound.opsOf_used (h.sound.known_file f)).bind fun _ hops => .pure hops

omit h in
theorem write_turns {ops : OpsKind} {file : OpenFile}
    (hused : w.Used ops (w.node file.node).volume file.node) (position : Nat) (data : ByteArray) :
    (ops.write file position data).LeadsOnly (Turn range) w :=
  ⟨.single (.asked (.write ops file position data) hused nofun), fun _ _ => trivial⟩

theorem writev_turns (t : TaskId) (handle : Handle) (segments : List ByteArray) :
    (writev t handle segments).LeadsOnly (Turn range) w :=
  leads_query_bind fun found hfound => leads_query_bind fun _ _ =>
    leads_bind (write_turns (writableOf_used h t handle found hfound) _ _) fun _ _ hturns _ =>
      leads_bind (moveBy_turns (h.turned hturns) _ _ _) fun _ _ _ _ => leads_pure trivial

theorem pwritev_turns (t : TaskId) (handle : Handle) (position : Nat) (segments : List ByteArray) :
    (pwritev t handle position segments).LeadsOnly (Turn range) w :=
  leads_query_bind fun found hfound => write_turns (writableOf_used h t handle found hfound) _ _

theorem seek_turns (t : TaskId) (handle : Handle) (offset : Int) (origin : SeekOrigin) :
    (seek t handle offset origin).LeadsOnly (Turn range) w :=
  leads_query_bind fun _ _ => leads_query_bind fun _ _ => leads_query_bind fun _ _ =>
    leads_change_bind (turns_setFile h.sound.gripped _ fun file => file.setPosition_node _)
      (leads_pure trivial)

omit h in
theorem control_turns (t : TaskId) (handle : Handle) (request : UInt32) (input buffer : ByteArray) :
    (control t handle request input buffer).LeadsOnly (Turn range) w :=
  receive_leads (leads_query_bind fun _ _ => leads_query fun _ _ => trivial) fun _ =>
    leads_pure trivial

theorem nextEntry_turns (t : TaskId) (handle : Handle) :
    (nextEntry t handle).LeadsOnly (Turn range) w := by
  refine leads_query_bind fun _ _ => leads_query_bind fun _ _ => leads_query_bind fun entry _ => ?_
  refine leads_bind (P := fun _ _ => True) (leads_when (fun _ => ?_) fun _ => trivial)
    fun _ _ _ _ => leads_pure trivial
  exact leads_change (turns_setFile h.sound.gripped _ fun file => file.setCursor_node _) trivial

theorem rewind_turns (t : TaskId) (handle : Handle) :
    (rewind t handle).LeadsOnly (Turn range) w :=
  leads_query_bind fun _ _ => leads_query_bind fun _ _ =>
    leads_change (turns_setFile h.sound.gripped _ fun file => file.setCursor_node _) trivial

/-! ## Names -/

omit h in
/-- A request that nothing comes back from is one move. -/
theorem request_turns {α : Type} {x : Act α} (request : DriverRequest)
    (hx : request.after w = (x w).world) (hproper : request.Proper w)
    (htarget : ∀ d, request.target = some d → range.entered w d) : x.LeadsOnly (Turn range) w := by
  refine ⟨?_, fun _ _ => trivial⟩
  rw [← hx]
  exact .single (.asked request hproper htarget)

theorem makeDirectory_turns (t : TaskId) (base : Option Handle) (path : String) (mode : UInt32)
    (htarget : ∀ found, (resolveTarget t base (stripSlashes path).1 w).result = .ok found →
      range.entered w found.1) :
    (makeDirectory t base path mode).LeadsOnly (Turn range) w := by
  refine leads_query_bind fun place hplace => ?_
  obtain ⟨hasked, hname, hfound⟩ := h.sound.placeOf_yields t base _ place hplace
  refine request_turns (.createDirectory _ _ _ _ _) rfl ⟨hasked, hname⟩ fun d hd => ?_
  cases hd
  exact htarget _ hfound

theorem removeDirectory_turns (t : TaskId) (base : Option Handle) (path : String) :
    (removeDirectory t base path).LeadsOnly (Turn range) w := by
  refine leads_query_bind fun place hplace => ?_
  obtain ⟨hasked, hname, -⟩ := h.sound.placeOf_yields t base _ place hplace
  exact request_turns (.removeDirectory _ _ _ _) rfl ⟨hasked, hname⟩ nofun

theorem unlink_turns (t : TaskId) (base : Option Handle) (path : String) :
    (unlink t base path).LeadsOnly (Turn range) w := by
  refine leads_query_bind fun place hplace => ?_
  obtain ⟨hasked, hname, -⟩ := h.sound.placeOf_yields t base _ place hplace
  exact request_turns (.unlink _ _ _ _) rfl ⟨hasked, hname⟩ nofun

theorem makeSymlink_turns (t : TaskId) (base : Option Handle) (path text : String)
    (htarget : ∀ found, (resolveTarget t base path w).result = .ok found →
      range.entered w found.1) :
    (makeSymlink t base path text).LeadsOnly (Turn range) w := by
  refine leads_demand_bind fun _ => leads_query_bind fun _ _ => leads_demand_bind fun _ =>
    leads_query_bind fun place hplace => ?_
  obtain ⟨hasked, hname, hfound⟩ := h.sound.placeOf_yields t base _ place hplace
  refine request_turns (.createSymlink _ _ _ _ _) rfl ⟨hasked, hname⟩ fun d hd => ?_
  cases hd
  exact htarget _ hfound

theorem rename_turns (t : TaskId) (oldBase : Option Handle) (oldPath : String)
    (newBase : Option Handle) (newPath : String)
    (htarget : ∀ found, (resolveTarget t newBase (stripSlashes newPath).1 w).result = .ok found →
      range.entered w found.1) :
    (rename t oldBase oldPath newBase newPath).LeadsOnly (Turn range) w := by
  refine leads_query_bind fun old hold => leads_query_bind fun new hnew =>
    leads_query_bind fun _ holdName => leads_query_bind fun _ hnewName => leads_world_bind <|
    leads_demand_bind fun hid => leads_query_bind fun v hv => ?_
  obtain ⟨holdKnown, holdWhole⟩ := h.sound.resolveTarget_yields t oldBase _ old hold
  obtain ⟨hnewKnown, hnewWhole⟩ := h.sound.resolveTarget_yields t newBase _ new hnew
  rw [Query.result_ofResult] at holdName hnewName
  have hasked := World.Sound.volumeForWriting_asked holdKnown v hv
  refine request_turns (.rename _ _ _ _ _ _ _) rfl
    ⟨hasked, hnewKnown, hid, ⟨holdName, holdWhole⟩, hnewName, hnewWhole⟩ fun d hd => ?_
  cases hd
  exact htarget _ hnew

theorem writeStatus_turns (t : TaskId) (handle : Handle) (status : Status) (mask : StatusMask) :
    (writeStatus t handle status mask).LeadsOnly (Turn range) w := by
  have hoperable : (operableOf t handle).Yields w fun found =>
      w.Used found.2 (w.node found.1.node).volume found.1.node :=
    (h.sound.openFileOf_yields t handle).bind fun _ hfile => .skip fun _ =>
      (World.Sound.opsOf_used hfile).bind fun _ hops => .pure hops
  refine leads_query_bind fun found hfound => leads_query_bind fun v hv => ?_
  have hused := hoperable found hfound
  have hasked := World.Sound.volumeForWriting_asked hused.known v hv
  refine request_turns (.writeStatus _ _ _ _ _) rfl ⟨?_, hasked.writable⟩ nofun
  rw [hasked.volume_eq]
  exact hused

/-! ## Directories, mounts and devices -/

theorem enterDirectory_turns (t : TaskId) (hn : w.Known n) :
    (enterDirectory t n).LeadsOnly (Turn range) w :=
  leads_ask_bind (leads_demand_bind fun _ => leads_ask_bind (setWorkingDirectory_turns h _ hn))

theorem changeDirectory_turns (t : TaskId) (path : String) :
    (changeDirectory t path).LeadsOnly (Turn range) w := by
  have hnone : ∀ n, (none : Option NodeId) = some n → w.Known n := nofun
  exact leads_query_bind fun n hn =>
    enterDirectory_turns h t (h.sound.resolve_yields t hnone path .full n hn)

theorem changeDirectoryTo_turns (t : TaskId) (handle : Handle) :
    (changeDirectoryTo t handle).LeadsOnly (Turn range) w :=
  leads_query_bind fun file hfile =>
    enterDirectory_turns h t (h.sound.openFileOf_yields t handle file hfile)

theorem resolveMountPoint_mountable (t : TaskId) (path : String) :
    (resolveMountPoint t path).Yields w w.Mountable := by
  have hnone : ∀ n, (none : Option NodeId) = some n → w.Known n := nofun
  refine (h.sound.resolve_yields t hnone path .full).bind fun p hp =>
    Query.Yields.look_bind fun found hfound => ?_
  obtain ⟨_, hdir, hfound⟩ := Query.result_bind_eq_ok.1 hfound
  rw [Query.look_bind] at hfound
  obtain ⟨_, hbare, hfound⟩ := Query.result_bind_eq_ok.1 hfound
  obtain ⟨v, hv, hfound⟩ := Query.result_bind_eq_ok.1 hfound
  rw [Query.look_bind] at hfound
  obtain ⟨_, hroot, hfound⟩ := Query.result_bind_eq_ok.1 hfound
  cases hfound
  rw [Query.result_demand_eq_ok] at hdir hbare hroot
  rw [World.WellFormed.volumeOf_yields p v hv] at hroot
  exact ⟨hp, hdir, Option.isNone_iff_eq_none.1 hbare, by simpa using hroot⟩

omit h in
/-- A mount that is not refused before a driver is asked ends as soon as the volume is tied to its
directory, or cannot be; only the log comes after that. -/
theorem after_mount (t : TaskId) (device dir fs : String) (flags : VolumeFlags) (args : String) :
    (mount t device dir fs flags args).after w = w ∨
      ∃ p driver, (resolveMountPoint t dir w).result = .ok p ∧ w.drivers.get? fs = some driver ∧
        (mount t device dir fs flags args).after w = w.mountedOn driver device flags args p := by
  rw [mount, Action.after]
  cases hp : (resolveMountPoint t dir w).result with
  | error e =>
    rw [Action.liftM_bind_error hp]
    exact .inl rfl
  | ok p =>
    have hlook : (look (·.drivers.get? fs) w).result = .ok (w.drivers.get? fs) := rfl
    rw [Action.liftM_bind_ok hp, Action.liftM_bind_ok hlook]
    cases hdriver : w.drivers.get? fs with
    | none => exact .inl rfl
    | some driver =>
      refine .inr ⟨p, driver, rfl, rfl, ?_⟩
      have hexpect : (expect (some driver) .noDevice w).result = .ok driver := rfl
      have htaken : takeVolumeId w =
          { result := .ok w.nextVolumeId
            world := { w with nextVolumeId := w.nextVolumeId + 1 } } :=
        rfl
      rw [Action.liftM_bind_ok hexpect, Action.bind_ok htaken, World.mountedOn]
      rcases hrun : driver.mount w.nextVolumeId device flags args
        { w with nextVolumeId := w.nextVolumeId + 1 } with ⟨_ | v, w', trace⟩
      · rw [Action.bind_error hrun]
      · have hroot : (look (fun w => (w.node p).mountRoot) w').result =
            .ok (w'.node p).mountRoot := rfl
        rw [Action.bind_ok hrun, Action.liftM_bind_ok hroot]
        cases (w'.node p).mountRoot with
        | none => rfl
        | some r => rfl

theorem mount_turns (t : TaskId) (device dir fs : String) (flags : VolumeFlags) (args : String)
    (hcovers : ∀ p, (resolveMountPoint t dir w).result = .ok p → range.covered w p) :
    (mount t device dir fs flags args).LeadsOnly (Turn range) w := by
  refine ⟨?_, fun _ _ => trivial⟩
  change ReflTransGen (Turn range) w ((mount t device dir fs flags args).after w)
  rcases after_mount t device dir fs flags args with heq | ⟨p, driver, hp, hdriver, heq⟩
  · rw [heq]
  · rw [heq]
    exact .single (.mounted hdriver (resolveMountPoint_mountable h t dir p hp) (hcovers p hp))

theorem holdPath_turns (t : TaskId) (start : Option String) (path : String) (flags : LookupMode)
    (name : String) : (holdPath t start path flags name).LeadsOnly (Turn range) w := by
  refine leads_ask_bind (leads_query_bind fun n hn => ?_)
  have hstart : ∀ n, start.bind w.held? = some n → w.Known n := fun n hheld => by
    obtain ⟨name, -, hheld⟩ := Option.bind_eq_some_iff.1 hheld
    exact h.sound.known_held hheld
  have hknown := h.sound.resolve_yields t hstart path flags n hn
  exact leads_change (.single (.dropped (h.sound.gripped.insertPin name hknown))) trivial

theorem releaseNode_turns (name : String) : (releaseNode name).LeadsOnly (Turn range) w :=
  leads_look_bind (leads_change_bind (.single (.dropped (h.sound.gripped.erasePin name)))
    (leads_pure trivial))

theorem addContext_turns (kernel : Bool) : (addContext kernel).LeadsOnly (Turn range) w :=
  leads_world_bind (leads_change_bind
    (.single (.held (h.sound.gripped.pushContext h.sound.root (.empty _))
      fun _ hn => hn.pushContext _)) (leads_pure trivial))

theorem addTask_turns (context : ContextId) : (addTask context).LeadsOnly (Turn range) w :=
  leads_ask_bind (leads_change_bind (.single (.held (h.sound.gripped.setTasks _)
    fun _ hn => hn.setTasks _))
    (leads_pure trivial))

end

/-! ## Every operation -/

omit [Backends] in
theorem Action.LeadsOnly.only {S : World → World → Prop} {α : Type} {x : Act α}
    (h : x.LeadsOnly S w) : x.only.LeadsOnly S w :=
  leads_bind h fun _ _ _ _ => leads_pure trivial

omit [Backends] in
theorem Action.LeadsOnly.filling {S : World → World → Prop} {α : Type} {x : Act (Received α)}
    (h : x.LeadsOnly S w) : (Action.filling x).LeadsOnly S w :=
  leads_bind h fun _ _ _ _ => leads_query_bind fun _ _ => leads_pure trivial

/-- An operation mounts a volume on a directory: the one its path leads to. -/
def Operation.Covers (w : World) (p : NodeId) : Operation → Prop
  | .mount t _ dir _ _ _ => (resolveMountPoint t dir w).result = .ok p
  | _ => False

theorem Operation.Covers.eq_mount {op : Operation} {p : NodeId} (h : op.Covers w p) :
    ∃ t device dir fs flags args, op = .mount t device dir fs flags args := by
  cases op with
  | mount t device dir fs flags args => exact ⟨t, device, dir, fs, flags, args, rfl⟩
  | _ => exact h.elim

/-- **Every operation is a sequence of turns**, which put entries and mount volumes only where the
operation does. -/
theorem Operation.turns (h : w.Steady range) (op : Operation)
    (hsame : ∀ w' d, w'.nodes = w.nodes → w'.volumes = w.volumes → range.entered w d →
      range.entered w' d)
    (htarget : ∀ d name, op.Enters w d name → range.entered w d)
    (hcovers : ∀ p, op.Covers w p → range.covered w p) :
    ReflTransGen (Turn range) w (op.act.after w) := by
  cases op with
  | openPath t base path flags mode =>
    exact (openPath_turns h t base path flags mode hsame htarget).only.1
  | openPinned t name flags => exact (openPinned_turns h t name flags).only.1
  | close t handle => exact (close_turns h t handle).only.1
  | duplicate t handle => exact (duplicate_turns h t handle).only.1
  | duplicateTo t handle target => exact (duplicateTo_turns h t handle target).only.1
  | reopen t handle => exact (reopen_turns h t handle).only.1
  | setFlags t handle flags => exact (setFlags_turns h t handle flags).only.1
  | readv t handle buffers => exact (readv_turns h t handle buffers).filling.1
  | preadv t handle position buffers => exact (preadv_turns t handle position buffers).filling.1
  | writev t handle segments => exact (writev_turns h t handle segments).only.1
  | pwritev t handle position segments => exact (pwritev_turns h t handle position segments).only.1
  | seek t handle offset origin => exact (seek_turns h t handle offset origin).only.1
  | control t handle request input buffer =>
    exact (control_turns t handle request input buffer).filling.1
  | nextEntry t handle => exact (nextEntry_turns h t handle).only.1
  | rewind t handle => exact (rewind_turns h t handle).only.1
  | makeDirectory t base path mode =>
    exact (makeDirectory_turns h t base path mode fun found => htarget found.1 found.2).only.1
  | removeDirectory t base path => exact (removeDirectory_turns h t base path).only.1
  | unlink t base path => exact (unlink_turns h t base path).only.1
  | makeSymlink t base path text =>
    exact (makeSymlink_turns h t base path text fun found => htarget found.1 found.2).only.1
  | rename t oldBase oldPath newBase newPath =>
    exact (rename_turns h t oldBase oldPath newBase newPath fun found =>
      htarget found.1 found.2).only.1
  | writeStatus t handle status mask => exact (writeStatus_turns h t handle status mask).only.1
  | changeDirectory t path => exact (changeDirectory_turns h t path).only.1
  | changeDirectoryTo t handle => exact (changeDirectoryTo_turns h t handle).only.1
  | mount t device dir fs flags args =>
    exact (mount_turns h t device dir fs flags args hcovers).only.1
  | addDevice path ops => exact (turn_turns .deviceAdded).only.1
  | moveDevice ino path => exact (turn_turns .deviceMoved).only.1
  | withdrawDevice ino => exact (turn_turns .deviceWithdrawn).only.1
  | hold t start path flags name => exact (holdPath_turns h t start path flags name).only.1
  | release name => exact (releaseNode_turns h name).only.1
  | addContext kernel => exact (addContext_turns h kernel).only.1
  | addTask context => exact (addTask_turns h context).only.1
  | closeAll c => exact (emptyTable_turns h c).only.1
  | retireContext c => exact (retireContext_turns h c).only.1
  | setDepth t depth => exact .single (.held (h.sound.gripped.setTasks _) fun _ hn => hn.setTasks _)

/-- **Every operation is a sequence of moves.** -/
theorem Operation.moves (h : w.Steady range) (op : Operation)
    (hsame : ∀ w' d, w'.nodes = w.nodes → w'.volumes = w.volumes → range.entered w d →
      range.entered w' d)
    (htarget : ∀ d name, op.Enters w d name → range.entered w d)
    (hcovers : ∀ p, op.Covers w p → range.covered w p) :
    ReflTransGen (Move range) w (op.act.after w) :=
  World.moves_of_turns (op.turns h hsame htarget hcovers)

end VirtualFs
