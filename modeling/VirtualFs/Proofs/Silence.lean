/-
What asks no driver. A computation is silent if no call to a driver stands on
its trace, in whatever world it runs. Handles, open files, bytes and attributes
are dealt with silently, and so is all that comes after a driver has answered;
a driver itself calls no other (`Backends.Silent`).
-/
import VirtualFs.Proofs.Operations
import VirtualFs.Proofs.Trace

namespace VirtualFs

/-- A driver was called. -/
def Event.isAsked : Event → Bool
  | .asked .. => true
  | _ => false

/-! ## Queries -/

/-- Calls no driver. -/
abbrev Query.Silent {α : Type} (x : Query α) : Prop := x.Emits fun event => event.isAsked = false

namespace Query.Emits

variable {α β : Type} {P : Event → Prop}

theorem ite {p : Prop} [Decidable p] {x y : Query α} (hx : x.Emits P) (hy : y.Emits P) :
    (if p then x else y).Emits P := by
  split
  · exact hx
  · exact hy

theorem map {f : α → β} {x : Query α} (hx : x.Emits P) : (f <$> x).Emits P := by
  rw [← bind_pure_comp]
  exact hx.bind fun a => pure (f a)

theorem attempt {x : Query α} (hx : x.Emits P) : (attempt x).Emits P := hx

theorem andFinally {x : Query α} {last : Query Unit} (hx : x.Emits P) (hlast : last.Emits P) :
    (x.andFinally last).Emits P :=
  hx.attempt.bind fun _ => hlast.bind fun _ => ofResult _

end Query.Emits

/-! ## Actions -/

namespace Action

variable {ε ε' α β : Type} {P : Event → Prop}

/-- Every event the action leaves satisfies `P`, in any world. -/
def Emits (P : Event → Prop) (x : Action ε α) : Prop := ∀ w, ∀ event ∈ (x w).trace, P event

/-- Calls no driver. -/
abbrev Silent (x : Action ε α) : Prop := x.Emits fun event => event.isAsked = false

namespace Emits

theorem of_trace_nil {x : Action ε α} (h : ∀ w, (x w).trace = []) : x.Emits P := by
  intro w event hevent
  simp [h w] at hevent

theorem pure (a : α) : (pure a : Action ε α).Emits P := of_trace_nil fun _ => rfl

theorem throw (e : ε) : (throw e : Action ε α).Emits P := of_trace_nil fun _ => rfl

theorem look (f : World → α) : (look f : Action ε α).Emits P := of_trace_nil fun _ => rfl

theorem world : (world : Action ε World).Emits P := of_trace_nil fun _ => rfl

theorem change (f : World → World) : (change f : Action ε Unit).Emits P :=
  of_trace_nil fun _ => rfl

theorem note {event : Event} (h : P event) : (note event : Action ε Unit).Emits P := by
  intro w other hother
  obtain rfl : other = event := by simpa using hother
  exact h

theorem query {q : Query α} (h : q.Emits P) : (liftM q : Act α).Emits P := h

theorem bind {x : Action ε α} {f : α → Action ε β} (hx : x.Emits P)
    (hf : ∀ a, (f a).Emits P) : (x >>= f).Emits P := by
  intro w event hevent
  have hfirst := hx w
  rcases hrun : x w with ⟨e | a, w', t⟩ <;> rw [hrun] at hfirst
  · rw [bind_error hrun] at hevent
    exact hfirst event hevent
  · rw [bind_ok hrun] at hevent
    rcases List.mem_append.1 hevent with hevent | hevent
    · exact hfirst event hevent
    · exact hf a w' event hevent

theorem when {c : Prop} [Decidable c] {x : Action ε Unit} (hx : x.Emits P) :
    (when c x).Emits P := by
  rw [Action.when]
  split
  · exact hx
  · exact pure ()

theorem attempt {x : Action ε α} (hx : x.Emits P) :
    (attempt x : Action ε' (Except ε α)).Emits P := hx

theorem only {x : Act α} (hx : x.Emits P) : x.only.Emits P := hx.bind fun _ => pure _

theorem andFinally {x : Action ε α} {last : Action ε Unit} (hx : x.Emits P)
    (hlast : last.Emits P) : (x.andFinally last).Emits P := by
  intro w event hevent
  rcases List.mem_append.1 hevent with hevent | hevent
  · exact hx w event hevent
  · exact hlast _ event hevent

theorem orUndo {x : Action ε α} {undo : Action ε Unit} (hx : x.Emits P) (hundo : undo.Emits P) :
    (x.orUndo undo).Emits P := by
  intro w event hevent
  have hfirst := hx w
  rw [Action.orUndo] at hevent
  rcases hrun : x w with ⟨e | a, w', t⟩ <;> rw [hrun] at hevent hfirst
  · rcases List.mem_append.1 hevent with hevent | hevent
    · exact hfirst event hevent
    · exact hundo w' event hevent
  · exact hfirst event hevent

end Emits

end Action

/-! ## Drivers and operations -/

/-- A driver that calls no other. -/
structure Driver.Silent (d : Driver) : Prop where
  mount : ∀ id device flags args, (d.mount id device flags args).Silent
  locate : ∀ volume parent name, (d.locate volume parent name).Silent
  createFile : ∀ volume parent name flags mode, (d.createFile volume parent name flags mode).Silent
  createDirectory : ∀ volume parent name mode, (d.createDirectory volume parent name mode).Silent
  createSymlink : ∀ volume parent name target, (d.createSymlink volume parent name target).Silent
  rename : ∀ volume oldParent oldName newParent newName mustBeDirectory,
    (d.rename volume oldParent oldName newParent newName mustBeDirectory).Silent
  unlink : ∀ volume parent name, (d.unlink volume parent name).Silent
  removeDirectory : ∀ volume parent name, (d.removeDirectory volume parent name).Silent
  sync : ∀ volume, (d.sync volume).Silent

/-- Operations that call no driver. -/
structure NodeOps.Silent (o : NodeOps) : Prop where
  openFile : ∀ volume n flags, (o.openFile volume n flags).Silent
  openDirectory : ∀ volume n flags, (o.openDirectory volume n flags).Silent
  close : ∀ file, (o.close file).Silent
  read : ∀ file position room, (o.read file position room).Silent
  write : ∀ file position data, (o.write file position data).Silent
  readLink : ∀ volume n, (o.readLink volume n).Silent
  entry : ∀ volume dir index, (o.entry volume dir index).Silent
  status : ∀ volume n, (o.status volume n).Silent
  writeStatus : ∀ volume n status mask, (o.writeStatus volume n status mask).Silent
  checkAccess : ∀ volume n mode, (o.checkAccess volume n mode).Silent
  control : ∀ file request input room, (o.control file request input room).Silent
  sync : ∀ file, (o.sync file).Silent

/-- Drivers and operations that call no driver: what is on the trace of the library's calls is the
library's. -/
structure Backends.Silent (b : Backends) : Prop where
  driver : ∀ kind, (b.driver kind).Silent
  ops : ∀ kind, (b.ops kind).Silent

/-! ## Handles -/

theorem volumeOf_silent (n : NodeId) : (volumeOf n).Silent :=
  .bind (.look _) fun _ => .expect _ _

theorem opsOf_silent (n : NodeId) : (opsOf n).Silent :=
  .bind (.look _) fun _ => .expect _ _

theorem belongs_silent (c : ContextId) (h : Handle) : (belongs c h).Silent :=
  .bind (.look _) fun _ => .demand _ _

theorem lookupHandle_silent (c : ContextId) (h : Handle) : (lookupHandle c h).Silent :=
  .bind (belongs_silent c h) fun _ => .bind (.look _) fun _ => .expect _ _

theorem fileOf_silent (t : TaskId) (h : Handle) : (fileOf t h).Silent :=
  .bind (.look _) fun c => lookupHandle_silent c h

theorem openFileOf_silent (t : TaskId) (h : Handle) : (openFileOf t h).Silent :=
  .bind (fileOf_silent t h) fun _ => .look _

theorem startNode_silent (t : TaskId) (base : Option Handle) : (startNode t base).Silent := by
  cases base with
  | none => exact .pure _
  | some h =>
    exact .bind (openFileOf_silent t h) fun _ => .bind (.look _) fun _ => .bind (.demand _ _)
      fun _ => .pure _

theorem streamOf_silent (t : TaskId) (h : Handle) : (streamOf t h).Silent :=
  .bind (fileOf_silent t h) fun _ => .bind (.look _) fun _ => .bind (.ofResult _) fun _ =>
    .bind (opsOf_silent _) fun _ => .pure _

theorem directoryOf_silent (t : TaskId) (h : Handle) : (directoryOf t h).Silent :=
  .bind (fileOf_silent t h) fun _ => .bind (.look _) fun _ => .bind (.demand _ _) fun _ =>
    .bind (opsOf_silent _) fun _ => .pure _

theorem operableOf_silent (t : TaskId) (h : Handle) : (operableOf t h).Silent :=
  .bind (openFileOf_silent t h) fun _ => .bind (.demand _ _) fun _ =>
    .bind (opsOf_silent _) fun _ => .pure _

theorem readableOf_silent (t : TaskId) (h : Handle) : (readableOf t h).Silent :=
  .bind (streamOf_silent t h) fun _ => .bind (.demand _ _) fun _ => .pure _

theorem writableOf_silent (t : TaskId) (h : Handle) : (writableOf t h).Silent :=
  .bind (streamOf_silent t h) fun _ => .bind (.demand _ _) fun _ => .pure _

theorem volumeForWriting_silent (n : NodeId) : (volumeForWriting n).Silent :=
  .bind (volumeOf_silent n) fun _ => .bind (.look _) fun _ => .bind (.demand _ _) fun _ => .pure _

theorem bindable_silent (c : ContextId) (h : Handle) : (bindable c h).Silent :=
  .bind (belongs_silent c h) fun _ => .bind (.look _) fun _ => .demand _ _

theorem installable_silent (c : ContextId) (h : Handle) : (installable c h).Silent :=
  .bind (belongs_silent c h) fun _ => .bind (.look _) fun _ => .bind (.demand _ _) fun _ =>
    .demand _ _

theorem allocateHandle_silent (c : ContextId) : (allocateHandle c).Silent := by
  refine .bind (.look _) fun context => ?_
  cases context.files.reserve with
  | none => exact .throw _
  | some reserved => exact .bind (.change _) fun _ => .pure _

theorem freeHandle_silent (c : ContextId) (h : Handle) : (freeHandle c h).Silent := by
  refine .bind (.look _) fun context => ?_
  split
  · exact .bind (.change _) fun _ => .pure _
  · exact .pure _

theorem bindHandle_silent (c : ContextId) (h : Handle) (f : FileId) :
    (bindHandle c h f).Silent := by
  refine .bind (.query (bindable_silent c h)) fun _ => .bind (.look _) fun context => ?_
  cases context.files.fill h.slot f with
  | error e => exact .throw _
  | ok files => exact .change _

theorem installHandle_silent (c : ContextId) (h : Handle) (f : FileId) :
    (installHandle c h f).Silent := by
  refine .bind (.query (installable_silent c h)) fun _ => .bind (.look _) fun context => ?_
  cases context.files.replace h.slot f with
  | error e => exact .throw _
  | ok replaced => exact .bind (.change _) fun _ => .pure _

theorem addFile_silent (file : OpenFile) : (addFile file).Silent :=
  .bind (.look _) fun _ => .bind (.change _) fun _ => .pure _

theorem setWorkingDirectory_silent (c : ContextId) (n : NodeId) :
    (setWorkingDirectory c n).Silent := .change _

theorem enterDirectory_silent (t : TaskId) (n : NodeId) : (enterDirectory t n).Silent :=
  .bind (.query (.look _)) fun _ => .bind (.query (.demand _ _)) fun _ =>
    .bind (.query (.look _)) fun c => setWorkingDirectory_silent c n

theorem releaseNode_silent (name : String) : (releaseNode name).Silent :=
  .bind (.look _) fun _ => .bind (.change _) fun _ => .pure _

theorem addContext_silent (kernel : Bool) : (addContext kernel).Silent :=
  .bind .world fun _ => .bind (.change _) fun _ => .pure _

theorem addTask_silent (context : ContextId) : (addTask context).Silent :=
  .bind (.query (.look _)) fun _ => .bind (.change _) fun _ => .pure _

theorem moveBy_silent (f : FileId) (position count : Nat) : (moveBy f position count).Silent :=
  .bind (.query (.ofResult _)) fun _ => .change _

theorem setFlags_silent (t : TaskId) (h : Handle) (flags : OpenFlags) :
    (setFlags t h flags).Silent :=
  .bind (.query (fileOf_silent t h)) fun _ => .change _

theorem rewind_silent (t : TaskId) (h : Handle) : (rewind t h).Silent :=
  .bind (.query (directoryOf_silent t h)) fun _ => .bind (.query (volumeOf_silent _)) fun _ =>
    .change _

theorem receive_silent {α : Type} (buffers : List ByteArray) {deliver : Act ByteArray}
    (hdeliver : deliver.Silent) {finish : ByteArray → Act α}
    (hfinish : ∀ data, (finish data).Silent) : (receive buffers deliver finish).Silent := by
  refine .bind hdeliver.attempt fun delivered => ?_
  cases delivered with
  | error e => exact .pure _
  | ok data => exact .bind (hfinish data).attempt fun _ => .pure _

theorem Action.Emits.filling {α : Type} {P : Event → Prop} {x : Act (Received α)} (h : x.Emits P) :
    (Action.filling x).Emits P :=
  .bind h fun _ => .bind (.query (.ofResult _)) fun _ => .pure _

/-! ## Open files -/

section

variable [b : Backends] (hb : b.Silent)

include hb

theorem OpsKind.readLink_silent (o : OpsKind) (v : VolumeKey) (n : NodeId) (depth : UInt32) :
    (o.readLink v n depth).Silent :=
  .bind (.note rfl) fun _ => (hb.ops o).readLink v n

theorem OpsKind.read_silent (o : OpsKind) (file : OpenFile) (position room : Nat) :
    (o.read file position room).Silent :=
  .bind (.note rfl) fun _ => (hb.ops o).read file position room

theorem OpsKind.write_silent (o : OpsKind) (file : OpenFile) (position : Nat) (data : ByteArray) :
    (o.write file position data).Silent :=
  .bind (.note rfl) fun _ => (hb.ops o).write file position data

theorem OpsKind.openDirectory_silent (o : OpsKind) (v : VolumeKey) (n : NodeId)
    (flags : OpenFlags) : (o.openDirectory v n flags).Silent :=
  .bind (.note rfl) fun _ => .bind ((hb.ops o).openDirectory v n flags) fun _ =>
    .bind (.note rfl) fun _ => .pure _

theorem OpsKind.openFile_silent (o : OpsKind) (v : VolumeKey) (n : NodeId) (flags : OpenFlags) :
    (o.openFile v n flags).Silent :=
  .bind (.note rfl) fun _ => .bind ((hb.ops o).openFile v n flags) fun _ =>
    .bind (.note rfl) fun _ => .pure _

theorem linkTarget_silent (link : NodeId) (depth : UInt32) : (linkTarget link depth).Silent :=
  .bind (opsOf_silent link) fun o => .bind (volumeOf_silent link) fun v =>
    .bind ((hb.ops o).status v link) fun _ => .bind (.look _) fun _ => .bind (.demand _ _)
      fun _ => OpsKind.readLink_silent hb o v link depth

theorem statusOf_silent (n : NodeId) : (statusOf n).Silent :=
  .bind (opsOf_silent n) fun o => .bind (volumeOf_silent n) fun v =>
    .bind ((hb.ops o).status v n) fun _ => .look _

theorem writePosition_silent (file : OpenFile) : (writePosition file).Silent :=
  .ite (statusOf_silent hb file.node).map (.pure _)

theorem seekSize_silent (file : OpenFile) (origin : SeekOrigin) : (seekSize file origin).Silent :=
  .ite (statusOf_silent hb file.node).map (.pure _)

theorem closeFile_silent (key : Option FileId) (file : OpenFile) :
    (closeFile key file).Silent := by
  refine .ite (.pure _) (.bind (.look _) fun ops => ?_)
  cases ops with
  | none => exact .pure _
  | some o =>
    have hclose : (o.close file key).Silent := .bind (.note rfl) fun _ => (hb.ops o).close file
    refine .bind hclose.attempt fun closed => ?_
    cases closed with
    | ok => exact .pure _
    | error cause => exact .bind (.look _) fun _ => .note rfl

theorem dropFile_silent (f : FileId) : (dropFile f).Silent := by
  refine .bind (.look _) fun kept => ?_
  split
  · exact .pure _
  · exact .bind (.look _) fun file => .bind (.query (closeFile_silent hb (some f) file)) fun _ =>
      .change _

theorem dropDisplaced_silent (displaced : Option FileId) : (dropDisplaced displaced).Silent := by
  cases displaced with
  | none => exact .pure _
  | some f => exact dropFile_silent hb f

theorem giveBack_silent (c : ContextId) (h : Handle) : (giveBack c h).Silent :=
  .bind (freeHandle_silent c h) fun displaced => dropDisplaced_silent hb displaced

theorem dropFiles_silent (files : List FileId) : (dropFiles files).Silent := by
  induction files with
  | nil => exact .pure _
  | cons f rest ih =>
    rw [dropFiles]
    split
    · exact ih
    · exact .bind (dropFile_silent hb f) fun _ => ih

theorem emptyTable_silent (c : ContextId) : (emptyTable c).Silent :=
  .bind (.look _) fun _ => .bind (.change _) fun _ => dropFiles_silent hb _

theorem retireContext_silent (c : ContextId) : (retireContext c).Silent :=
  .bind (emptyTable_silent hb c) fun _ => .bind (.look _) fun n => setWorkingDirectory_silent c n

theorem commitFile_silent (c : ContextId) (h : Handle) (file : OpenFile) :
    (commitFile c h file).Silent := by
  refine .bind (.query (bindable_silent c h).attempt) fun bound => ?_
  cases bound with
  | error e => exact .bind (.query (closeFile_silent hb none file)) fun _ => .throw _
  | ok =>
    exact .bind (addFile_silent file) fun f => .bind (bindHandle_silent c h f) fun _ => .pure _

theorem withReserved_silent (c : ContextId) {work : Handle → Act Handle}
    (hwork : ∀ h, (work h).Silent) : (withReserved c work).Silent :=
  .bind (allocateHandle_silent c) fun h => (hwork h).orUndo (giveBack_silent hb c h)

theorem openFound_silent (n : NodeId) (flags : OpenFlags) : (openFound n flags).Silent := by
  rw [openFound]
  split
  · exact .pure _
  refine .bind .world fun w => .bind (.query (.demand _ _)) fun _ =>
    .bind (.query (opsOf_silent n)) fun o => .bind (.query (volumeOf_silent n)) fun v => ?_
  dsimp only
  split
  · exact .bind (.query (.demand _ _)) fun _ => .query (OpsKind.openDirectory_silent hb o v n _)
  · exact .bind (.query (.demand _ _)) fun _ => .bind (.query (.demand _ _)) fun _ =>
      OpsKind.openFile_silent hb o v n _

/-! ## Calls on open files -/

theorem readv_silent (t : TaskId) (h : Handle) (buffers : List ByteArray) :
    (readv t h buffers).Silent := by
  refine .bind (.query (readableOf_silent t h).attempt) fun found => ?_
  cases found with
  | error e => exact .pure _
  | ok found =>
    exact receive_silent buffers (.query (OpsKind.read_silent hb found.2.2 _ _ _)) fun data =>
      .bind (moveBy_silent _ _ _) fun _ => .pure _

theorem preadv_silent (t : TaskId) (h : Handle) (position : Nat) (buffers : List ByteArray) :
    (preadv t h position buffers).Silent :=
  receive_silent buffers
    (.bind (.query (readableOf_silent t h)) fun found =>
      .query (OpsKind.read_silent hb found.2.2 _ _ _)) fun _ => .pure _

theorem control_silent (t : TaskId) (h : Handle) (request : UInt32) (input buffer : ByteArray) :
    (control t h request input buffer).Silent :=
  receive_silent [buffer]
    (.bind (.query (operableOf_silent t h)) fun found =>
      .query ((hb.ops found.2).control _ _ _ _)) fun _ => .pure _

theorem writev_silent (t : TaskId) (h : Handle) (segments : List ByteArray) :
    (writev t h segments).Silent :=
  .bind (.query (writableOf_silent t h)) fun found =>
    .bind (.query (writePosition_silent hb found.2.1)) fun _ =>
      .bind (OpsKind.write_silent hb found.2.2 _ _ _) fun _ => .bind (moveBy_silent _ _ _)
        fun _ => .pure _

theorem pwritev_silent (t : TaskId) (h : Handle) (position : Nat) (segments : List ByteArray) :
    (pwritev t h position segments).Silent :=
  .bind (.query (writableOf_silent t h)) fun found => OpsKind.write_silent hb found.2.2 _ _ _

theorem seek_silent (t : TaskId) (h : Handle) (offset : Int) (origin : SeekOrigin) :
    (seek t h offset origin).Silent :=
  .bind (.query (streamOf_silent t h)) fun found =>
    .bind (.query (seekSize_silent hb found.2.1 origin)) fun _ =>
      .bind (.query (.ofResult _)) fun _ => .bind (.change _) fun _ => .pure _

theorem nextEntry_silent (t : TaskId) (h : Handle) : (nextEntry t h).Silent :=
  .bind (.query (directoryOf_silent t h)) fun found => .bind (.query (volumeOf_silent _)) fun v =>
    .bind (.query ((hb.ops found.2.2).entry v _ _)) fun _ => .bind (.when (.change _)) fun _ =>
      .pure _

theorem writeStatus_silent (t : TaskId) (h : Handle) (status : Status) (mask : StatusMask) :
    (writeStatus t h status mask).Silent :=
  .bind (.query (operableOf_silent t h)) fun found =>
    .bind (.query (volumeForWriting_silent _)) fun _ => (hb.ops found.2).writeStatus _ _ _ _

theorem close_silent (t : TaskId) (h : Handle) : (close t h).Silent :=
  .bind (.query (.look _)) fun c => .bind (.query (lookupHandle_silent c h)) fun _ =>
    giveBack_silent hb c h

theorem duplicate_silent (t : TaskId) (h : Handle) : (duplicate t h).Silent :=
  .bind (.query (fileOf_silent t h)) fun f => .bind (.query (.look _)) fun c =>
    withReserved_silent hb c fun copy => .bind (bindHandle_silent c copy f) fun _ => .pure _

theorem duplicateTo_silent (t : TaskId) (h target : Handle) : (duplicateTo t h target).Silent := by
  refine .bind (.query (fileOf_silent t h)) fun f => ?_
  split
  · exact .pure _
  · exact .bind (.query (.look _)) fun c => .bind (installHandle_silent c target f)
      fun displaced => .bind (dropDisplaced_silent hb displaced) fun _ => .pure _

theorem reopen_silent (t : TaskId) (h : Handle) : (reopen t h).Silent :=
  .bind (.query (openFileOf_silent t h)) fun _ => .bind (.query (.look _)) fun c =>
    withReserved_silent hb c fun copy => .bind (openFound_silent hb _ _) fun _ =>
      commitFile_silent hb c copy _

theorem openHeld_silent (t : TaskId) (n : NodeId) (flags : OpenFlags) :
    (openHeld t n flags).Silent :=
  .bind (.query (.look _)) fun c => withReserved_silent hb c fun h =>
    .bind (openFound_silent hb n flags) fun file => commitFile_silent hb c h file

end

end VirtualFs
