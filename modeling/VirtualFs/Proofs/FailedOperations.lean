/-
Operations that fail change nothing. Each one checks before it changes
anything, and what follows its first change succeeds: a number that was
reserved is free again if the open fails, and once a file was emptied or made
nothing stands in the way of binding it. Both need a number that selects the
table it was reserved in.

Publishing and moving a device are left out: the directories on the way are
made before the device is, and stay if it then cannot be.
-/
import VirtualFs.Proofs.Failure

namespace VirtualFs

open Query (look ofResult)
open VirtualFs.Action (fails_pure fails_throw fails_change fails_query fails_bind
  fails_query_bind fails_demand_bind fails_sure_bind fails_ask_bind fails_look_bind
  fails_world_bind fails_note_bind fails_change_bind fails_when fails_attempt)

variable {w start : World} {c : ContextId} {handle : Handle}

/-! ## Opening -/

theorem openFound_fails (n : NodeId) (flags : OpenFlags) :
    (openFound n flags).FailsTo w w fun _ w' => w'.contexts = w.contexts := by
  rw [openFound]
  split
  · exact fails_pure rfl
  refine fails_world_bind (fails_demand_bind fun _ => fails_query_bind fun ops _ =>
    fails_query_bind fun v _ => ?_)
  dsimp only
  split
  · exact fails_demand_bind fun _ => fails_query fun _ _ => rfl
  · exact fails_demand_bind fun _ => fails_demand_bind fun _ => ops.openFile_fails n _

section

variable (h : w.WellFormed) {d : NodeId}

include h

theorem createNode_inserts (hd : w.Known d) (name : String) (flags : OpenFlags) (mode : UInt32) :
    (createNode d name flags mode).FailsTo w w fun file w' => w.Inserted d name file.node w' := by
  refine fails_query_bind fun _ _ => fails_query_bind fun v hv => fails_ask_bind ?_
  rw [(h.ram d hd.live).driver]
  exact RamFs.createFile_inserts h hd.live (World.Sound.volumeForWriting_asked hd v hv).volume_eq
    flags mode

theorem createNode_makes (hd : w.Live d) (name : String) (flags : OpenFlags) (mode : UInt32) :
    (createNode d name flags mode).FailsTo w w fun _ w' =>
      (w'.node w.nodes.nextKey).mode = Mode.make Mode.regular mode ∧
        w'.content w.nodes.nextKey = .file .empty := by
  refine fails_query_bind fun _ _ => fails_query_bind fun v _ => fails_ask_bind ?_
  rw [(h.ram d hd).driver]
  exact RamFs.createFile_makes hd flags mode

theorem openName_fails (t : TaskId) (hd : w.Known d) (name : String) (flags : OpenFlags)
    (mode : UInt32) :
    (openName t d name flags mode).FailsTo w w fun _ w' => w'.contexts = w.contexts := by
  refine fails_query_bind fun found _ => ?_
  split
  · exact fails_demand_bind fun _ => openFound_fails _ flags
  · split
    · exact (createNode_inserts h hd name flags mode).imp fun _ _ hinserted => hinserted.contexts_eq
    · exact fails_throw

theorem openPath_fails {t : TaskId} {flags : OpenFlags}
    (hnumbers : w.Numberable (w.contextOf t flags.forKernel)) (base : Option Handle) (path : String)
    (mode : UInt32) : (openPath t base path flags mode).Atomic w := by
  refine fails_ask_bind (withReserved_fails h hnumbers fun handle w' hw' hreserved _ => ?_)
  refine fails_query_bind fun start hstart => fails_query_bind fun found hfound => ?_
  have hfound : (resolveTarget t base path w').result = .ok found :=
    Query.result_bind_eq_ok.2 ⟨start, hstart, hfound⟩
  have hknown := (hw'.sound.resolveTarget_yields t base path found hfound).1
  exact fails_bind (openName_fails hw' t hknown found.2 flags mode) fun file w'' hcontexts =>
    fails_bind (commitFile_fails (hreserved.congr hcontexts) file) fun _ _ _ =>
      fails_note_bind (fails_pure trivial)

omit h in
/-- What has been found is opened under a number that is reserved. -/
theorem openFound_commit_fails (hreserved : w.Reserved c handle) (n : NodeId) (flags : OpenFlags)
    (g : OpenFile → OpenFile) :
    (openFound n flags >>= fun file => commitFile c handle (g file)).Atomic w :=
  fails_bind (openFound_fails n flags) fun file _ hcontexts =>
    commitFile_fails (hreserved.congr hcontexts) (g file)

theorem openPinned_fails {t : TaskId} {flags : OpenFlags}
    (hnumbers : w.Numberable (w.contextOf t flags.forKernel)) (name : String) :
    (openPinned t name flags).Atomic w :=
  fails_ask_bind (fails_query_bind fun n _ => fails_ask_bind (withReserved_fails h hnumbers
    fun _ _ _ hreserved _ => openFound_commit_fails hreserved n flags id))

theorem reopen_fails {t : TaskId} {handle : Handle}
    (hnumbers : w.Numberable (w.contextOf t handle.isKernel)) : (reopen t handle).Atomic w :=
  fails_query_bind fun file _ => fails_ask_bind (withReserved_fails h hnumbers
    fun _ _ _ hreserved _ =>
      openFound_commit_fails hreserved file.node _ (·.setPosition file.position))

theorem duplicate_fails {t : TaskId} {handle : Handle}
    (hnumbers : w.Numberable (w.contextOf t handle.isKernel)) : (duplicate t handle).Atomic w :=
  fails_query_bind fun f _ => fails_ask_bind (withReserved_fails h hnumbers
    fun _ _ _ hreserved _ =>
      fails_bind (bindHandle_fails hreserved f) fun _ _ _ => fails_pure trivial)

end

theorem close_fails (t : TaskId) (handle : Handle) : (close t handle).Atomic w :=
  fails_ask_bind (fails_query_bind fun _ _ => giveBack_fails _ handle)

theorem duplicateTo_fails (t : TaskId) (handle target : Handle) :
    (duplicateTo t handle target).Atomic w := by
  refine fails_query_bind fun f _ => ?_
  split
  · exact fails_pure trivial
  refine fails_ask_bind (fails_bind (P := fun _ _ => True) ?_ fun displaced _ _ =>
    fails_bind (dropDisplaced_fails displaced) fun _ _ _ => fails_pure trivial)
  refine fails_query_bind fun _ _ => fails_look_bind ?_
  split
  · exact fails_throw
  · exact fails_change_bind (fails_pure trivial)

/-! ## Moving bytes -/

theorem moveBy_fails (f : FileId) (position count : Nat) : (moveBy f position count).Atomic w :=
  fails_query_bind fun _ _ => fails_change trivial

/-- A position within the largest file is within a word. -/
theorem moveBy_fits (f : FileId) {position count : Nat}
    (h : position + count ≤ RamFs.fileSizeMax) :
    (moveBy f position count).FailsTo start w fun _ _ => True := by
  have hlt : position + count < wordLimit := Nat.lt_of_le_of_lt h (by decide)
  have hafter : (ofResult (positionAfter position count) w).result = .ok (position + count) := by
    rw [Query.result_ofResult, positionAfter, if_pos hlt]
  exact fails_sure_bind hafter (fails_change trivial)

/-- A call that fills buffers changes nothing if it ends in a failure. -/
theorem receive_fails {α : Type} {buffers : List ByteArray} {deliver : Act ByteArray}
    {finish : ByteArray → Act α} (hdeliver : (deliver w).world = w)
    (hfinish : ∀ data, (finish data).Atomic w) :
    (receive buffers deliver finish).FailsTo start w fun received w' =>
      ∀ e, received.result = .error e → w' = w := by
  have hdelivered : (Action.attempt deliver : Act _).FailsTo start w fun _ w' => w' = w :=
    ⟨nofun, fun _ _ => hdeliver⟩
  refine fails_bind hdelivered ?_
  rintro delivered _ rfl
  cases delivered with
  | error e => exact fails_pure fun _ _ => rfl
  | ok data => exact fails_bind (fails_attempt (hfinish data)) fun r _ hr => fails_pure hr.1

theorem readv_fails (t : TaskId) (handle : Handle) (buffers : List ByteArray) :
    (readv t handle buffers).FailsTo w w fun received w' =>
      ∀ e, received.result = .error e → w' = w := by
  refine fails_query_bind fun _ _ => ?_
  split
  · exact fails_pure fun _ _ => rfl
  · exact receive_fails rfl fun data => fails_bind (moveBy_fails _ _ _) fun _ _ _ =>
      fails_pure trivial

theorem preadv_fails (t : TaskId) (handle : Handle) (position : Nat) (buffers : List ByteArray) :
    (preadv t handle position buffers).FailsTo w w fun received w' =>
      ∀ e, received.result = .error e → w' = w := by
  refine receive_fails ?_ fun _ => fails_pure trivial
  exact (Action.leads_query_bind fun _ _ => Action.leads_query fun _ _ => trivial :
    Action.LeadsOnly (fun _ _ => False) _ w).world_eq

theorem control_fails (t : TaskId) (handle : Handle) (request : UInt32) (input buffer : ByteArray) :
    (control t handle request input buffer).FailsTo w w fun received w' =>
      ∀ e, received.result = .error e → w' = w := by
  refine receive_fails ?_ fun _ => fails_pure trivial
  exact (Action.leads_query_bind fun _ _ => Action.leads_query fun _ _ => trivial :
    Action.LeadsOnly (fun _ _ => False) _ w).world_eq

/-- Either nothing was written, or the position after it fits. -/
theorem writev_fails (t : TaskId) (handle : Handle) (segments : List ByteArray) :
    (writev t handle segments).Atomic w := by
  refine fails_query_bind fun found _ => fails_query_bind fun position _ => ?_
  refine fails_bind (found.2.2.write_fails found.2.1 position _) fun count w' hcases => ?_
  rcases hcases with rfl | hfits
  · exact fails_bind (moveBy_fails _ _ _) fun _ _ _ => fails_pure trivial
  · exact fails_bind (moveBy_fits _ hfits) fun _ _ _ => fails_pure trivial

theorem pwritev_fails (t : TaskId) (handle : Handle) (position : Nat) (segments : List ByteArray) :
    (pwritev t handle position segments).Atomic w :=
  fails_query_bind fun found _ => (found.2.2.write_fails _ position _).imp fun _ _ _ => trivial

theorem nextEntry_fails (t : TaskId) (handle : Handle) : (nextEntry t handle).Atomic w :=
  fails_query_bind fun _ _ => fails_query_bind fun _ _ => fails_query_bind fun _ _ =>
    fails_bind (P := fun _ _ => True) (fails_when (fun _ => fails_change trivial) fun _ => trivial)
      fun _ _ _ => fails_pure trivial

/-! ## Names and mounts -/

section

variable (h : w.WellFormed)

include h

/-- What is asked for at the place a path names is asked of the memory filesystem. -/
theorem placeOf_fails (t : TaskId) (base : Option Handle) (path : String) {work : Place → Act Unit}
    {Q : NodeId → String → World → Prop}
    (hwork : ∀ v d name, w.Asked .ram v d →
      (work ⟨d, name, v, .ram⟩).FailsTo w w fun _ w' => Q d name w') :
    ((liftM (placeOf t base path) : Act Place) >>= work).FailsTo w w fun _ w' =>
      ∃ d name, (resolveTarget t base path w).result = .ok (d, name) ∧ Q d name w' := by
  refine fails_query_bind fun place hplace => ?_
  obtain ⟨hasked, -, hfound⟩ := h.sound.placeOf_yields t base _ place hplace
  obtain ⟨d, name, v, driver⟩ := place
  obtain rfl : driver = .ram := h.driver_eq_ram hasked
  exact (hwork v d name hasked).imp fun _ _ hleft => ⟨d, name, hfound, hleft⟩

theorem makeDirectory_inserts (t : TaskId) (base : Option Handle) (path : String) (mode : UInt32) :
    (makeDirectory t base path mode).FailsTo w w fun _ w' => ∃ d name,
      (resolveTarget t base (stripSlashes path).1 w).result = .ok (d, name) ∧
        (∃ n, w.Inserted d name n w') ∧
        (w'.node w.nodes.nextKey).mode = Mode.make Mode.directory mode ∧
        w'.content w.nodes.nextKey = .directory .empty :=
  placeOf_fails h t base _ fun _ _ _ hasked =>
    (RamFs.createDirectory_inserts h hasked.known.live hasked.volume_eq mode).and
      (RamFs.createDirectory_makes hasked.known.live mode)

theorem makeSymlink_inserts (t : TaskId) (base : Option Handle) (path text : String) :
    (makeSymlink t base path text).FailsTo w w fun _ w' => ∃ d name,
      (resolveTarget t base path w).result = .ok (d, name) ∧ (∃ n, w.Inserted d name n w') ∧
        (w'.node w.nodes.nextKey).mode = Mode.make Mode.symlink 0o777 ∧
        w'.content w.nodes.nextKey = .symlink text :=
  fails_demand_bind fun _ => fails_query_bind fun _ _ => fails_demand_bind fun _ =>
    placeOf_fails h t base _ fun _ _ _ hasked =>
      (RamFs.createSymlink_inserts h hasked.known.live hasked.volume_eq text).and
        (RamFs.createSymlink_makes hasked.known.live text)

theorem removeDirectory_removes (t : TaskId) (base : Option Handle) (path : String) :
    (removeDirectory t base path).FailsTo w w fun _ w' => ∃ d name,
      (resolveTarget t base (stripSlashes path).1 w).result = .ok (d, name) ∧
        w.Removed d name w' ∧
        ∀ c, w.Entry d name c → w.isDirectory c = true ∧ (w.node c).mountRoot = none :=
  placeOf_fails h t base _ fun _ _ _ hasked => fails_note_bind
    ((RamFs.removeDirectory_removes h _ hasked.known.live _).and
      (RamFs.removeDirectory_checks h _ hasked.known.live _))

theorem unlink_removes (t : TaskId) (base : Option Handle) (path : String) :
    (unlink t base path).FailsTo w w fun _ w' => ∃ d name,
      (resolveTarget t base path w).result = .ok (d, name) ∧
        w.Removed d name w' ∧ ∀ c, w.Entry d name c → w.isDirectory c = false :=
  placeOf_fails h t base _ fun _ _ _ hasked => fails_note_bind
    ((RamFs.unlink_removes h _ hasked.known.live _).and
      (RamFs.unlink_checks h _ hasked.known.live _))

theorem rename_renames (t : TaskId) (oldBase : Option Handle) (oldPath : String)
    (newBase : Option Handle) (newPath : String) :
    (rename t oldBase oldPath newBase newPath).FailsTo w w fun _ w' => ∃ oldDir oldName d name,
      (resolveTarget t oldBase (stripSlashes oldPath).1 w).result = .ok (oldDir, oldName) ∧
        (resolveTarget t newBase (stripSlashes newPath).1 w).result = .ok (d, name) ∧
        w.Renamed oldDir oldName d name w' ∧
        ∀ n, w.Entry oldDir oldName n → (w.node n).mountRoot = none ∧
          ∀ t, w.Entry d name t → (t = n → w' = w) ∧ (t ≠ n → w.GivesWay t n) := by
  refine fails_query_bind fun old hold => fails_query_bind fun new hnew =>
    fails_query_bind fun _ holdName => fails_query_bind fun _ hnewName => fails_world_bind <|
    fails_demand_bind fun hid => fails_query_bind fun v _ => ?_
  obtain ⟨holdKnown, holdWhole⟩ := h.sound.resolveTarget_yields t oldBase _ old hold
  obtain ⟨hnewKnown, hnewWhole⟩ := h.sound.resolveTarget_yields t newBase _ new hnew
  rw [Query.result_ofResult] at holdName hnewName
  rw [(h.ram _ holdKnown.live).driver]
  refine (fails_note_bind ((RamFs.rename_renames h v holdKnown.live hnewKnown.live
    ((h.volume_eq_iff holdKnown.live hnewKnown.live).2 hid) ⟨holdName, holdWhole⟩
    ⟨hnewName, hnewWhole⟩ _).and (RamFs.rename_checks h v holdKnown.live hnewKnown.live
    ⟨holdName, holdWhole⟩ ⟨hnewName, hnewWhole⟩ _))).imp ?_
  exact fun _ _ hleft => ⟨old.1, old.2, new.1, new.2, hold, hnew, hleft⟩

/-- An id is used up only by a mount that succeeds: the memory filesystem refuses none, and leaves
the directory bare. -/
theorem mount_fails (t : TaskId) (device dir fs : String) (flags : VolumeFlags) (args : String) :
    (mount t device dir fs flags args).Atomic w := by
  refine fails_query_bind fun p hp => fails_ask_bind (fails_query_bind fun driver hdriver => ?_)
  rw [Query.result_expect_eq_ok] at hdriver
  obtain rfl := h.held.driver fs driver hdriver
  have hmountable := resolveMountPoint_mountable (h.steady : w.Steady .all) t dir p hp
  refine fails_bind (P := fun _ w' => w' = { w with nextVolumeId := w.nextVolumeId + 1 })
    (fails_look_bind (fails_change_bind (fails_pure rfl))) fun id _ heq => ?_
  subst heq
  refine fails_bind (P := fun _ w' => (w'.node p).mountRoot.isNone = true)
    (fails_note_bind (fails_world_bind (fails_change_bind (fails_pure ?_)))) fun v w' hbare => ?_
  · exact Option.isNone_iff_eq_none.2 (hmountable.bare_withVolume _ id device flags)
  · have hdone : (Query.demand ((w'.node p).mountRoot.isNone = true) .busy w').result = .ok () :=
      Query.result_demand_eq_ok.2 hbare
    exact fails_ask_bind (fails_sure_bind hdone
      (fails_change_bind (fails_note_bind (fails_pure trivial))))

end

/-! ## Attributes, positions and directories -/

theorem setFlags_fails (t : TaskId) (handle : Handle) (flags : OpenFlags) :
    (setFlags t handle flags).Atomic w :=
  fails_query_bind fun _ _ => fails_change trivial

theorem seek_fails (t : TaskId) (handle : Handle) (offset : Int) (origin : SeekOrigin) :
    (seek t handle offset origin).Atomic w :=
  fails_query_bind fun _ _ => fails_query_bind fun _ _ => fails_query_bind fun _ _ =>
    fails_change_bind (fails_pure trivial)

theorem rewind_fails (t : TaskId) (handle : Handle) : (rewind t handle).Atomic w :=
  fails_query_bind fun _ _ => fails_query_bind fun _ _ => fails_change trivial

theorem writeStatus_fails (t : TaskId) (handle : Handle) (status : Status) (mask : StatusMask) :
    (writeStatus t handle status mask).Atomic w :=
  fails_query_bind fun found _ => fails_query_bind fun _ _ =>
    found.2.writeStatus_fails found.1.node status mask

theorem enterDirectory_fails (t : TaskId) (n : NodeId) : (enterDirectory t n).Atomic w :=
  fails_ask_bind (fails_demand_bind fun _ => fails_ask_bind (fails_change trivial))

theorem changeDirectory_fails (t : TaskId) (path : String) : (changeDirectory t path).Atomic w :=
  fails_query_bind fun n _ => enterDirectory_fails t n

theorem changeDirectoryTo_fails (t : TaskId) (handle : Handle) :
    (changeDirectoryTo t handle).Atomic w :=
  fails_query_bind fun file _ => enterDirectory_fails t file.node

/-! ## What the instance's owner does -/

theorem withdrawDevice_fails (h : w.WellFormed) (ino : Nat) : (withdrawDevice ino).Atomic w := by
  refine fails_ask_bind (fails_query_bind fun found hfound => ?_)
  obtain ⟨-, c, hentry⟩ := RamFs.findDevice_yields h ino h.rooted.rootVolume found hfound
  exact (RamFs.unlink_removes h _ hentry.live found.2).imp fun _ _ _ => trivial

theorem holdPath_fails (t : TaskId) (start : Option String) (path : String) (flags : LookupMode)
    (name : String) : (holdPath t start path flags name).Atomic w :=
  fails_ask_bind (fails_query_bind fun _ _ => fails_change trivial)

theorem releaseNode_fails (name : String) : (releaseNode name).Atomic w :=
  fails_look_bind (fails_change_bind (fails_pure trivial))

theorem addContext_fails (kernel : Bool) : (addContext kernel).Atomic w :=
  fails_world_bind (fails_change_bind (fails_pure trivial))

theorem addTask_fails (context : ContextId) : (addTask context).Atomic w :=
  fails_ask_bind (fails_change_bind (fails_pure trivial))

theorem retireContext_fails (c : ContextId) : (retireContext c).Atomic w :=
  fails_bind (emptyTable_fails c) fun _ _ _ => fails_look_bind (fails_change trivial)

/-! ## Every operation -/

theorem Action.fails_only {α : Type} {x : Act α} {Q : α → World → Prop} (hx : x.FailsTo w w Q) :
    x.only.Atomic w :=
  fails_bind hx fun _ _ _ => fails_pure trivial

theorem Action.fails_filling {α : Type} {x : Act (Received α)}
    (hx : x.FailsTo w w fun received w' => ∀ e, received.result = .error e → w' = w) :
    (filling x).Atomic w := by
  refine fails_bind hx fun received w' hsame => ?_
  cases hresult : received.result with
  | error e =>
    obtain rfl := hsame e hresult
    exact fails_query_bind fun _ _ => fails_pure trivial
  | ok a => exact fails_sure_bind (Query.result_ofResult (.ok a) w') (fails_pure trivial)

namespace Operation

/-- The operations that publish or move a device. -/
def Publishes : Operation → Prop
  | .addDevice _ _ | .moveDevice _ _ => True
  | _ => False

/-- The context an operation takes a new number from. -/
def drawsOn (w : World) : Operation → Option ContextId
  | .openPath t _ _ flags _ | .openPinned t _ flags => some (w.contextOf t flags.forKernel)
  | .duplicate t handle | .reopen t handle => some (w.contextOf t handle.isKernel)
  | _ => none

theorem act_fails (h : w.WellFormed) (op : Operation)
    (hnumbers : ∀ c, op.drawsOn w = some c → w.Numberable c) (hop : ¬op.Publishes) :
    op.act.Atomic w := by
  cases op with
  | openPath t base path flags mode =>
    exact Action.fails_only (openPath_fails h (hnumbers _ rfl) base path mode)
  | openPinned t name flags => exact Action.fails_only (openPinned_fails h (hnumbers _ rfl) name)
  | close t handle => exact Action.fails_only (close_fails t handle)
  | duplicate t handle => exact Action.fails_only (duplicate_fails h (hnumbers _ rfl))
  | duplicateTo t handle target => exact Action.fails_only (duplicateTo_fails t handle target)
  | reopen t handle => exact Action.fails_only (reopen_fails h (hnumbers _ rfl))
  | setFlags t handle flags => exact Action.fails_only (setFlags_fails t handle flags)
  | readv t handle buffers => exact Action.fails_filling (readv_fails t handle buffers)
  | preadv t handle position buffers =>
    exact Action.fails_filling (preadv_fails t handle position buffers)
  | writev t handle segments => exact Action.fails_only (writev_fails t handle segments)
  | pwritev t handle position segments =>
    exact Action.fails_only (pwritev_fails t handle position segments)
  | seek t handle offset origin => exact Action.fails_only (seek_fails t handle offset origin)
  | control t handle request input buffer =>
    exact Action.fails_filling (control_fails t handle request input buffer)
  | nextEntry t handle => exact Action.fails_only (nextEntry_fails t handle)
  | rewind t handle => exact Action.fails_only (rewind_fails t handle)
  | makeDirectory t base path mode =>
    exact Action.fails_only (makeDirectory_inserts h t base path mode)
  | removeDirectory t base path => exact Action.fails_only (removeDirectory_removes h t base path)
  | unlink t base path => exact Action.fails_only (unlink_removes h t base path)
  | makeSymlink t base path text => exact Action.fails_only (makeSymlink_inserts h t base path text)
  | rename t oldBase oldPath newBase newPath =>
    exact Action.fails_only (rename_renames h t oldBase oldPath newBase newPath)
  | writeStatus t handle status mask =>
    exact Action.fails_only (writeStatus_fails t handle status mask)
  | changeDirectory t path => exact Action.fails_only (changeDirectory_fails t path)
  | changeDirectoryTo t handle => exact Action.fails_only (changeDirectoryTo_fails t handle)
  | mount t device dir fs flags args =>
    exact Action.fails_only (mount_fails h t device dir fs flags args)
  | addDevice path ops => exact absurd trivial hop
  | moveDevice ino path => exact absurd trivial hop
  | withdrawDevice ino => exact Action.fails_only (withdrawDevice_fails h ino)
  | hold t start path flags name =>
    exact Action.fails_only (holdPath_fails t start path flags name)
  | release name => exact Action.fails_only (releaseNode_fails name)
  | addContext kernel => exact Action.fails_only (addContext_fails kernel)
  | addTask context => exact Action.fails_only (addTask_fails context)
  | closeAll c => exact Action.fails_only (emptyTable_fails c)
  | retireContext c => exact Action.fails_only (retireContext_fails c)
  | setDepth t depth => exact fails_change trivial

end Operation

/-! ## Full tables -/

/-- No number of a context's table is free. -/
def World.Full (w : World) (c : ContextId) : Prop :=
  ∀ i < w.limits.handles, (w.context c).files.slotAt i ≠ .free

theorem World.Full.reserve_eq_none (hfull : w.Full c) (htabled : w.Tabled) :
    (w.context c).files.reserve = none := by
  cases hreserve : (w.context c).files.reserve with
  | none => rfl
  | some reserved =>
    have hfree := (ReservationTable.slotAt_reserve hreserve).1
    have hlt := (htabled.neat_of_reserve hreserve).lt_of_reserve hreserve
    exact absurd hfree (hfull _ hlt)

theorem allocateHandle_full (h : w.WellFormed) (hfull : w.Full c) :
    (allocateHandle c w).result = .error .tooManyOpenFiles := by
  rw [allocateHandle, Action.bind_ok (Action.look_apply _ _), hfull.reserve_eq_none h.held.table]
  rfl

/-- Nothing that begins with a new number succeeds when the table is full. -/
theorem withReserved_full (h : w.WellFormed) {t : TaskId} {kernel : Bool}
    (hfull : w.Full (w.contextOf t kernel)) (work : Handle → Act Handle) (copy : Handle) :
    ((liftM (look (·.contextOf t kernel)) >>= fun c => withReserved c work : Act Handle) w).result ≠
      .ok copy := by
  intro hok
  rw [Action.liftM_bind_ok rfl] at hok
  obtain ⟨handle, hallocated, -⟩ := Action.result_bind_eq_ok.1 hok
  rw [allocateHandle_full h hfull] at hallocated
  cases hallocated

/-- No operation takes a number from a full table. -/
theorem Operation.act_full (h : w.WellFormed) {op : Operation} (hop : op.drawsOn w = some c)
    (hfull : w.Full c) : ∃ e, (op.act w).result = .error e := by
  rcases hresult : (op.act w).result with e | u
  · exact ⟨e, rfl⟩
  cases op with
  | openPath t base path flags mode =>
    cases hop
    obtain ⟨copy, hopen, -⟩ := Action.result_bind_eq_ok.1 hresult
    exact absurd hopen (withReserved_full h hfull _ copy)
  | openPinned t name flags =>
    cases hop
    obtain ⟨copy, hopen, -⟩ := Action.result_bind_eq_ok.1 hresult
    obtain ⟨_, -, hopen⟩ := Action.result_bind_eq_ok.1 hopen
    obtain ⟨n, -, hopen⟩ := Action.result_bind_eq_ok.1 hopen
    exact absurd hopen (withReserved_full h hfull _ copy)
  | duplicate t handle =>
    cases hop
    obtain ⟨copy, hopen, -⟩ := Action.result_bind_eq_ok.1 hresult
    obtain ⟨f, -, hopen⟩ := Action.result_bind_eq_ok.1 hopen
    exact absurd hopen (withReserved_full h hfull _ copy)
  | reopen t handle =>
    cases hop
    obtain ⟨copy, hopen, -⟩ := Action.result_bind_eq_ok.1 hresult
    obtain ⟨file, -, hopen⟩ := Action.result_bind_eq_ok.1 hopen
    exact absurd hopen (withReserved_full h hfull _ copy)
  | _ => cases hop

/-! ## Reachable worlds -/

/-- The numbers of a table stay below the instance's limit, which is usually 256. -/
theorem World.Reachable.numberable (hw : w.Reachable)
    (hlimit : w.limits.handles ≤ Handle.slotLimit) (c : ContextId) : w.Numberable c := by
  intro slot files hreserve
  have hneat := hw.wellFormed.held.table.neat_of_reserve hreserve
  exact Nat.lt_of_lt_of_le (hneat.lt_of_reserve hreserve) hlimit

/-- **An operation that fails changes nothing**, in any world that operations lead to. Nor does one
that would take a number from a full table: it fails, whatever else its flags ask for. -/
theorem failed_operation_changes_nothing (hw : w.Reachable) (op : Operation)
    (hnumbers : ∀ c, op.drawsOn w = some c → w.Numberable c) (hop : ¬op.Publishes) :
    (∀ e, (op.act w).result = .error e → op.run w = w) ∧
      ∀ c, op.drawsOn w = some c → w.Full c →
        (∃ e, (op.act w).result = .error e) ∧ op.run w = w := by
  have hfails : ∀ e, (op.act w).result = .error e → op.run w = w := by
    intro e he
    rw [op.run_eq_after]
    exact (Operation.act_fails hw.wellFormed op hnumbers hop).1 e he
  refine ⟨hfails, fun c hdraws hfull => ?_⟩
  obtain ⟨e, he⟩ := Operation.act_full hw.wellFormed hdraws hfull
  exact ⟨⟨e, he⟩, hfails e he⟩

/-- A file with its one byte, in a table that has room for one open file. -/
def fullTable : World :=
  Operation.runAll
    [.addTask 0, .openPath 0 none "/f" ⟨0x42⟩ 0o644, .writev 0 (.ofSlot 0 true) [⟨#[7]⟩]]
    (World.fresh { handles := 1 })

theorem failed_operation_changes_nothing_of_fullTable :
    let again := Operation.openPath 0 none "/f" ⟨0x201⟩ 0
    (fullTable.Reachable ∧ (∀ c, again.drawsOn fullTable = some c → fullTable.Numberable c) ∧
      ¬again.Publishes ∧ fullTable.Full 0) ∧
      (∃ e, (again.act fullTable).result = .error e) ∧ again.run fullTable = fullTable := by
  have hreach : fullTable.Reachable := ⟨_, World.steps_runAll _ _⟩
  have hnumbers : ∀ c, fullTable.Numberable c := hreach.numberable (by decide +kernel)
  have hfull : fullTable.Full 0 := by
    unfold World.Full
    decide +kernel
  have hfailed := failed_operation_changes_nothing hreach (.openPath 0 none "/f" ⟨0x201⟩ 0)
    (fun c _ => hnumbers c) id
  exact ⟨⟨hreach, fun c _ => hnumbers c, id, hfull⟩, hfailed.2 0 rfl hfull⟩

end VirtualFs
