/-
What reaches a driver, over whole runs of an instance. Whatever the drivers do,
as long as they keep to what they are there for, a directory that carries a
volume is never a root (`World.Arises.apart`); so each call the library makes
to a driver, from any point of a run, is as it should be.
-/
import VirtualFs.Proofs.ClosedOnce
import VirtualFs.Proofs.DriverCalls
import VirtualFs.Proofs.MountHistory
import VirtualFs.Proofs.SilentDrivers

namespace VirtualFs

open Query (look)
open VirtualFs.Action.Asks (query_bind query_after)

/-! ## Mount points are no roots -/

namespace World

section

variable {w w' : World} {made : Option VolumeKey} {n : NodeId}

/-- Whether a node is the root of its volume is not for a driver to change. -/
theorem Confined.sameIdentity_root (c : w.Confined made w') (h : w.MountTable) (hn : w.Known n)
    (hlive : w'.Live n) : w'.sameIdentity n (w'.volume (w'.node n).volume).root =
      w.sameIdentity n (w.volume (w.node n).volume).root := by
  obtain ⟨-, hstays⟩ := c.old n hn.live.lt hlive
  have hroot := (h.root _ hn.volume).1
  obtain ⟨-, hstaysRoot⟩ :=
    c.old _ hroot.live.lt (c.kept _ (.inl ⟨_, hn.volume, rfl⟩) hroot.live)
  rw [hstays.volume, (c.volume _ hn.volume).root_eq, sameIdentity, sameIdentity, hstays.ino,
    hstays.volumeId, hstaysRoot.ino, hstaysRoot.volumeId]

theorem Apart.confined (h : w.Apart) (c : w.Confined made w') (htable : w.MountTable) :
    w'.Apart := by
  intro n r hr
  have hold := (c.mountRoot_eq hr).1
  rw [c.sameIdentity_root htable (htable.covered n r hold).1 (live_of_mountRoot hr)]
  exact h n r hold

/-- A volume is mounted on no root. -/
theorem Offers.apart {id : Nat} {v : VolumeKey} {p : NodeId} (o : w.Offers w' id v p)
    (h : w.Apart) (htable : w.MountTable) : (w'.attach id v p).Apart := by
  have s : w'.Alike (w'.attach id v p) := alike_attach o.has o.live id
  have hsame : ∀ n, (w'.attach id v p).sameIdentity n
      ((w'.attach id v p).volume ((w'.attach id v p).node n).volume).root =
        w'.sameIdentity n (w'.volume (w'.node n).volume).root := by
    intro n
    rw [s.volume, s.root, sameIdentity, sameIdentity, s.ino, s.ino, s.volumeId, s.volumeId]
  intro n r hr
  rw [hsame]
  by_cases hn : n = p
  · rw [hn, o.confined.sameIdentity_root htable o.mountable.known o.live]
    exact o.mountable.not_root
  · rw [o.node_other hn] at hr
    exact h.confined o.confined htable n r hr

/-- In a memory volume a node is known by its number. -/
theorem WellFormed.apart (h : w.WellFormed) : w.Apart := by
  intro n r hr
  have hn := h.known (live_of_mountRoot hr)
  have hroot := h.known (h.rooted.live _ hn.volume)
  rw [Bool.eq_false_iff]
  intro hsame
  rw [sameIdentity, Bool.and_eq_true, beq_iff_eq, beq_iff_eq] at hsame
  have heq := h.numbered.ino_inj _ _ hn.live hroot.live (h.rooted.volume _ hn.volume).symm hsame.2
  have hbare := h.mounted.bare _ hn.volume
  rw [← heq, hr] at hbare
  cases hbare

end

/-- **What one move keeps.** -/
theorem Apart.move [Backends] {w w' : World} {range : Range} (h : w.Apart) (htended : w.Tended)
    (hlawful : w.Lawful) (hmove : Move range w w') : w'.Apart := by
  have hown : ∀ {u : World}, w.Own u → u.Apart := fun c => h.confined c htended.mounts
  cases hmove with
  | asked request hproper _ => exact hown (hlawful.confined request hproper)
  | mounted hdriver hp _ =>
    have htaken := htended.beside w.drivers (Nat.le_succ w.nextVolumeId)
    rcases htended.mountedOn_cases hlawful hdriver hp _ _ _ with hconfined | ⟨v, w', o, heq⟩
    · exact Apart.confined (w := { w with nextVolumeId := w.nextVolumeId + 1 }) h hconfined
        htaken.mounts
    · rw [heq]
      exact o.apart h htaken.mounts
  | deviceAdded => exact hown (addDevice_own _ _ w)
  | deviceMoved => exact hown (moveDevice_own _ _ w)
  | deviceWithdrawn => exact hown (withdrawDevice_own _ w)
  | swept => exact hown (own_sweep w)
  | held _ => exact h

/-- In no world that may come up is a volume mounted on a root. -/
theorem Arises.apart {behaviours : Backends → Prop} {kinds : DriverKind → Prop} {w : World}
    (hkept : AllLawful behaviours kinds) (hw : w.Arises behaviours kinds) : w.Apart := by
  obtain ⟨limits, hstirs⟩ := hw
  induction hstirs with
  | refl => exact (wellFormed_fresh limits).apart
  | tail hstirs hstir ih =>
    have hbefore : Arises behaviours kinds _ := ⟨limits, hstirs⟩
    cases hstir with
    | @move b _ _ hb hmove =>
      exact @Apart.move b _ _ _ ih (hbefore.tended hkept) (hkept b hb _ hbefore) hmove
    | registered => exact ih

end World

/-! ## Refusals -/

/-- Fails, and drivers were called to look names up alone. -/
def Action.Refused {α : Type} (x : Act α) (w : World) : Prop :=
  (∃ e, (x w).result = .error e) ∧ ∀ event ∈ (x w).trace, event.Seeks w

theorem Action.Refused.after {α β : Type} {w : World} {q : Query α} {f : α → Act β}
    (hq : q.Seeks w) (hf : ∀ a, (q w).result = .ok a → (f a).Refused w) :
    ((liftM q : Act α) >>= f).Refused w := by
  rw [Refused]
  cases hresult : (q w).result with
  | error e =>
    rw [liftM_bind_error hresult]
    exact ⟨⟨e, rfl⟩, hq⟩
  | ok a =>
    rw [liftM_bind_ok hresult]
    obtain ⟨hfailed, htrace⟩ := hf a hresult
    refine ⟨hfailed, fun event hevent => ?_⟩
    rcases List.mem_append.1 hevent with hevent | hevent
    · exact hq event hevent
    · exact htrace event hevent

theorem Action.Refused.world_bind {β : Type} {w : World} {f : World → Act β}
    (hf : (f w).Refused w) : (Action.world >>= f : Act β).Refused w := hf

/-! ## Operations -/

/-- What a call should be does not depend on the tables. -/
theorem Event.Proper.of_contexts {w : World} {contexts : Array Context} {event : Event}
    (h : event.Proper { w with contexts }) : event.Proper w := by
  cases event with
  | asked kind call =>
    cases call with
    | mount | sync => trivial
    | locate => exact h
    | rename =>
      obtain ⟨hgrants, hrest⟩ := h
      exact ⟨⟨hgrants.belongs, hgrants.writable⟩, hrest⟩
    | _ =>
      obtain ⟨hgrants, hname⟩ := h
      exact ⟨⟨hgrants.belongs, hgrants.writable⟩, hname⟩
  | _ => trivial

theorem volumeForWriting_grants {w : World} {n : NodeId} {v : VolumeKey}
    (h : (volumeForWriting n w).result = .ok v) : w.Grants v n := by
  obtain ⟨u, hu, h⟩ := Query.result_bind_eq_ok.1 h
  rw [Query.look_bind] at h
  obtain ⟨_, hwritable, h⟩ := Query.result_bind_eq_ok.1 h
  cases h
  exact ⟨World.volumeOf_eq_ok.1 hu, by simpa using Query.result_demand_eq_ok.1 hwritable⟩

section

variable [b : Backends] {w : World}

/-- The last name of a path has no slash, wherever the path leads. -/
theorem resolveParent_whole (t : TaskId) (start : Option NodeId) (path : String) :
    (resolveParent t start path).Yields w fun found => '/' ∉ found.2.toList := by
  intro found hfound
  rw [resolveParent, Query.look_bind, parentOfPath] at hfound
  obtain ⟨_, -, hfound⟩ := Query.result_bind_eq_ok.1 hfound
  obtain ⟨_, -, hfound⟩ := Query.result_bind_eq_ok.1 hfound
  cases hfound
  exact Route.slash_notMem_name path

theorem resolveTarget_whole (t : TaskId) (base : Option Handle) (path : String) :
    (resolveTarget t base path).Yields w fun found => '/' ∉ found.2.toList :=
  .skip fun start => resolveParent_whole t start path

theorem placeOf_proper (t : TaskId) (base : Option Handle) (path : String) :
    (placeOf t base path).Yields w fun place =>
      w.Grants place.volume place.parent ∧ IsPlainName place.name := by
  intro place hplace
  obtain ⟨hfound, hchecked, hvolume, -⟩ := placeOf_eq_ok hplace
  exact ⟨volumeForWriting_grants hvolume,
    IsEntryName.plain ⟨hchecked, resolveTarget_whole t base path _ hfound⟩⟩

variable (hb : b.Silent)

include hb

/-- Reserving a number changes nothing that matters, and what frees it again calls no driver. -/
theorem withReserved_asks (c : ContextId) {work : Handle → Act Handle}
    (hwork : ∀ h contexts, (work h).Asks { w with contexts }) : (withReserved c work).Asks w := by
  intro event hevent
  rw [withReserved, allocateHandle] at hevent
  cases hreserve : (w.context c).files.reserve with
  | none => simp [hreserve, bind] at hevent
  | some reserved =>
    simp only [bind, Action.look, hreserve, Action.change, pure, List.nil_append] at hevent
    exact ((hwork _ _).orUndo (giveBack_silent hb c _) event hevent).of_contexts

theorem createNode_asks (parent : NodeId) {name : String} (hname : '/' ∉ name.toList)
    (flags : OpenFlags) (mode : UInt32) : (createNode parent name flags mode).Asks w := by
  refine query_after (.ofResult _) fun _ hchecked =>
    query_after (volumeForWriting_silent parent) fun v hv => query_after (.look _) fun d _ => ?_
  rw [Query.result_ofResult] at hchecked
  have hcall : (DriverCall.createFile v parent name).Proper w :=
    ⟨volumeForWriting_grants hv, IsEntryName.plain ⟨hchecked, hname⟩⟩
  exact .call hcall
    (.bind ((hb.driver d).createFile v parent name flags mode) fun _ => .bind (.note rfl)
      fun _ => .pure _)

variable (hw : w.Apart)

include hw

theorem openName_asks (t : TaskId) (parent : NodeId) {name : String} (hname : '/' ∉ name.toList)
    (flags : OpenFlags) (mode : UInt32) : (openName t parent name flags mode).Asks w := by
  refine query_bind (Query.Seeks.attempt (resolveIn_seeks hb hw t parent name _)) fun found _ => ?_
  cases found with
  | ok n => exact query_after (.demand _ _) fun _ _ => .of_silent (openFound_silent hb n flags)
  | error e =>
    dsimp only
    split
    · exact createNode_asks hb parent hname flags mode
    · exact .of_silent (.throw _)

theorem openPath_asks (t : TaskId) (base : Option Handle) (path : String) (flags : OpenFlags)
    (mode : UInt32) : (openPath t base path flags mode).Asks w := by
  refine query_after (.look _) fun c _ => withReserved_asks hb c fun h contexts => ?_
  have hapart : ({ w with contexts } : World).Apart := hw
  refine query_after (startNode_silent t base) fun start _ =>
    query_bind (resolveParent_seeks hb hapart t start path) fun found hfound => ?_
  have hwhole := resolveParent_whole t start path found hfound
  exact (openName_asks hb hapart t found.1 hwhole flags mode).bind_silent fun file =>
    .bind (commitFile_silent hb c h file) fun _ => .bind (.note rfl) fun _ => .pure _

/-- A driver is asked to change what the directory of a place lists, under the name of the place. -/
theorem placeOf_call_asks (t : TaskId) (base : Option Handle) (path : String)
    {call : Place → DriverCall} {work : Place → Act Unit}
    (hcall : ∀ place, w.Grants place.volume place.parent ∧ IsPlainName place.name →
      (call place).Proper w)
    (hwork : ∀ place, (work place).Silent) :
    (do let place ← placeOf t base path
        Action.note (.asked place.driver (call place))
        work place : Act Unit).Asks w :=
  query_bind (placeOf_seeks hb hw t base path) fun place hplace =>
    .call (hcall place (placeOf_proper t base path place hplace)) (hwork place)

theorem makeDirectory_asks (t : TaskId) (base : Option Handle) (path : String) (mode : UInt32) :
    (makeDirectory t base path mode).Asks w :=
  placeOf_call_asks hb hw t base _ (fun _ hplace => hplace) fun place =>
    (hb.driver place.driver).createDirectory place.volume place.parent place.name mode

theorem removeDirectory_asks (t : TaskId) (base : Option Handle) (path : String) :
    (removeDirectory t base path).Asks w :=
  placeOf_call_asks hb hw t base _ (fun _ hplace => hplace) fun place =>
    (hb.driver place.driver).removeDirectory place.volume place.parent place.name

theorem unlink_asks (t : TaskId) (base : Option Handle) (path : String) :
    (unlink t base path).Asks w :=
  placeOf_call_asks hb hw t base _ (fun _ hplace => hplace) fun place =>
    (hb.driver place.driver).unlink place.volume place.parent place.name

theorem makeSymlink_asks (t : TaskId) (base : Option Handle) (path target : String) :
    (makeSymlink t base path target).Asks w :=
  query_after (.demand _ _) fun _ _ => query_after (.look _) fun _ _ =>
    query_after (.demand _ _) fun _ _ =>
      placeOf_call_asks hb hw t base _ (fun _ hplace => hplace) fun place =>
        (hb.driver place.driver).createSymlink place.volume place.parent place.name target

theorem rename_asks (hsound : w.Sound) (t : TaskId) (oldBase : Option Handle) (oldPath : String)
    (newBase : Option Handle) (newPath : String) :
    (rename t oldBase oldPath newBase newPath).Asks w := by
  refine query_bind (resolveTarget_seeks hb hw t oldBase _) fun old hold =>
    query_bind (resolveTarget_seeks hb hw t newBase _) fun new hnew =>
      query_after (.ofResult _) fun _ hcheckedOld => query_after (.ofResult _)
        fun _ hcheckedNew => ?_
  refine .world_bind (query_after (.demand _ _) fun _ hdemand =>
    query_after (volumeForWriting_silent old.1) fun v hv => ?_)
  rw [Query.result_ofResult] at hcheckedOld hcheckedNew
  have hgrants := volumeForWriting_grants hv
  have hid : (w.node old.1).volumeId = (w.volume v).id := by
    rw [(World.volumeOf_eq_some.1 hgrants.belongs).2]
    exact (hsound.resolveTarget_yields t oldBase _ old hold).1.volumeId.symm
  have hcall : (DriverCall.rename v old.1 old.2 new.1 new.2).Proper w :=
    ⟨hgrants, hid, (Query.result_demand_eq_ok.1 hdemand).symm.trans hid,
      IsEntryName.plain ⟨hcheckedOld, resolveTarget_whole t oldBase _ old hold⟩,
      IsEntryName.plain ⟨hcheckedNew, resolveTarget_whole t newBase _ new hnew⟩⟩
  exact .call hcall ((hb.driver _).rename v old.1 old.2 new.1 new.2 _)

/-- An entry is not moved from one volume to another, and no driver is asked to. -/
theorem rename_refused {t : TaskId} {oldBase newBase : Option Handle} {oldPath newPath : String}
    {old new : NodeId × String}
    (hold : (resolveTarget t oldBase (stripSlashes oldPath).1 w).result = .ok old)
    (hnew : (resolveTarget t newBase (stripSlashes newPath).1 w).result = .ok new)
    (hne : (w.node old.1).volumeId ≠ (w.node new.1).volumeId) :
    (rename t oldBase oldPath newBase newPath).Refused w := by
  refine .after (resolveTarget_seeks hb hw t oldBase _) fun old' hold' =>
    .after (resolveTarget_seeks hb hw t newBase _) fun new' hnew' =>
      .after (.of_silent (.ofResult _)) fun _ _ => .after (.of_silent (.ofResult _)) fun _ _ => ?_
  obtain rfl : old' = old := Except.ok.inj (hold'.symm.trans hold)
  obtain rfl : new' = new := Except.ok.inj (hnew'.symm.trans hnew)
  exact .world_bind (.after (.of_silent (.demand _ _)) fun _ hdemand =>
    absurd (Query.result_demand_eq_ok.1 hdemand) hne)

theorem changeDirectory_asks (t : TaskId) (path : String) : (changeDirectory t path).Asks w :=
  query_bind (resolve_seeks hb hw t none path .full) fun n _ =>
    .of_silent (enterDirectory_silent t n)

theorem holdPath_asks (t : TaskId) (start : Option String) (path : String) (flags : LookupMode)
    (name : String) : (holdPath t start path flags name).Asks w :=
  query_after (.look _) fun start _ => query_bind (resolve_seeks hb hw t start path flags)
    fun _ _ => .of_silent (.change _)

theorem mount_asks (t : TaskId) (device dir fs : String) (flags : VolumeFlags) (args : String) :
    (mount t device dir fs flags args).Asks w := by
  refine query_bind (resolveMountPoint_seeks hb hw t dir) fun point _ =>
    query_after (.look _) fun _ _ => query_after (.expect _ _) fun driver _ => ?_
  have hmount : ∀ id, (driver.mount id device flags args).Emits (Event.Proper w) := fun id =>
    .bind (.note trivial) fun _ => .of_silent ((hb.driver driver).mount id device flags args)
  have htake : takeVolumeId.Silent :=
    .bind (.look _) fun _ => .bind (.change _) fun _ => .pure _
  have hrest : (do
      let id ← takeVolumeId
      let volume ← driver.mount id device flags args
      Query.demand (← Query.look fun w => (w.node point).mountRoot).isNone .busy
      Action.change (·.attach id volume point)
      Action.log (.mounted fs device id dir)
      pure volume : Act VolumeKey).Emits (Event.Proper w) :=
    .bind (.of_silent htake) fun id => .bind (hmount id) fun _ => .bind (.query (.look _)) fun _ =>
      .bind (.query (.demand _ _)) fun _ => .bind (.change _) fun _ =>
        .bind (.note trivial) fun _ => .pure _
  exact hrest w

/-- **What an operation asks of drivers** is as it should be. -/
theorem Operation.asks (hsound : w.Sound) (op : Operation) : op.act.Asks w := by
  cases op with
  | openPath t base path flags mode => exact (openPath_asks hb hw t base path flags mode).only
  | makeDirectory t base path mode => exact (makeDirectory_asks hb hw t base path mode).only
  | removeDirectory t base path => exact (removeDirectory_asks hb hw t base path).only
  | unlink t base path => exact (unlink_asks hb hw t base path).only
  | makeSymlink t base path target => exact (makeSymlink_asks hb hw t base path target).only
  | rename t oldBase oldPath newBase newPath =>
    exact (rename_asks hb hw hsound t oldBase oldPath newBase newPath).only
  | changeDirectory t path => exact (changeDirectory_asks hb hw t path).only
  | mount t device dir fs flags args => exact (mount_asks hb hw t device dir fs flags args).only
  | hold t start path flags name => exact (holdPath_asks hb hw t start path flags name).only
  | openPinned t name flags =>
    exact Action.Asks.only (.of_silent (.bind (.query (.look _)) fun _ =>
      .bind (.query (.expect _ _)) fun n => openHeld_silent hb t n flags))
  | close t h => exact Action.Asks.only (.of_silent (close_silent hb t h))
  | duplicate t h => exact Action.Asks.only (.of_silent (duplicate_silent hb t h))
  | duplicateTo t h target => exact Action.Asks.only (.of_silent (duplicateTo_silent hb t h target))
  | reopen t h => exact Action.Asks.only (.of_silent (reopen_silent hb t h))
  | setFlags t h flags => exact Action.Asks.only (.of_silent (setFlags_silent t h flags))
  | readv t h buffers => exact .of_silent (readv_silent hb t h buffers).filling
  | preadv t h position buffers =>
    exact .of_silent (preadv_silent hb t h position buffers).filling
  | writev t h segments => exact Action.Asks.only (.of_silent (writev_silent hb t h segments))
  | pwritev t h position segments =>
    exact Action.Asks.only (.of_silent (pwritev_silent hb t h position segments))
  | seek t h offset origin => exact Action.Asks.only (.of_silent (seek_silent hb t h offset origin))
  | control t h request input buffer =>
    exact .of_silent (control_silent hb t h request input buffer).filling
  | nextEntry t h => exact Action.Asks.only (.of_silent (nextEntry_silent hb t h))
  | rewind t h => exact Action.Asks.only (.of_silent (rewind_silent t h))
  | writeStatus t h status mask =>
    exact Action.Asks.only (.of_silent (writeStatus_silent hb t h status mask))
  | changeDirectoryTo t h =>
    exact Action.Asks.only (.of_silent (.bind (.query (openFileOf_silent t h)) fun file =>
      enterDirectory_silent t file.node))
  | addDevice path ops => exact Action.Asks.only (.of_silent (addDevice_silent path ops))
  | moveDevice ino path => exact Action.Asks.only (.of_silent (moveDevice_silent ino path))
  | withdrawDevice ino => exact Action.Asks.only (.of_silent (withdrawDevice_silent ino))
  | release name => exact Action.Asks.only (.of_silent (releaseNode_silent name))
  | addContext kernel => exact Action.Asks.only (.of_silent (addContext_silent kernel))
  | addTask context => exact Action.Asks.only (.of_silent (addTask_silent context))
  | closeAll c => exact Action.Asks.only (.of_silent (emptyTable_silent hb c))
  | retireContext c => exact Action.Asks.only (.of_silent (retireContext_silent hb c))
  | setDepth t depth => exact .of_silent (.change _)

/-! ## Calls -/

omit hw in
/-- Whatever is asked to flush a volume is asked as it should be. -/
theorem sync_emits : sync.Emits (Event.Proper w) := by
  have hvolumes : ∀ volumes earlier, (syncVolumes earlier volumes).Emits (Event.Proper w) := by
    intro volumes
    induction volumes with
    | nil => exact fun _ => .ofResult _
    | cons v rest ih =>
      have hasked : ∀ kind : DriverKind, (kind.sync v).Emits (Event.Proper w) := fun kind =>
        .bind (.note trivial) fun _ u event hevent =>
          Event.proper_of_not_asked ((hb.driver kind).sync v u event hevent)
      refine fun earlier => .bind (.look _) fun found => .bind (.attempt (hasked found.2))
        fun synced => ?_
      cases synced with
      | ok => exact ih earlier
      | error cause => exact .bind (.note trivial) fun _ => ih _
  exact .bind (.look _) fun volumes => hvolumes _ _

theorem Call.asks (hsound : w.Sound) (call : Call) : call.act.Asks w := by
  cases call with
  | operation op => exact op.asks hb hw hsound
  | status t base path =>
    exact Action.Asks.only (.query (.after (startNode_silent t base) fun start _ =>
      .bind (resolve_seeks hb hw t start path .full) fun n _ => .of_silent (statusOf_silent hb n)))
  | linkStatus t base path =>
    exact Action.Asks.only (.query (.after (startNode_silent t base) fun start _ =>
      .bind (resolve_seeks hb hw t start path .crossOnly) fun n _ =>
        .of_silent (statusOf_silent hb n)))
  | handleStatus t h =>
    exact Action.Asks.only (.of_silent (.query (.bind (openFileOf_silent t h) fun file =>
      statusOf_silent hb file.node)))
  | readLink t base path =>
    exact Action.Asks.only (.query (.after (startNode_silent t base) fun start _ =>
      .bind (resolve_seeks hb hw t start path .crossOnly) fun n _ => .of_silent
        (.bind (.look _) fun _ => .bind (.demand _ _) fun _ => .bind (opsOf_silent n) fun o =>
          .bind (volumeOf_silent n) fun v => .bind (statusOf_silent hb n) fun _ =>
            .bind (.look _) fun _ => .bind (.demand _ _) fun _ => .bind (.look _) fun depth =>
              OpsKind.readLink_silent hb o v n depth)))
  | access t base path mode =>
    exact .query (.after (startNode_silent t base) fun start _ =>
      .bind (resolve_seeks hb hw t start path .full) fun n _ => .of_silent
        (.ite (.pure _) (.bind (volumeOf_silent n) fun v => .bind (.look _) fun _ =>
          .bind (.demand _ _) fun _ => .bind (opsOf_silent n) fun o =>
            (hb.ops o).checkAccess v n mode)))
  | flagsOf t h =>
    exact Action.Asks.only (.of_silent (.query (.bind (openFileOf_silent t h) fun _ => .pure _)))
  | flush t h =>
    exact .of_silent (.query (.bind (operableOf_silent t h) fun found =>
      .bind (.note rfl) fun _ => (hb.ops found.2).sync found.1))
  | sync => exact sync_emits hb w
  | workingDirectory t capacity =>
    exact Action.Asks.only (.query (.after (.look _) fun dir _ =>
      absolutePath_seeks hb hw t dir capacity))
  | directoryPath t h capacity =>
    exact Action.Asks.only (.query (.after (openFileOf_silent t h) fun file _ =>
      .after (.look _) fun _ _ => .after (.demand _ _) fun _ _ =>
        absolutePath_seeks hb hw t file.node capacity))

end

/-! ## Lookups -/

/-- A lookup that starts at whatever node the caller has at hand. -/
inductive Lookup where
  | parentOf (t : TaskId) (start : Option NodeId) (path : String)
  | nameIn (t : TaskId) (parent : NodeId) (name : String) (flags : LookupMode)
  | nodeAt (t : TaskId) (start : Option NodeId) (path : String) (flags : LookupMode)
  | pathOf (t : TaskId) (dir : NodeId) (capacity : Nat)

/-- What a lookup does. -/
def Lookup.act [Backends] : Lookup → Act Unit
  | parentOf t start path => (liftM (resolveParent t start path) : Act (NodeId × String)).only
  | nameIn t parent name flags => (liftM (resolveIn t parent name flags) : Act NodeId).only
  | nodeAt t start path flags => (liftM (resolve t start path flags) : Act NodeId).only
  | pathOf t dir capacity => (liftM (absolutePath t dir capacity) : Act String).only

theorem Lookup.asks [b : Backends] {w : World} (hb : b.Silent) (hw : w.Apart) (lookup : Lookup) :
    lookup.act.Asks w := by
  cases lookup with
  | parentOf t start path =>
    exact Action.Asks.only (.query (resolveParent_seeks hb hw t start path))
  | nameIn t parent name flags =>
    exact Action.Asks.only (.query (resolveIn_seeks hb hw t parent name flags))
  | nodeAt t start path flags =>
    exact Action.Asks.only (.query (resolve_seeks hb hw t start path flags))
  | pathOf t dir capacity =>
    exact Action.Asks.only (.query (absolutePath_seeks hb hw t dir capacity))

/-! ## Runs -/

/-- The calls to drivers on a trace. -/
def askedCalls (trace : List Event) : List DriverCall :=
  trace.filterMap fun
    | .asked _ call => some call
    | _ => none

theorem mem_askedCalls {trace : List Event} {call : DriverCall} (h : call ∈ askedCalls trace) :
    ∃ kind, Event.asked kind call ∈ trace := by
  obtain ⟨event, hevent, heq⟩ := List.mem_filterMap.1 h
  cases event with
  | asked kind asked =>
    cases heq
    exact ⟨kind, hevent⟩
  | _ => cases heq

/-- A call that may change what a directory lists. -/
def DriverCall.changes : DriverCall → Bool
  | createFile .. | createDirectory .. | createSymlink .. | rename .. | unlink ..
  | removeDirectory .. => true
  | mount _ | locate .. | sync _ => false

/-- **What reaches a driver, over every run of an instance** whose drivers keep to what they are
there for. From any point of the run, each call to a driver that a call to the library makes, or a
lookup, is as it should be, in the world that call starts in: no node and no volume changes before a
driver is asked to change it. And an entry is not moved from one volume to another, nor is any
driver asked then to change anything. That drivers call no other only says whose calls are on the
trace. -/
theorem run_asks {behaviours : Backends → Prop} {kinds : DriverKind → Prop}
    (hkept : World.AllLawful behaviours kinds) (hsilent : ∀ b, behaviours b → b.Silent)
    {limits : Limits} {run : Nat → World} (hfirst : run 0 = World.fresh limits) {length : Nat}
    (hrun : ∀ i < length, World.Serve behaviours kinds (run i) (run (i + 1))) :
    ∀ i ≤ length, ∀ b, behaviours b →
      (∀ call : Call, ∀ asked ∈ askedCalls (@Call.act b call (run i)).trace,
        asked.Proper (run i)) ∧
      (∀ lookup : Lookup, ∀ asked ∈ askedCalls (@Lookup.act b lookup (run i)).trace,
        asked.Proper (run i)) ∧
      ∀ t oldBase oldPath newBase newPath old new,
        (@resolveTarget b t oldBase (stripSlashes oldPath).1 (run i)).result = .ok old →
        (@resolveTarget b t newBase (stripSlashes newPath).1 (run i)).result = .ok new →
        ((run i).node old.1).volumeId ≠ ((run i).node new.1).volumeId →
        (∃ e, (@rename b t oldBase oldPath newBase newPath (run i)).result = .error e) ∧
          ∀ asked ∈ askedCalls (@rename b t oldBase oldPath newBase newPath (run i)).trace,
            asked.changes = false := by
  intro i hi b hb
  have hw := run_arises hkept hfirst hrun hi
  have hsound := @World.Steady.sound b .all _ (hw.steady hkept hb)
  have hapart := hw.apart hkept
  refine ⟨fun call asked hasked => ?_, fun lookup asked hasked => ?_,
    fun t oldBase oldPath newBase newPath old new hold hnew hne => ?_⟩
  · obtain ⟨_, hasked⟩ := mem_askedCalls hasked
    exact @Call.asks b _ (hsilent b hb) hapart hsound call _ hasked
  · obtain ⟨_, hasked⟩ := mem_askedCalls hasked
    exact @Lookup.asks b _ (hsilent b hb) hapart lookup _ hasked
  · obtain ⟨hfailed, htrace⟩ := @rename_refused b _ (hsilent b hb) hapart t oldBase newBase oldPath
      newPath old new hold hnew hne
    refine ⟨hfailed, fun asked hasked => ?_⟩
    obtain ⟨_, hasked⟩ := mem_askedCalls hasked
    have hseeks := htrace _ hasked
    cases asked with
    | locate => rfl
    | _ => exact hseeks.elim

/-- Up from a volume in a volume, the volume below is asked about the directory that the upper one
is mounted on; and nothing is moved from the one to the other. -/
theorem run_asks_nested :
    (World.AllLawful (· = standard) (· = .ram) ∧ (∀ b, b = standard → b.Silent) ∧
      nestedRun 0 = World.fresh {} ∧
      ∀ i < 5, World.Serve (· = standard) (· = .ram) (nestedRun i) (nestedRun (i + 1))) ∧
    askedCalls (Call.act (.status 0 none "/a/b/..") (nestedRun 5)).trace =
      [.locate 0 0 "a", .locate 1 3 "b", .locate 1 4 ".."] ∧
    (DriverCall.locate 1 4 "..").Proper (nestedRun 5) ∧
    ∃ e, (rename 0 none "/a/b" none "/c" (nestedRun 5)).result = .error e := by
  have hsilent : ∀ b, b = standard → b.Silent := fun b hb => hb ▸ standard_silent
  obtain ⟨hproper, -, hrefused⟩ := run_asks World.allLawful_ram hsilent (rfl : nestedRun 0 = _)
    nestedRun_serves 5 (Nat.le_refl _) standard rfl
  have hasked : askedCalls (Call.act (.status 0 none "/a/b/..") (nestedRun 5)).trace =
      [.locate 0 0 "a", .locate 1 3 "b", .locate 1 4 ".."] := by decide +kernel
  have hmem : DriverCall.locate 1 4 ".." ∈
      askedCalls (Call.act (.status 0 none "/a/b/..") (nestedRun 5)).trace := by
    rw [hasked]
    exact .tail _ (.tail _ (.head _))
  have hold : (resolveTarget 0 none (stripSlashes "/a/b").1 (nestedRun 5)).result =
      .ok (3, "b") := by decide +kernel
  have hnew : (resolveTarget 0 none (stripSlashes "/c").1 (nestedRun 5)).result =
      .ok (0, "c") := by decide +kernel
  have hne : ((nestedRun 5).node 3).volumeId ≠ ((nestedRun 5).node 0).volumeId := by
    decide +kernel
  exact ⟨⟨World.allLawful_ram, hsilent, rfl, nestedRun_serves⟩, hasked, hproper _ _ hmem,
    (hrefused 0 none "/a/b" none "/c" (3, "b") (0, "c") hold hnew hne).1⟩

end VirtualFs
