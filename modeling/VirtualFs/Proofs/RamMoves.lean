/-
Memory volumes alone. The drivers of a well-formed world keep to what they are
there for, so operations are moves there; and each move is a sequence of
edits, so the world is well-formed again after it.
-/
import VirtualFs.Proofs.Confinement
import VirtualFs.Proofs.Operating
import VirtualFs.Proofs.RequestEdits

namespace VirtualFs

open Relation (ReflTransGen)
open World (Move Turn)
open VirtualFs.Action (fails_note_bind leads_bind leads_pure leads_ask_bind leads_note_bind)

/-! ## Devices -/

section

variable {w : World} (h : w.WellFormed)

include h

theorem addDevice_grafts (path : String) (ops : OpsKind) :
    w.GraftsOn w.rootVolume ((addDevice path ops).after w) :=
  .of_steps (leads_ask_bind (leads_bind (RamFs.publishDevice_grafts h path ops
    h.rooted.rootVolume) fun _ _ _ _ => leads_note_bind (leads_pure trivial)) :
      (addDevice path ops).LeadsOnly (World.GraftsOn w.rootVolume) w).1

theorem moveDevice_grafts (ino : Nat) (path : String) :
    w.GraftsOn w.rootVolume ((moveDevice ino path).after w) :=
  .of_steps (leads_ask_bind (RamFs.moveDevice_grafts h ino path h.rooted.rootVolume) :
    (moveDevice ino path).LeadsOnly (World.GraftsOn w.rootVolume) w).1

theorem withdrawDevice_grafts (ino : Nat) :
    w.GraftsOn w.rootVolume ((withdrawDevice ino).after w) :=
  .of_steps (leads_ask_bind (RamFs.withdrawDevice_grafts h ino h.rooted.rootVolume) :
    (withdrawDevice ino).LeadsOnly (World.GraftsOn w.rootVolume) w).1

end

/-! ## Requests -/

namespace World

variable {range : Range} {w : World} (h : w.WellFormed) {n : NodeId}

/-- A directory stays bare while a volume is made. -/
theorem Mountable.bare_withVolume {p : NodeId} (hp : w.Mountable p) (next id : Nat)
    (device : String) (flags : VolumeFlags) :
    ((({ w with nextVolumeId := next } : World).withVolume id device flags).node p).mountRoot =
      none := by
  rw [(grown_withVolume { w with nextVolumeId := next } id device flags).node_of_live hp.known.live]
  exact hp.bare

namespace WellFormed

include h

theorem known (hn : w.Live n) : w.Known n := ⟨hn, h.numbered.volume n hn, h.numbered.volumeId n hn⟩

theorem gripped : w.Gripped where
  file f file hget := h.known (h.held.file f file hget)
  cwd c context hget := h.known (h.held.cwd c context hget)
  pin name n hget := h.known (h.held.pin name n hget)
  table := h.held.table

theorem driver_eq_ram {driver : DriverKind} {v : VolumeKey} (ha : w.Asked driver v n) :
    driver = .ram :=
  ha.driver_eq.trans (h.ram n ha.known.live).driver

/-- **What a request leaves**, as the library makes it. -/
theorem served_after {request : DriverRequest} (hproper : request.Proper w) :
    w.Served request.target (request.after w) := by
  cases request with
  | createFile driver v d name flags mode =>
    obtain ⟨hasked, hname⟩ := hproper
    obtain rfl := h.driver_eq_ram hasked
    exact (RamFs.createFile_inserts h hasked.known.live hasked.volume_eq flags mode).after
      (.touched .refl) fun _ _ hinserted => .inserted hname hinserted
  | createDirectory driver v d name mode =>
    obtain ⟨hasked, hname⟩ := hproper
    obtain rfl := h.driver_eq_ram hasked
    exact (RamFs.createDirectory_inserts h hasked.known.live hasked.volume_eq mode).after
      (.touched .refl) fun _ _ ⟨_, hinserted⟩ => .inserted hname hinserted
  | createSymlink driver v d name text =>
    obtain ⟨hasked, hname⟩ := hproper
    obtain rfl := h.driver_eq_ram hasked
    exact (RamFs.createSymlink_inserts h hasked.known.live hasked.volume_eq text).after
      (.touched .refl) fun _ _ ⟨_, hinserted⟩ => .inserted hname hinserted
  | rename driver v d name d' name' mustBeDirectory =>
    obtain ⟨hasked, hknown, hid, hname, hname'⟩ := hproper
    obtain rfl := h.driver_eq_ram hasked
    have hvolume := (h.volume_eq_iff hasked.known.live hknown.live).2 hid
    exact (fails_note_bind (RamFs.rename_renames h v hasked.known.live hknown.live hvolume hname
      hname' mustBeDirectory)).after (.touched .refl) fun _ _ hrenamed => .renamed hrenamed
  | unlink driver v d name =>
    obtain rfl := h.driver_eq_ram hproper.1
    exact (fails_note_bind (RamFs.unlink_removes h v hproper.1.known.live name)).after
      (.touched .refl) fun _ _ hremoved => .removed hremoved
  | removeDirectory driver v d name =>
    obtain rfl := h.driver_eq_ram hproper.1
    exact (fails_note_bind (RamFs.removeDirectory_removes h v hproper.1.known.live name)).after
      (.touched .refl) fun _ _ hremoved => .removed hremoved
  | openFile ops v n flags =>
    exact .touched (ops.openFile_touches h v hproper.1.known.live flags).1
  | write ops file position data =>
    exact .touched (ops.write_touches h hproper.known.live position data).1
  | writeStatus ops v n status mask =>
    exact .touched (ops.writeStatus_touches h v hproper.1.known.live status mask).1

/-! ## Mounts -/

theorem not_root_of_mountable {p : NodeId} (hp : w.Mountable p) : w.parent p ≠ none := by
  intro hnone
  have hroot := hp.not_root
  rw [← h.rooted.orphan p hp.known.live hnone,
    (h.sameIdentity_iff hp.known.live hp.known.live).2 rfl] at hroot
  cases hroot

/-- The memory filesystem does not refuse to mount, and mounts nothing of its own. -/
theorem mountedOn_eq {name : String} {driver : DriverKind} {p : NodeId}
    (hdriver : w.drivers.get? name = some driver) (hp : w.Mountable p) (device : String)
    (flags : VolumeFlags) (args : String) :
    w.mountedOn driver device flags args p =
      (({ w with nextVolumeId := w.nextVolumeId + 1 } : World).withVolume w.nextVolumeId device
        flags).attach w.nextVolumeId w.volumes.nextKey p := by
  obtain rfl := h.held.driver name driver hdriver
  exact if_pos (Option.isNone_iff_eq_none.2 (hp.bare_withVolume _ _ device flags))

theorem mountedOn_edits {name : String} {driver : DriverKind} {p : NodeId}
    (hdriver : w.drivers.get? name = some driver) (hp : w.Mountable p) (device : String)
    (flags : VolumeFlags) (args : String) : w.Edits (w.mountedOn driver device flags args p) := by
  rw [h.mountedOn_eq hdriver hp]
  have htaken := h.idTaken
  have s := World.grown_withVolume { w with nextVolumeId := w.nextVolumeId + 1 } w.nextVolumeId
    device flags
  have hsame := s.node_of_live hp.known.live
  have hnew := (World.volume_withVolume { w with nextVolumeId := w.nextVolumeId + 1 } w.nextVolumeId
    device flags w.volumes.nextKey).trans (if_pos rfl)
  have hid : (w.node p).volumeId < w.nextVolumeId := by
    rw [← h.numbered.volumeId p hp.known.live]
    exact h.numbered.id_lt _ (h.numbered.volume p hp.known.live)
  refine .head .idTaken (.head (.volumeMade (Nat.lt_succ_self _) h.numbered.id_lt)
    (.single (.attached ((World.has_withVolume _).2 (.inl rfl)) (fun heq => ?_) ?_ ?_ ?_ ?_ ?_)))
  · exact Nat.ne_of_lt (Arena.lt_nextKey_of_has h.rooted.rootVolume) heq.symm
  · rw [hnew]
  · rw [World.isDirectory, hsame]
    exact hp.isDirectory
  · exact hp.bare_withVolume _ _ device flags
  · rw [World.parent, hsame]
    exact h.not_root_of_mountable hp
  · rw [hsame, hnew]
    exact hid

theorem tidy_mountedOn {name : String} {driver : DriverKind} {p : NodeId} (htidy : w.Tidy)
    (hdriver : w.drivers.get? name = some driver) (hp : w.Mountable p) (device : String)
    (flags : VolumeFlags) (args : String) : (w.mountedOn driver device flags args p).Tidy := by
  rw [h.mountedOn_eq hdriver hp]
  have htaken : ({ w with nextVolumeId := w.nextVolumeId + 1 } : World).Tidy :=
    htidy.keep (fun _ hn => hn) (.of_volumes rfl) (fun _ _ _ he => he) (fun _ _ hr => hr)
      rfl rfl rfl
  have s := World.grown_withVolume { w with nextVolumeId := w.nextVolumeId + 1 } w.nextVolumeId
    device flags
  refine World.tidy_attach (World.tidy_withVolume htaken _ _ _)
    ((World.has_withVolume _).2 (.inl rfl)) ((s.live p).2 (.inr hp.known.live)) ?_ _
  exact hp.bare_withVolume _ _ device flags

/-! ## What the memory filesystem keeps to -/

/-- **The memory filesystem keeps to what it is there for.** -/
theorem lawful : w.Lawful where
  locate dir name n hdir _ hn := by
    obtain ⟨hlive, hvolume⟩ := h.locate_yields hdir.live _ name n hn
    exact ⟨hlive, hvolume, (h.volume_eq_iff hlive hdir.live).1 hvolume⟩
  listing ops v n flags file hused hfile := by
    rw [OpsKind.openDirectory_yields ops v n flags file hfile]
    exact hused.known
  confined _ hproper := (h.served_after hproper).own
  created driver v parent name flags mode file hproper hfile := by
    obtain ⟨hasked, hname⟩ := hproper
    obtain rfl := h.driver_eq_ram hasked
    have hinserted :=
      (RamFs.createFile_inserts h hasked.known.live hasked.volume_eq flags mode).2 file hfile
    exact (World.Edits.wellFormed (hinserted.edits h hname) h).known (hinserted.live h)
  opened ops v n flags file hproper hfile := by
    obtain ⟨hsteps, hok⟩ := ops.openFile_touches h v hproper.1.known.live flags
    obtain ⟨rfl, hlive⟩ := hok file hfile
    exact (World.wellFormed_of_touches h hsteps).known hlive
  mount name driver device flags args p hdriver hp := by
    obtain rfl := h.held.driver name driver hdriver
    have s := World.grown_withVolume { w with nextVolumeId := w.nextVolumeId + 1 } w.nextVolumeId
      device flags
    refine ⟨World.confined_withVolume _ _ _ _, (s.live p).2 (.inr hp.known.live), ?_⟩
    rintro v ⟨⟩
    exact World.minted_withVolume _ _ _ _

theorem sound : w.Sound := by
  refine h.lawful.sound h.gripped (h.known h.live_root) (h.known h.live_zero) fun n r hroot => ?_
  exact ⟨h.known (World.live_of_mountRoot hroot), h.known (h.live_mountRoot hroot)⟩

/-! ## Moves are edits -/

/-- What the library does among memory volumes is a sequence of edits. -/
theorem edits_of_move {w' : World} (hmove : Move range w w') : w.Edits w' := by
  cases hmove with
  | asked request hproper _ => exact (h.served_after hproper).edits h
  | mounted hdriver hp _ => exact h.mountedOn_edits hdriver hp _ _ _
  | deviceAdded => exact (addDevice_grafts h _ _).grafts.1
  | deviceMoved => exact (moveDevice_grafts h _ _).grafts.1
  | deviceWithdrawn => exact (withdrawDevice_grafts h _).grafts.1
  | swept => exact .single .swept
  | held hgripped =>
    exact .single (.held ⟨fun f file hget => (hgripped.file f file hget).live,
      fun c context hget => (hgripped.cwd c context hget).live,
      fun name n hget => (hgripped.pin name n hget).live, h.held.driver, hgripped.table⟩)

omit h in
theorem edits_of_moves {w' : World} (h : w.WellFormed) (hmoves : ReflTransGen (Move range) w w') :
    w.Edits w' := by
  induction hmoves with
  | refl => exact .refl
  | tail _ hmove ih => exact ih.trans (edits_of_move (World.Edits.wellFormed ih h) hmove)

/-- **A turn leaves nothing behind that nothing refers to.** -/
theorem tidy_of_turn {w' : World} (hturn : Turn range w w') (htidy : w.Tidy) : w'.Tidy := by
  cases hturn with
  | asked request hproper _ => exact (h.served_after hproper).tidy h htidy
  | mounted hdriver hp _ => exact h.tidy_mountedOn htidy hdriver hp _ _ _
  | deviceAdded => exact (addDevice_grafts h _ _).tidy htidy
  | deviceMoved => exact (moveDevice_grafts h _ _).tidy htidy
  | deviceWithdrawn => exact (withdrawDevice_grafts h _).tidy htidy
  | held _ hrefers => exact fun n hn => hrefers n (htidy n hn)
  | dropped _ => exact World.tidy_settle _

theorem tidy_of_turns {w' : World} (hturns : ReflTransGen (Turn range) w w') (htidy : w.Tidy) :
    w'.Tidy := by
  induction hturns with
  | refl => exact htidy
  | tail hturns hturn ih =>
    have h' := World.Edits.wellFormed (h.edits_of_moves (World.moves_of_turns hturns)) h
    exact h'.tidy_of_turn hturn ih

theorem steady : w.Steady range := fun _ hmoves =>
  (World.Edits.wellFormed (edits_of_moves h hmoves) h).sound

end WellFormed

end World

/-! ## Runs -/

/-- **An operation is a sequence of edits.** -/
theorem Operation.edits {w : World} (h : w.WellFormed) (op : Operation) : w.Edits (op.run w) := by
  have hmoves : ReflTransGen (Move .all) w (op.act.after w) :=
    op.moves h.steady (fun _ _ _ _ _ => trivial) (fun _ _ _ => trivial) fun _ _ => trivial
  rw [op.run_eq_after]
  exact h.edits_of_moves hmoves

theorem Operation.tidy {w : World} (h : w.WellFormed) (op : Operation) (htidy : w.Tidy) :
    (op.run w).Tidy := by
  have hturns : ReflTransGen (Turn .all) w (op.act.after w) :=
    op.turns h.steady (fun _ _ _ _ _ => trivial) (fun _ _ _ => trivial) fun _ _ => trivial
  rw [op.run_eq_after]
  exact h.tidy_of_turns hturns htidy

theorem World.Steps.edits {w w' : World} (h : w.WellFormed) (hsteps : w.Steps w') : w.Edits w' := by
  induction hsteps with
  | refl => exact .refl
  | tail _ hop ih =>
    obtain ⟨op, rfl⟩ := hop
    exact ih.trans (op.edits (World.Edits.wellFormed ih h))

end VirtualFs
