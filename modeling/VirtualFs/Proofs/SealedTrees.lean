/-
No operation changes a read-only volume that is mounted: every request that
changes names or attributes is made on a volume that may be written, devices go
to the root volume, and a mount makes a volume of its own. What a request for
the data of a node may do to a read-only volume is to change the bytes of its
files; that it does not is another matter, of the flags of open files.
-/
import VirtualFs.Proofs.RamMoves

namespace VirtualFs

open Relation (ReflTransGen)
open World (Move)
open VirtualFs.Action (leads_query_bind leads_demand_bind leads_bind leads_pure leads_throw
  leads_change leads_note_bind leads_when fails_note_bind)

variable {w : World} {n : NodeId} {v : VolumeKey}

namespace World

/-- A read-only volume that has been mounted. The root volume has not: it comes with the instance,
and devices are published on it whatever its flags are. -/
structure ReadOnly (w : World) (v : VolumeKey) : Prop where
  has : w.volumes.has v = true
  isReadOnly : (w.volume v).flags.isReadOnly = true
  mounted : v ≠ w.rootVolume

theorem ReadOnly.congr {w' : World} (h : w.ReadOnly v) (hexempts : w.Exempts v w')
    (hroot : w'.rootVolume = w.rootVolume) : w'.ReadOnly v where
  has := hexempts.has.trans h.has
  isReadOnly := by
    rw [hexempts.volume_eq]
    exact h.isReadOnly
  mounted := by
    rw [hroot]
    exact h.mounted

/-- What may be written to is another volume. -/
theorem volume_ne_of_writable {u : VolumeKey} (hreadOnly : (w.volume v).flags.isReadOnly = true)
    (hwritable : (w.volume u).flags.isReadOnly = false) : u ≠ v := by
  rintro rfl
  rw [hreadOnly] at hwritable
  cases hwritable

theorem Asked.volume_ne {driver : DriverKind} {u : VolumeKey} (ha : w.Asked driver u n)
    (hreadOnly : (w.volume v).flags.isReadOnly = true) : (w.node n).volume ≠ v :=
  ha.volume_eq ▸ volume_ne_of_writable hreadOnly ha.writable

end World

/-! ## Bytes and attributes -/

section

variable (h : w.WellFormed)

include h

/-- Other bytes change no skeleton. -/
theorem RamFs.setBytes_exempts (hn : w.Live n) {old : ByteArray} (hold : w.content n = .file old)
    (bytes : ByteArray) : (setBytes n bytes).LeadsOnly (World.Exempts v) w :=
  leads_change (.single (World.exempts_setNode (World.volume_mapRam _)
    fun _ _ => (h.ram n hn).skeleton_mapRam hold bytes)) trivial

theorem RamFs.openFile_exempts (hn : w.Live n) (flags : OpenFlags) :
    (openFile n flags).LeadsOnly (World.Exempts v) w := by
  refine leads_bind (P := fun _ _ => True) (leads_when
    (fun _ => leads_query_bind fun ram hram => ?_) fun _ => trivial)
    fun _ _ _ _ => leads_pure trivial
  have hcontent := of_nodeOf h hn hram
  split
  · next old heq => exact setBytes_exempts h hn (hcontent.symm.trans heq) _
  · exact leads_pure trivial

theorem RamFs.write_exempts (hn : w.Live n) (position : Nat) (data : ByteArray) :
    (write n position data).LeadsOnly (World.Exempts v) w := by
  refine leads_query_bind fun ram hram => ?_
  have hcontent := of_nodeOf h hn hram
  split
  · next old heq =>
    split
    · exact leads_pure trivial
    · exact leads_demand_bind fun _ =>
        leads_bind (setBytes_exempts h hn (hcontent.symm.trans heq) _) fun _ _ _ _ =>
          leads_pure trivial
  · exact leads_query_bind fun _ _ => leads_demand_bind fun _ => leads_throw

theorem OpsKind.openFile_exempts (ops : OpsKind) (u : VolumeKey) (hn : w.Live n)
    (flags : OpenFlags) : (ops.openFile u n flags).LeadsOnly (World.Exempts v) w := by
  refine leads_note_bind (leads_bind (P := fun _ _ => True) ?_ fun _ _ _ _ =>
    leads_note_bind (leads_pure trivial))
  cases ops with
  | ram => exact RamFs.openFile_exempts h hn flags
  | bare => exact leads_pure trivial
  | scripted meter script => exact leads_query_bind fun _ _ => leads_pure trivial

theorem OpsKind.write_exempts (ops : OpsKind) {file : OpenFile} (hfile : w.Live file.node)
    (position : Nat) (data : ByteArray) :
    (ops.write file position data).LeadsOnly (World.Exempts v) w := by
  refine leads_note_bind ?_
  cases ops with
  | ram => exact RamFs.write_exempts h hfile position data
  | bare => exact leads_throw
  | scripted meter script => exact leads_query_bind fun _ _ => leads_pure trivial

end

namespace RamFs

/-- What is done to a node of another volume, which stays there. -/
theorem modifyNode_exempts (hn : (w.node n).volume ≠ v) (f : RamNode → RamNode) :
    (modifyNode n f).Leads (World.Exempts v) w fun _ w' => (w'.node n).volume ≠ v :=
  leads_change (.single (World.exempts_mapRam hn f))
    (show ((w.setNode n (·.mapRam f)).node n).volume ≠ v by rwa [World.volume_setNode_mapRam])

theorem setSize_exempts (hn : (w.node n).volume ≠ v) (size : Nat) :
    (setSize n size).Leads (World.Exempts v) w fun _ w' => (w'.node n).volume ≠ v := by
  refine leads_demand_bind fun _ => leads_query_bind fun ram _ => ?_
  split
  · exact modifyNode_exempts hn _
  · exact leads_throw
  · exact leads_throw
  · exact leads_throw

theorem setPermissions_exempts (hn : (w.node n).volume ≠ v) (perms : UInt32) :
    (Action.change (·.setPermissions n perms) : Act Unit).Leads (World.Exempts v) w
      fun _ w' => (w'.node n).volume ≠ v := by
  have hsame : ∀ node : Node, ({ node with mode := Mode.make node.mode perms } : Node).volume =
      node.volume := fun _ => rfl
  refine leads_change (.single (World.exempts_setNode hsame fun _ hv => absurd hv hn)) ?_
  exact (World.volume_setNode hsame n).symm ▸ hn

theorem writeStatus_exempts (hn : (w.node n).volume ≠ v) (status : Status) (mask : StatusMask) :
    (writeStatus n status mask).LeadsOnly (World.Exempts v) w := by
  refine leads_query_bind fun _ _ => ?_
  refine leads_bind (leads_when (fun _ => setSize_exempts hn _) fun _ => hn) fun _ _ _ hn => ?_
  refine leads_bind (leads_when (fun _ => setPermissions_exempts hn _) fun _ => hn)
    fun _ _ _ hn => ?_
  exact (modifyNode_exempts hn _).only

end RamFs

/-! ## Requests and mounts -/

namespace World.WellFormed

variable (h : w.WellFormed)

include h

/-- **What is asked of drivers exempts a read-only volume.** -/
theorem exempts_after {request : DriverRequest} (hproper : request.Proper w)
    (hreadOnly : (w.volume v).flags.isReadOnly = true) : w.Exempts v (request.after w) := by
  cases request with
  | createFile driver u d name flags mode =>
    obtain ⟨hasked, -⟩ := hproper
    obtain rfl := h.driver_eq_ram hasked
    exact (RamFs.createFile_inserts h hasked.known.live hasked.volume_eq flags mode).after
      (.refl w) fun _ _ hinserted => hinserted.exempts (hasked.volume_ne hreadOnly)
  | createDirectory driver u d name mode =>
    obtain ⟨hasked, -⟩ := hproper
    obtain rfl := h.driver_eq_ram hasked
    exact (RamFs.createDirectory_inserts h hasked.known.live hasked.volume_eq mode).after
      (.refl w) fun _ _ ⟨_, hinserted⟩ => hinserted.exempts (hasked.volume_ne hreadOnly)
  | createSymlink driver u d name text =>
    obtain ⟨hasked, -⟩ := hproper
    obtain rfl := h.driver_eq_ram hasked
    exact (RamFs.createSymlink_inserts h hasked.known.live hasked.volume_eq text).after
      (.refl w) fun _ _ ⟨_, hinserted⟩ => hinserted.exempts (hasked.volume_ne hreadOnly)
  | rename driver u d name d' name' mustBeDirectory =>
    obtain ⟨hasked, hknown, hid, hname, hname'⟩ := hproper
    obtain rfl := h.driver_eq_ram hasked
    have hvolume := (h.volume_eq_iff hasked.known.live hknown.live).2 hid
    have hold := hasked.volume_ne hreadOnly
    exact (fails_note_bind (RamFs.rename_renames h u hasked.known.live hknown.live hvolume hname
      hname' mustBeDirectory)).after (.refl w) fun _ _ hrenamed =>
        hrenamed.exempts h (hvolume ▸ hold) hold
  | unlink driver u d name =>
    obtain rfl := h.driver_eq_ram hproper.1
    exact (fails_note_bind (RamFs.unlink_removes h u hproper.1.known.live name)).after (.refl w)
      fun _ _ hremoved => hremoved.exempts (hproper.1.volume_ne hreadOnly)
  | removeDirectory driver u d name =>
    obtain rfl := h.driver_eq_ram hproper.1
    exact (fails_note_bind (RamFs.removeDirectory_removes h u hproper.1.known.live name)).after
      (.refl w) fun _ _ hremoved => hremoved.exempts (hproper.1.volume_ne hreadOnly)
  | openFile ops u n flags =>
    exact .of_steps (ops.openFile_exempts h u hproper.1.known.live flags).1
  | write ops file position data =>
    exact .of_steps (ops.write_exempts h hproper.known.live position data).1
  | writeStatus ops u n status mask =>
    obtain ⟨hused, hwritable⟩ := hproper
    have hn : (w.node n).volume ≠ v :=
      hused.volume_eq ▸ volume_ne_of_writable hreadOnly hwritable
    cases ops with
    | ram => exact .of_steps (RamFs.writeStatus_exempts hn status mask).1
    | bare | scripted => exact .refl w

theorem exempts_mountedOn {name : String} {driver : DriverKind} {p : NodeId}
    (hdriver : w.drivers.get? name = some driver) (hp : w.Mountable p)
    (hv : w.volumes.has v = true) (device : String) (flags : VolumeFlags) (args : String) :
    w.Exempts v (w.mountedOn driver device flags args p) := by
  rw [h.mountedOn_eq hdriver hp]
  have hnew : w.volumes.nextKey ≠ v := Ne.symm (Nat.ne_of_lt (Arena.lt_nextKey_of_has hv))
  let taken : World := { w with nextVolumeId := w.nextVolumeId + 1 }
  have htaken : w.Exempts v taken := .of_nodes rfl rfl
  have hmade : taken.Exempts v (taken.withVolume w.nextVolumeId device flags) :=
    exempts_withVolume (w := taken) hv w.nextVolumeId device flags
  exact (htaken.trans hmade).trans (exempts_attach w.nextVolumeId hnew p)

/-! ## Operations -/

theorem exempts_move {range : Range} {w' : World} (hreadOnly : w.ReadOnly v)
    (hmove : Move range w w') : w.Exempts v w' := by
  cases hmove with
  | asked request hproper _ => exact h.exempts_after hproper hreadOnly.isReadOnly
  | mounted hdriver hp _ => exact h.exempts_mountedOn hdriver hp hreadOnly.has _ _ _
  | deviceAdded => exact (addDevice_grafts h _ _).exempts v hreadOnly.mounted
  | deviceMoved => exact (moveDevice_grafts h _ _).exempts v hreadOnly.mounted
  | deviceWithdrawn => exact (withdrawDevice_grafts h _).exempts v hreadOnly.mounted
  | swept => exact exempts_sweep w
  | held _ => exact .of_nodes rfl rfl

end World.WellFormed

/-- Which volume is the root volume is settled. -/
theorem World.Edits.rootVolume {w w' : World} (hedits : w.Edits w') :
    w'.rootVolume = w.rootVolume := by
  induction hedits with
  | refl => rfl
  | tail _ hedit ih =>
    refine .trans ?_ ih
    cases hedit <;> rfl

theorem World.WellFormed.exempts_moves {range : World.Range} {w' : World} (h : w.WellFormed)
    (hreadOnly : w.ReadOnly v) (hmoves : ReflTransGen (Move range) w w') : w.Exempts v w' := by
  induction hmoves with
  | refl => exact .refl w
  | tail hmoves hmove ih =>
    have hedits := h.edits_of_moves hmoves
    exact ih.trans ((World.Edits.wellFormed hedits h).exempts_move
      (hreadOnly.congr ih hedits.rootVolume) hmove)

/-- **An operation exempts a read-only volume**, but for the bytes of its files. -/
theorem Operation.exempts (h : w.WellFormed) (hreadOnly : w.ReadOnly v) (op : Operation) :
    w.Exempts v (op.run w) := by
  have hmoves : ReflTransGen (Move .all) w (op.act.after w) :=
    op.moves h.steady (fun _ _ _ _ _ => trivial) (fun _ _ _ => trivial) fun _ _ => trivial
  rw [op.run_eq_after]
  exact h.exempts_moves hreadOnly hmoves

end VirtualFs
