/-
What a request to the memory filesystem leaves, whichever operations the node
has that it is made on. A request for a node's data or attributes only touches
nodes.
-/
import VirtualFs.Standard
import VirtualFs.Proofs.DeviceEdits

namespace VirtualFs

open VirtualFs.Action (leads_query_bind leads_bind leads_pure leads_throw leads_note_bind
  fails_pure fails_bind fails_ask_bind fails_note_bind)

variable {w : World} (h : w.WellFormed) {n : NodeId}

include h

theorem OpsKind.openFile_touches (ops : OpsKind) (v : VolumeKey) (hn : w.Live n)
    (flags : OpenFlags) :
    (ops.openFile v n flags).Leads World.Touch w fun file w' => file.node = n ∧ w'.Live n := by
  refine leads_note_bind (leads_bind (P := fun file w' => file.node = n ∧ w'.Live n) ?_ ?_)
  · cases ops with
    | ram => exact RamFs.openFile_touches h hn flags
    | bare => exact leads_pure ⟨rfl, hn⟩
    | scripted meter script => exact leads_query_bind fun _ _ => leads_pure ⟨rfl, hn⟩
  · intro file w' _ hfile
    exact leads_note_bind (leads_pure hfile)

omit h in
theorem OpsKind.openDirectory_yields (ops : OpsKind) (v : VolumeKey) (n : NodeId)
    (flags : OpenFlags) : (ops.openDirectory v n flags).Yields w fun file => file.node = n := by
  refine .skip fun _ => .bind (P := fun file => file.node = n) ?_ fun file hfile =>
    .skip fun _ => .pure hfile
  cases ops with
  | ram => exact .pure rfl
  | bare => exact .pure rfl
  | scripted meter script => exact .skip fun _ => .pure rfl

theorem OpsKind.write_touches (ops : OpsKind) {file : OpenFile} (hfile : w.Live file.node)
    (position : Nat) (data : ByteArray) :
    (ops.write file position data).LeadsOnly World.Touch w := by
  refine leads_note_bind ?_
  cases ops with
  | ram => exact RamFs.write_touches h hfile position data
  | bare => exact leads_throw
  | scripted meter script => exact leads_query_bind fun _ _ => leads_pure trivial

theorem OpsKind.writeStatus_touches (ops : OpsKind) (v : VolumeKey) (hn : w.Live n)
    (status : Status) (mask : StatusMask) :
    (ops.writeStatus v n status mask).LeadsOnly World.Touch w := by
  cases ops with
  | ram => exact RamFs.writeStatus_touches h hn status mask
  | bare => exact leads_throw
  | scripted meter script => exact leads_throw

variable {d : NodeId} {name : String}

/-- What a node that is made in a directory has for operations. -/
theorem World.WellFormed.inherits_ops (hd : w.Live d) {content : Content}
    (hdir : w.isDirectory d = true) : (w.node d).ops = some .ram ∨ content = .device :=
  .inl ((h.ram d hd).ops_of_isDirectory hdir)

theorem RamFs.createFile_inserts {v : VolumeKey} (hd : w.Live d) (hv : v = (w.node d).volume)
    (flags : OpenFlags) (mode : UInt32) :
    (DriverKind.ram.createFile v d name flags mode).FailsTo w w fun file w' =>
      w.Inserted d name file.node w' :=
  fails_note_bind (fails_bind (P := fun file w' => w.Inserted d name file.node w')
    (fails_ask_bind (fails_bind (insert_inserts h hd hv (Mode.typeBits_make _ _) rfl
      (h.inherits_ops hd)) fun _ _ hinserted => fails_pure hinserted))
    fun _ _ hinserted => fails_note_bind (fails_pure hinserted))

theorem RamFs.createDirectory_inserts {v : VolumeKey} (hd : w.Live d) (hv : v = (w.node d).volume)
    (mode : UInt32) :
    (DriverKind.ram.createDirectory v d name mode).FailsTo w w fun _ w' =>
      ∃ n, w.Inserted d name n w' :=
  fails_note_bind (fails_ask_bind (fails_bind (insert_inserts h hd hv (Mode.typeBits_make _ _) rfl
    (h.inherits_ops hd)) fun n _ hinserted => fails_pure ⟨n, hinserted⟩))

theorem RamFs.createSymlink_inserts {v : VolumeKey} (hd : w.Live d) (hv : v = (w.node d).volume)
    (target : String) :
    (DriverKind.ram.createSymlink v d name target).FailsTo w w fun _ w' =>
      ∃ n, w.Inserted d name n w' :=
  fails_note_bind (fails_ask_bind (fails_bind (insert_inserts h hd hv (Mode.typeBits_make _ _) rfl
    (h.inherits_ops hd)) fun n _ hinserted => fails_pure ⟨n, hinserted⟩))

/-! ## What a new node is -/

omit h in
theorem RamFs.createFile_makes {v : VolumeKey} (hd : w.Live d) (flags : OpenFlags) (mode : UInt32) :
    (DriverKind.ram.createFile v d name flags mode).FailsTo w w fun _ w' =>
      (w'.node w.nodes.nextKey).mode = Mode.make Mode.regular mode ∧
        w'.content w.nodes.nextKey = .file .empty :=
  fails_note_bind (fails_bind (P := fun _ w' =>
      (w'.node w.nodes.nextKey).mode = Mode.make Mode.regular mode ∧
        w'.content w.nodes.nextKey = .file .empty)
    (fails_ask_bind (fails_bind (insert_makes hd) fun _ _ hmade => fails_pure hmade))
    fun _ _ hmade => fails_note_bind (fails_pure hmade))

omit h in
theorem RamFs.createDirectory_makes {v : VolumeKey} (hd : w.Live d) (mode : UInt32) :
    (DriverKind.ram.createDirectory v d name mode).FailsTo w w fun _ w' =>
      (w'.node w.nodes.nextKey).mode = Mode.make Mode.directory mode ∧
        w'.content w.nodes.nextKey = .directory .empty :=
  fails_note_bind (fails_ask_bind (fails_bind (insert_makes hd) fun _ _ hmade => fails_pure hmade))

omit h in
theorem RamFs.createSymlink_makes {v : VolumeKey} (hd : w.Live d) (target : String) :
    (DriverKind.ram.createSymlink v d name target).FailsTo w w fun _ w' =>
      (w'.node w.nodes.nextKey).mode = Mode.make Mode.symlink 0o777 ∧
        w'.content w.nodes.nextKey = .symlink target :=
  fails_note_bind (fails_ask_bind (fails_bind (insert_makes hd) fun _ _ hmade => fails_pure hmade))

end VirtualFs
