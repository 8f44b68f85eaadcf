/-
The files of a read-only volume. Only an open stream that may be written changes
bytes, besides an open that empties a file and a change of attributes; and no
such stream is opened on a read-only volume, whichever way. So if there is none
to begin with there will be none, and the bytes stay as they are.
-/
import VirtualFs.Proofs.SealedTrees
import VirtualFs.Proofs.StandardManners
import VirtualFs.Proofs.StreamOpens

namespace VirtualFs

open VirtualFs.Action (leads_query_bind leads_demand_bind leads_bind leads_pure leads_throw
  leads_change leads_change_bind leads_look_bind leads_world_bind leads_ask_bind leads_query
  leads_note_bind leads_when leads_orUndo)

/-- Is a stream that may be written. -/
def OpenFile.writes (file : OpenFile) : Bool := file.isStream && file.flags.writable

theorem OpenFile.writes_setPosition (file : OpenFile) (position : Nat) :
    (file.setPosition position).writes = file.writes := by
  rw [OpenFile.setPosition]
  split
  · next hkind =>
    rw [writes, writes, isStream, isStream, hkind]
  · rfl

theorem OpenFile.writes_setCursor (file : OpenFile) (cursor : Nat) :
    (file.setCursor cursor).writes = file.writes := by
  rw [OpenFile.setCursor]
  split
  · next hkind =>
    rw [writes, writes, isStream, isStream, hkind]
  · rfl

/-- Changing the status of a file makes no writer of it. -/
theorem OpenFile.writes_withStatus (file : OpenFile) (flags : OpenFlags) :
    ({ file with flags := file.flags.withStatus flags } : OpenFile).writes = file.writes := by
  show (file.isStream && (file.flags.withStatus flags).writable) = _
  rw [writes, OpenFlags.writable, OpenFlags.writable, OpenFlags.accessMode_withStatus]

theorem OpenFile.writes_stream (n : NodeId) (flags : OpenFlags) :
    (OpenFile.stream n flags).writes = flags.writable :=
  flags.writable_without (by decide)

namespace World

/-- The files of a volume that are there hold what they held, and none has come to be written. -/
structure Seals (v : VolumeKey) (w w' : World) : Prop where
  node : ∀ n, w'.Live n → (w'.node n).volume = v →
    w.Live n ∧ (w.node n).volume = v ∧ (w'.node n).bytes? = (w.node n).bytes?
  writer : ∀ f file', w'.files.get? f = some file' → w'.Live file'.node →
    (w'.node file'.node).volume = v → file'.writes = true →
      ∃ file, w.files.get? f = some file ∧ file.node = file'.node ∧ file.writes = true

/-- A stretch of a run in which the files of a volume are sealed, whatever is seen. -/
def Sealing (v : VolumeKey) (w : World) (_ : List Event) (w' : World) : Prop := w.Seals v w'

variable {v : VolumeKey} {w w' w'' : World} {n : NodeId}

namespace Seals

theorem of_nodes (hnodes : w'.nodes = w.nodes)
    (hwriter : ∀ f file', w'.files.get? f = some file' → w.Live file'.node →
      (w.node file'.node).volume = v → file'.writes = true →
        ∃ file, w.files.get? f = some file ∧ file.node = file'.node ∧ file.writes = true) :
    w.Seals v w' := by
  have hlive : ∀ n, w'.Live n ↔ w.Live n := fun n => by rw [Live, Live, hnodes]
  have hnode : ∀ n, w'.node n = w.node n := fun n => by rw [World.node, World.node, hnodes]
  refine ⟨fun n hn hv => ?_, fun f file' hfile' hn hv => ?_⟩
  · rw [hnode] at hv ⊢
    exact ⟨(hlive n).1 hn, hv, rfl⟩
  · rw [hnode] at hv
    exact hwriter f file' hfile' ((hlive _).1 hn) hv

theorem of_files (hfiles : w'.files = w.files)
    (hnode : ∀ n, w'.Live n → (w'.node n).volume = v →
      w.Live n ∧ (w.node n).volume = v ∧ (w'.node n).bytes? = (w.node n).bytes?) :
    w.Seals v w' :=
  ⟨hnode, fun f file' hfile' _ _ hwrites => ⟨file', by rw [← hfiles]; exact hfile', rfl, hwrites⟩⟩

theorem refl (w : World) : w.Seals v w := .of_files rfl fun _ hn hv => ⟨hn, hv, rfl⟩

theorem trans (h : w.Seals v w') (h' : w'.Seals v w'') : w.Seals v w'' where
  node n hn hv := by
    obtain ⟨hn', hv', hbytes'⟩ := h'.node n hn hv
    obtain ⟨hn, hv, hbytes⟩ := h.node n hn' hv'
    exact ⟨hn, hv, hbytes'.trans hbytes⟩
  writer f file'' hfile'' hn hv hwrites := by
    obtain ⟨hn', hv', -⟩ := h'.node _ hn hv
    obtain ⟨file', hfile', heq', hwrites'⟩ := h'.writer f file'' hfile'' hn hv hwrites
    rw [← heq'] at hn' hv'
    obtain ⟨file, hfile, heq, hwrites⟩ := h.writer f file' hfile' hn' hv' hwrites'
    exact ⟨file, hfile, heq.trans heq', hwrites⟩

theorem of_steps (hsteps : Relation.ReflTransGen (Seals v) w w') : w.Seals v w' := by
  induction hsteps with
  | refl => exact .refl w
  | tail _ hstep ih => exact ih.trans hstep

end Seals

/-! ## Changes that leave files sealed -/

/-- A node of another volume may change. -/
theorem seals_setNode {f : Node → Node} (hf : ∀ node, (f node).volume = node.volume)
    (hn : (w.node n).volume ≠ v) : w.Seals v (w.setNode n f) := by
  refine .of_files rfl fun m hm hv => ?_
  rw [live_setNode] at hm
  rw [volume_setNode hf] at hv
  have hne : m ≠ n := by
    rintro rfl
    exact hn hv
  rw [node_setNode_of_ne f hne]
  exact ⟨hm, hv, rfl⟩

theorem seals_push {node : Node} (hnodes : w'.nodes = w.nodes.push node) (hnode : node.volume ≠ v)
    (hfiles : w'.files = w.files) : w.Seals v w' := by
  refine .of_files hfiles fun n hn hv => ?_
  rw [node_push hnodes rfl] at hv ⊢
  rcases (live_push hnodes rfl).1 hn with rfl | hold
  · rw [if_pos rfl] at hv
    exact absurd hv hnode
  · rw [if_neg (Nat.ne_of_lt hold.lt)] at hv ⊢
    exact ⟨hold, hv, rfl⟩

theorem volume_ne_push {node : Node} (hnodes : w'.nodes = w.nodes.push node)
    (hnode : node.volume ≠ v) (hn : n = w.nodes.nextKey ∨ (w.node n).volume ≠ v) :
    (w'.node n).volume ≠ v := by
  rw [node_push hnodes rfl]
  split
  · exact hnode
  · next hold => exact hn.resolve_left hold

theorem seals_sweep (w : World) : w.Seals v w.sweep := by
  refine .of_files rfl fun n hn hv => ?_
  rw [node_sweep hn] at hv ⊢
  exact ⟨(live_sweep.1 hn).1, hv, rfl⟩

theorem seals_settle (w : World) : w.Seals v w.settle :=
  settle_related Seals.refl Seals.trans seals_sweep w

/-- An open file may change if it neither goes to another node nor comes to be written. -/
theorem seals_setFile (f : FileId) {g : OpenFile → OpenFile}
    (hnode : ∀ file, (g file).node = file.node) (hwrites : ∀ file, (g file).writes = file.writes) :
    w.Seals v (w.setFile f g) := by
  refine .of_nodes rfl fun f' file' hfile' _ _ hwrites' => ?_
  obtain ⟨file, hfile, rfl | rfl⟩ := Arena.exists_get?_of_modify hfile'
  · exact ⟨_, hfile, rfl, hwrites'⟩
  · exact ⟨file, hfile, (hnode file).symm, (hwrites file).symm.trans hwrites'⟩

instance : Stretch (Sealing v) where
  quiet _ := .refl _
  trans h h' := Seals.trans h h'

theorem Beside.seals (h : w.Beside w') : w.Seals v w' := by
  refine .of_files h.files fun n hn hv => ?_
  have hnode := h.node_eq n
  have hlive : w.Live n := by
    obtain ⟨node', hget'⟩ := Arena.has_iff.1 hn
    have hsame := h.node n
    rw [hget'] at hsame
    obtain ⟨node, hget, -⟩ := Option.map_eq_some_iff.1 hsame.symm
    exact Arena.has_iff.2 ⟨node, hget⟩
  refine ⟨hlive, ?_, ?_⟩
  · exact (congrArg Node.volume hnode).symm.trans hv
  · show ({ w'.node n with mountRoot := none } : Node).bytes? = _
    rw [hnode]
    rfl

instance : Moving (Sealing v) where
  beside h := h.seals
  settled w := seals_settle w
  moved _ f position := seals_setFile f (fun file => file.setPosition_node position)
    fun file => file.writes_setPosition position
  flagged _ f flags := seals_setFile f (fun _ => rfl) fun file => file.writes_withStatus flags

instance : Turning (Sealing v) where
  turned _ f _ := seals_setFile f (fun file => file.setCursor_node _)
    fun file => file.writes_setCursor _

instance : Tabular (Sealing v) where
  seen _ h := h
  tables _ _ _ := .of_nodes rfl fun _ file' hfile' _ _ hwrites => ⟨file', hfile', rfl, hwrites⟩
  removed _ _ := .of_nodes rfl fun _ file' hfile' _ _ hwrites =>
    ⟨file', Arena.get?_of_remove hfile', rfl, hwrites⟩

/-- What leaves files and streams alone seals the files of a volume of which no nodes are made. -/
theorem SameStreams.seals (hsame : w.SameStreams w') (hw : w.WellFormed) (hw' : w'.WellFormed)
    (hexempts : w.Exempts v w') : w.Seals v w' := by
  have hnode : ∀ n, w'.Live n → (w'.node n).volume = v →
      w.Live n ∧ (w.node n).volume = v ∧ (w'.node n).bytes? = (w.node n).bytes? := by
    intro n hn hv
    obtain ⟨hold, hskeleton⟩ := hexempts.node n hn hv
    refine ⟨hold, (Node.volume_eq_of_skeleton hskeleton).symm.trans hv, ?_⟩
    obtain ⟨node, hget, hkept⟩ := hsame.node n hold.lt _ hn.get?
    obtain rfl : node = w.node n := Option.some.inj (hget.symm.trans hold.get?)
    have hregular : (w'.node n).bytes?.isSome = (w.node n).bytes?.isSome := by
      rw [Bool.eq_iff_iff, (hw'.ram n hn).isSome_bytes?, (hw.ram n hold).isSome_bytes?, hkept.type]
    cases hbytes : (w'.node n).bytes? with
    | some bytes => exact (hkept.bytes bytes hbytes).symm
    | none =>
      rw [hbytes] at hregular
      exact (Option.isNone_iff_eq_none.1 (by rw [← Option.not_isSome, ← hregular]; rfl)).symm
  refine ⟨hnode, fun f file' hfile' _ _ hwrites => ?_⟩
  obtain ⟨file, hfile, hstream⟩ := hsame.file f file' hfile'
  obtain ⟨n, flags, kind⟩ := file'
  cases kind with
  | stream position =>
    rw [OpenFile.stream?, eq_comm, OpenFile.stream?_eq_some] at hstream
    subst hstream
    exact ⟨_, hfile, rfl, hwrites⟩
  | directory | path => cases hwrites

end World

open World (Seals Sealing)

theorem Action.Does.seals {α : Type} {x : Act α} {F : Prop} {v : VolumeKey}
    (h : x.Does (Sealing v) F) (w : World) : x.LeadsOnly (Seals v) w :=
  ⟨.single (h w).1, fun _ _ => trivial⟩

variable {w : World} {v : VolumeKey} {n d : NodeId}

/-! ## Opening a node -/

/-- The file is none that may be written on a node of the volume. -/
def World.Refrains (w : World) (v : VolumeKey) (file : OpenFile) : Prop :=
  (w.node file.node).volume = v → file.writes = false

theorem RamFs.modifyNode_seals (hn : (w.node n).volume ≠ v) (f : RamNode → RamNode) (m : NodeId) :
    (modifyNode n f).Leads (Seals v) w fun _ w' => (w'.node m).volume = (w.node m).volume :=
  leads_change (.single (World.seals_setNode (World.volume_mapRam f) hn))
    (World.volume_setNode_mapRam n f m)

/-- A file is emptied only if it may be written. -/
theorem RamFs.openFile_seals {flags : OpenFlags}
    (hflags : (w.node n).volume = v → flags.writable = false) :
    (openFile n flags).Leads (Seals v) w fun file w' => w'.Refrains v file := by
  refine leads_bind (P := fun _ w' => (w'.node n).volume = (w.node n).volume)
    (leads_when (fun hempty => ?_) fun _ => rfl) fun _ w' _ hvolume => leads_pure fun hv => ?_
  · have hn : (w.node n).volume ≠ v := by
      intro hv
      rw [hflags hv, Bool.and_false] at hempty
      cases hempty
    refine leads_query_bind fun ram _ => ?_
    split
    · exact modifyNode_seals hn _ n
    · exact leads_pure rfl
  · rw [OpenFile.writes_stream]
    exact hflags (hvolume.symm.trans hv)

theorem OpsKind.openFile_seals (o : OpsKind) (u : VolumeKey) {flags : OpenFlags}
    (hflags : (w.node n).volume = v → flags.writable = false) :
    (o.openFile u n flags).Leads (Seals v) w fun file w' => w'.Refrains v file := by
  have hstream : w.Refrains v (.stream n flags) := fun hv =>
    (OpenFile.writes_stream n flags).trans (hflags hv)
  refine leads_note_bind (leads_bind (P := fun file w' => w'.Refrains v file) ?_
    fun _ _ _ hfile => leads_note_bind (leads_pure hfile))
  cases o with
  | ram => exact RamFs.openFile_seals hflags
  | bare => exact leads_pure hstream
  | scripted meter script => exact leads_query_bind fun _ _ => leads_pure hstream

theorem openFound_seals (hreadOnly : (w.volume v).flags.isReadOnly = true) (n : NodeId)
    (flags : OpenFlags) :
    (openFound n flags).Leads (Seals v) w fun file w' => w'.Refrains v file := by
  rw [openFound]
  split
  · exact leads_pure fun _ => rfl
  refine leads_world_bind (leads_demand_bind fun _ => leads_query_bind fun o _ =>
    leads_query_bind fun u hu => ?_)
  obtain rfl : u = (w.node n).volume := World.WellFormed.volumeOf_yields n u hu
  split
  · refine leads_demand_bind fun _ => leads_query fun file hfile => ?_
    rw [OpsKind.result_openDirectory hfile]
    exact fun _ => rfl
  · refine leads_demand_bind fun _ => leads_demand_bind fun hallowed =>
      o.openFile_seals _ fun hv => ?_
    rw [hv, hreadOnly] at hallowed
    simpa using hallowed

/-! ## Opening a name -/

theorem volumeForWriting_yields (n : NodeId) : (volumeForWriting n).Yields w fun u =>
    u = (w.node n).volume ∧ (w.volume u).flags.isReadOnly = false := by
  refine (World.WellFormed.volumeOf_yields n).bind fun u hu => Query.Yields.look_bind ?_
  refine .bind (P := fun _ => (w.volume u).flags.isReadOnly = false) (fun _ hdemand => ?_)
    fun _ hwritable => .pure ⟨hu, hwritable⟩
  simpa using Query.result_demand_eq_ok.1 hdemand

/-- A file is created in a directory of another volume, and belongs to that one. -/
theorem RamFs.createFile_seals {u : VolumeKey} (hu : u ≠ v) (hd : (w.node d).volume ≠ v)
    (name : String) (flags : OpenFlags) (mode : UInt32) :
    (createFile u d name flags mode).Leads (Seals v) w fun file w' => w'.Refrains v file := by
  have hmade : ∀ mode content ops, (makeNode u d mode content ops).Leads (Seals v) w
      fun n w' => (w'.node n).volume ≠ v ∧ (w'.node d).volume ≠ v := by
    intro mode content ops
    refine leads_query_bind fun ino _ => leads_world_bind ?_
    exact leads_change_bind (.single (World.seals_push rfl hu rfl)) (leads_pure
      ⟨World.volume_ne_push rfl hu (.inl rfl), World.volume_ne_push rfl hu (.inr hd)⟩)
  refine leads_ask_bind (leads_bind (P := fun n w' => (w'.node n).volume ≠ v) ?_
    fun n w' _ hn => leads_pure fun hv => absurd hv hn)
  refine leads_query_bind fun _ _ => leads_query_bind fun _ _ => leads_demand_bind fun _ =>
    leads_bind (hmade _ _ _) fun n w' _ hboth => ?_
  exact leads_bind (modifyNode_seals hboth.2 _ n) fun _ _ _ hsame => leads_pure (hsame ▸ hboth.1)

theorem createNode_seals (hreadOnly : (w.volume v).flags.isReadOnly = true) (d : NodeId)
    (name : String) (flags : OpenFlags) (mode : UInt32) :
    (createNode d name flags mode).Leads (Seals v) w fun file w' => w'.Refrains v file := by
  refine leads_query_bind fun _ _ => leads_query_bind fun u hu => leads_ask_bind ?_
  obtain ⟨hvolume, hwritable⟩ := volumeForWriting_yields d u hu
  have hne := World.volume_ne_of_writable hreadOnly hwritable
  cases (w.node d).driver with
  | ram =>
    exact leads_note_bind (leads_bind (RamFs.createFile_seals hne (hvolume ▸ hne) name flags mode)
      fun _ _ _ hfile => leads_note_bind (leads_pure hfile))
  | scripted fs => exact leads_note_bind (leads_bind (P := fun _ _ => False) leads_throw nofun)

theorem openName_seals (hreadOnly : (w.volume v).flags.isReadOnly = true) (t : TaskId) (d : NodeId)
    (name : String) (flags : OpenFlags) (mode : UInt32) :
    (openName t d name flags mode).Leads (Seals v) w fun file w' => w'.Refrains v file := by
  refine leads_query_bind fun found _ => ?_
  split
  · exact leads_demand_bind fun _ => openFound_seals hreadOnly _ flags
  · split
    · exact createNode_seals hreadOnly d name flags mode
    · exact leads_throw

/-! ## Opening into a number -/

theorem commitFile_seals (c : ContextId) (handle : Handle) {file : OpenFile}
    (hfile : w.Refrains v file) : (commitFile c handle file).LeadsOnly (Seals v) w := by
  have hpush : w.Seals v { w with files := w.files.push file } := by
    refine .of_nodes rfl fun f file' hfile' _ hv hwrites => ?_
    rw [Arena.get?_push] at hfile'
    split at hfile'
    · cases hfile'
      rw [hfile hv] at hwrites
      cases hwrites
    · exact ⟨file', hfile', rfl, hwrites⟩
  refine leads_query_bind fun bindable _ => ?_
  split
  · exact leads_query_bind fun _ _ => leads_throw
  · refine leads_bind (P := fun _ _ => True) (leads_look_bind (leads_change_bind (.single hpush)
      (leads_pure trivial))) fun f _ _ _ => ?_
    exact leads_bind ((bindHandle_does c handle f).seals _) fun _ _ _ _ => leads_pure trivial

/-- Reserving a number changes nothing about volumes. -/
theorem withReserved_seals (c : ContextId) {work : Handle → Act Handle}
    (hwork : ∀ handle w', w'.volumes = w.volumes → (work handle).LeadsOnly (Seals v) w') :
    (withReserved c work).LeadsOnly (Seals v) w := by
  have hallocate : (allocateHandle c).Leads (Seals v) w fun _ w' => w'.volumes = w.volumes := by
    refine leads_look_bind ?_
    split
    · exact leads_throw
    · exact leads_change_bind (.single (World.Tabular.tables (R := Sealing v) w c _))
        (leads_pure rfl)
  exact leads_bind hallocate fun handle w' _ hvolumes =>
    leads_orUndo (hwork handle w' hvolumes) fun w'' _ => (giveBack_does c handle).seals w''

theorem World.isReadOnly_congr {w' : World} (hreadOnly : (w.volume v).flags.isReadOnly = true)
    (hvolumes : w'.volumes = w.volumes) : (w'.volume v).flags.isReadOnly = true := by
  rwa [World.volume, hvolumes]

theorem openPath_seals (hreadOnly : (w.volume v).flags.isReadOnly = true) (t : TaskId)
    (base : Option Handle) (path : String) (flags : OpenFlags) (mode : UInt32) :
    (openPath t base path flags mode).LeadsOnly (Seals v) w := by
  refine leads_ask_bind (withReserved_seals _ fun handle w' hvolumes => ?_)
  have hreadOnly' := World.isReadOnly_congr hreadOnly hvolumes
  refine leads_query_bind fun _ _ => leads_query_bind fun found _ => ?_
  exact leads_bind (openName_seals hreadOnly' t found.1 found.2 flags mode) fun _ _ _ hfile =>
    leads_bind (commitFile_seals _ handle hfile) fun _ _ _ _ => leads_note_bind (leads_pure trivial)

theorem openPinned_seals (hreadOnly : (w.volume v).flags.isReadOnly = true) (t : TaskId)
    (name : String) (flags : OpenFlags) : (openPinned t name flags).LeadsOnly (Seals v) w := by
  refine leads_ask_bind (leads_query_bind fun n _ => leads_ask_bind ?_)
  refine withReserved_seals _ fun handle w' hvolumes => ?_
  exact leads_bind (openFound_seals (World.isReadOnly_congr hreadOnly hvolumes) n flags)
    fun _ _ _ hfile => commitFile_seals _ handle hfile

theorem reopen_seals (hreadOnly : (w.volume v).flags.isReadOnly = true) (t : TaskId) (h : Handle) :
    (reopen t h).LeadsOnly (Seals v) w := by
  refine leads_query_bind fun file _ => leads_ask_bind ?_
  refine withReserved_seals _ fun copy w' hvolumes => ?_
  refine leads_bind (openFound_seals (World.isReadOnly_congr hreadOnly hvolumes) _ _)
    fun fresh _ _ hfresh => commitFile_seals _ copy fun hv => ?_
  rw [OpenFile.writes_setPosition]
  rw [OpenFile.setPosition_node] at hv
  exact hfresh hv

/-! ## Writing -/

/-- No stream on the volume may be written. -/
def World.Unwritten (w : World) (v : VolumeKey) : Prop :=
  ∀ f file, w.files.get? f = some file → (w.node file.node).volume = v → file.writes = false

/-- What may be written is a stream on another volume. -/
theorem writableOf_yields (hunwritten : w.Unwritten v) (t : TaskId) (h : Handle) :
    (writableOf t h).Yields w fun found => (w.node found.2.1.node).volume ≠ v := by
  intro found hfound hv
  obtain ⟨⟨f, file, o⟩, hstream, hfound⟩ := Query.result_bind_eq_ok.1 hfound
  obtain ⟨_, hwritable, hfound⟩ := Query.result_bind_eq_ok.1 hfound
  cases hfound
  rw [Query.result_demand_eq_ok] at hwritable
  obtain ⟨f', hf, hstream⟩ := Query.result_bind_eq_ok.1 hstream
  rw [Query.look_bind] at hstream
  obtain ⟨_, hkind, hstream⟩ := Query.result_bind_eq_ok.1 hstream
  obtain ⟨_, -, hstream⟩ := Query.result_bind_eq_ok.1 hstream
  cases hstream
  rw [Query.result_ofResult] at hkind
  cases hget : w.files.get? f with
  | none =>
    -- A file that is not there is none that may be written.
    rw [World.file, hget] at hwritable
    exact absurd hwritable (by decide)
  | some file =>
    have hfile : w.file f = file := by rw [World.file, hget, Option.getD_some]
    rw [hfile] at hkind hwritable hv
    have hwrites := hunwritten f file hget hv
    rw [OpenFile.writes, hwritable, Bool.and_true, OpenFile.isStream] at hwrites
    cases hcase : file.kind with
    | stream position =>
      rw [hcase] at hwrites
      cases hwrites
    | directory | path =>
      rw [hcase] at hkind
      cases hkind

theorem RamFs.write_seals (hn : (w.node n).volume ≠ v) (position : Nat) (data : ByteArray) :
    (write n position data).LeadsOnly (Seals v) w := by
  refine leads_query_bind fun ram _ => ?_
  split
  · split
    · exact leads_pure trivial
    · exact leads_demand_bind fun _ =>
        leads_bind (modifyNode_seals hn _ n) fun _ _ _ _ => leads_pure trivial
  · exact leads_query_bind fun _ _ => leads_demand_bind fun _ => leads_throw

theorem OpsKind.write_seals (o : OpsKind) {file : OpenFile} (hfile : (w.node file.node).volume ≠ v)
    (position : Nat) (data : ByteArray) : (o.write file position data).LeadsOnly (Seals v) w := by
  refine leads_note_bind ?_
  cases o with
  | ram => exact RamFs.write_seals hfile position data
  | bare => exact leads_throw
  | scripted meter script => exact leads_query_bind fun _ _ => leads_pure trivial

theorem writev_seals (hunwritten : w.Unwritten v) (t : TaskId) (h : Handle)
    (segments : List ByteArray) : (writev t h segments).LeadsOnly (Seals v) w := by
  refine leads_query_bind fun found hfound => leads_query_bind fun position _ => ?_
  have hn := writableOf_yields hunwritten t h found hfound
  exact leads_bind (found.2.2.write_seals hn position _) fun count w' _ _ =>
    leads_bind ((moveBy_does found.1 position count).seals w') fun _ _ _ _ => leads_pure trivial

theorem pwritev_seals (hunwritten : w.Unwritten v) (t : TaskId) (h : Handle) (position : Nat)
    (segments : List ByteArray) : (pwritev t h position segments).LeadsOnly (Seals v) w :=
  leads_query_bind fun found hfound =>
    found.2.2.write_seals (writableOf_yields hunwritten t h found hfound) position _

/-! ## Attributes -/

namespace RamFs

theorem setSize_seals (hn : (w.node n).volume ≠ v) (size : Nat) :
    (setSize n size).Leads (Seals v) w fun _ w' => (w'.node n).volume = (w.node n).volume := by
  refine leads_demand_bind fun _ => leads_query_bind fun ram _ => ?_
  split
  · exact modifyNode_seals hn _ n
  · exact leads_throw
  · exact leads_throw
  · exact leads_throw

theorem setPermissions_seals (hn : (w.node n).volume ≠ v) (perms : UInt32) :
    (Action.change (·.setPermissions n perms) : Act Unit).Leads (Seals v) w
      fun _ w' => (w'.node n).volume = (w.node n).volume := by
  have hsame : ∀ node : Node, ({ node with mode := Mode.make node.mode perms } : Node).volume =
      node.volume := fun _ => rfl
  exact leads_change (.single (World.seals_setNode hsame hn)) (World.volume_setNode hsame n)

theorem writeStatus_seals (hn : (w.node n).volume ≠ v) (status : Status) (mask : StatusMask) :
    (writeStatus n status mask).LeadsOnly (Seals v) w := by
  refine leads_query_bind fun _ _ => ?_
  refine leads_bind (leads_when (fun _ => setSize_seals hn _) fun _ => rfl) fun _ w₁ _ hsame₁ => ?_
  have hn₁ := hsame₁ ▸ hn
  refine leads_bind (leads_when (fun _ => setPermissions_seals hn₁ _) fun _ => rfl)
    fun _ w₂ _ hsame₂ => ?_
  exact (modifyNode_seals (hsame₂ ▸ hn₁) _ n).only

end RamFs

theorem writeStatus_seals (hreadOnly : (w.volume v).flags.isReadOnly = true) (t : TaskId)
    (h : Handle) (status : Status) (mask : StatusMask) :
    (writeStatus t h status mask).LeadsOnly (Seals v) w := by
  refine leads_query_bind fun found _ => leads_query_bind fun u hu => ?_
  obtain ⟨hvolume, hwritable⟩ := volumeForWriting_yields found.1.node u hu
  have hn := hvolume ▸ World.volume_ne_of_writable hreadOnly hwritable
  cases found.2 with
  | ram => exact RamFs.writeStatus_seals hn status mask
  | bare | scripted => exact leads_throw

/-! ## Operations -/

/-- **An operation leaves the files of a read-only volume sealed** on which no stream may be
written. -/
theorem Operation.seals (h : w.WellFormed) (hreadOnly : w.ReadOnly v)
    (hunwritten : w.Unwritten v) (op : Operation) : w.Seals v (op.run w) := by
  have hwhole := hreadOnly.isReadOnly
  have hidle : (@Operation.act standard op).Does World.Harmless True → w.Seals v (op.run w) := by
    intro hdoes
    have hsame : w.Harmless (op.act w).trace (op.act.after w) := (hdoes w).1
    rw [← op.run_eq_after] at hsame
    exact hsame.seals h (World.Edits.wellFormed (op.edits h) h) (op.exempts h hreadOnly)
  have hsealing : (@Operation.act standard op).Does (Sealing v) True → w.Seals v (op.run w) := by
    intro hdoes
    rw [op.run_eq_after]
    exact (hdoes w).1
  cases op with
  | openPath t base path flags mode =>
    exact .of_steps (openPath_seals hwhole t base path flags mode).1
  | openPinned t name flags => exact .of_steps (openPinned_seals hwhole t name flags).1
  | reopen t h => exact .of_steps (reopen_seals hwhole t h).1
  | writev t h segments => exact .of_steps (writev_seals hunwritten t h segments).1
  | pwritev t h position segments =>
    exact .of_steps (pwritev_seals hunwritten t h position segments).1
  | writeStatus t h status mask => exact .of_steps (writeStatus_seals hwhole t h status mask).1
  | readv t h buffers => exact hsealing (readv_does standard_discreet t h buffers).filling
  | seek t h offset origin => exact hsealing (seek_does standard_discreet t h offset origin).only
  | setFlags t h flags => exact hsealing (setFlags_does t h flags).only
  | close | duplicate | duplicateTo | closeAll | retireContext =>
    refine hsealing (Operation.Tabular.does ?_)
    exact True.intro
  | nextEntry | rewind =>
    refine hsealing (Operation.Turning.does standard_discreet ?_)
    exact True.intro
  | preadv | control | makeDirectory | removeDirectory | unlink | makeSymlink | rename
  | changeDirectory | changeDirectoryTo | mount | addDevice | moveDevice | withdrawDevice | hold
  | release | addContext | addTask | setDepth =>
    refine hidle (Operation.Aloof.does standard_discreet standard_harmless ?_)
    exact True.intro

end VirtualFs
