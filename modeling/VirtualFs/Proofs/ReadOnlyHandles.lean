/-
Handles that are not open for writing. Whatever is asked of such a handle, or of one
that came from it by duplicating or opening once more, the bytes of every file stay as
they are, with one exception: a change of attributes may set the size, for which it is
enough that the file is open for more than its path. What is written needs a handle
that is open for writing, and so does what is emptied on opening; the size does not.
-/
import VirtualFs.Proofs.AccessModes

namespace VirtualFs

open World (Moving Turning Tabular)
open VirtualFs.Action (does_pure does_throw does_look does_bind does_change does_when
  leads_bind leads_throw leads_query_bind leads_demand_bind leads_change leads_when)

/-! ## Bytes that are kept -/

namespace World

/-- The files that are left of those there were hold the same bytes. -/
structure KeepsBytes (w w' : World) : Prop where
  nextKey : w.nodes.nextKey ≤ w'.nodes.nextKey
  node : ∀ n < w.nodes.nextKey, ∀ node', w'.nodes.get? n = some node' →
    ∃ node, w.nodes.get? n = some node ∧ node'.bytes? = node.bytes?

/-- A stretch of a run in which files keep their bytes, whatever is seen. -/
def Conserving (w : World) (_ : List Event) (w' : World) : Prop := w.KeepsBytes w'

variable {w w' w'' : World} {n : NodeId}

theorem KeepsBytes.of_nodes (h : w'.nodes = w.nodes) : w.KeepsBytes w' where
  nextKey := by rw [h]
  node n _ node' hnode' := ⟨node', by rw [← h]; exact hnode', rfl⟩

theorem KeepsBytes.refl (w : World) : w.KeepsBytes w := .of_nodes rfl

theorem KeepsBytes.trans (h : w.KeepsBytes w') (h' : w'.KeepsBytes w'') : w.KeepsBytes w'' where
  nextKey := Nat.le_trans h.nextKey h'.nextKey
  node n hn node'' hnode'' := by
    obtain ⟨node', hnode', hbytes'⟩ := h'.node n (Nat.lt_of_lt_of_le hn h.nextKey) node'' hnode''
    obtain ⟨node, hnode, hbytes⟩ := h.node n hn node' hnode'
    exact ⟨node, hnode, hbytes'.trans hbytes⟩

theorem KeepsBytes.bytes (h : w.KeepsBytes w') (hn : w.Live n) (hn' : w'.Live n) :
    (w'.node n).bytes? = (w.node n).bytes? := by
  obtain ⟨node, hnode, hbytes⟩ := h.node n hn.lt _ hn'.get?
  obtain rfl : node = w.node n := Option.some.inj (hnode.symm.trans hn.get?)
  exact hbytes

theorem keepsBytes_sweep (w : World) : w.KeepsBytes w.sweep where
  nextKey := Nat.le_of_eq (Arena.nextKey_keep _ _).symm
  node _ _ node' hnode' := ⟨node', Arena.get?_of_keep hnode', rfl⟩

/-- A node may change in all but its bytes. -/
theorem keepsBytes_setNode (n : NodeId) {f : Node → Node}
    (hf : ∀ node, (f node).bytes? = node.bytes?) : w.KeepsBytes (w.setNode n f) where
  nextKey := by simp
  node m _ node' hnode' := by
    obtain ⟨node, hnode, rfl | rfl⟩ := Arena.exists_get?_of_modify hnode'
    · exact ⟨_, hnode, rfl⟩
    · exact ⟨node, hnode, hf node⟩

instance : Stretch Conserving where
  quiet _ := .refl _
  trans h h' := KeepsBytes.trans h h'

instance : Moving Conserving where
  beside h :=
    { nextKey := Nat.le_of_eq h.nextKey.symm
      node := fun n _ node' hnode' => by
        have hsame := h.node n
        rw [hnode'] at hsame
        obtain ⟨node, hnode, heq⟩ := Option.map_eq_some_iff.1 hsame.symm
        exact ⟨node, hnode, (congrArg Node.bytes? heq).symm⟩ }
  settled := settle_related .refl (fun h h' => h.trans h') keepsBytes_sweep
  moved _ _ _ := .of_nodes rfl
  flagged _ _ _ := .of_nodes rfl

instance : Turning Conserving where
  turned _ _ _ := .of_nodes rfl

instance : Tabular Conserving where
  seen _ h := h
  tables _ _ _ := .of_nodes rfl
  removed _ _ := .of_nodes rfl

end World

open World (KeepsBytes Conserving)

theorem Action.Does.keepsBytes {α : Type} {x : Act α} {full : Prop} (h : x.Does Conserving full)
    (w : World) : w.KeepsBytes (x.after w) := (h w).1

/-! ## Handles that only read -/

/-- What a task's handle stands for is not open for writing. -/
def World.OnlyReads (w : World) (t : TaskId) (h : Handle) : Prop :=
  ∀ file, (openFileOf t h w).result = .ok file → file.flags.writable = false

/-- A node that is not opened for writing is not emptied, either. -/
theorem openFound_conserves (n : NodeId) {flags : OpenFlags} (hflags : flags.writable = false) :
    (openFound n flags).Does Conserving True := fun w => by
  rw [openFound_world (by rw [hflags, Bool.and_false])]
  exact ⟨.refl w, fun _ => trivial⟩

theorem commitFile_conserves (c : ContextId) (handle : Handle) (file : OpenFile) :
    (commitFile c handle file).Does Conserving True := by
  have hadd : (addFile file).Does Conserving True :=
    does_bind (does_look _) fun _ =>
      does_bind (does_change fun _ => .of_nodes rfl) fun _ => does_pure _
  refine does_bind (does_any _) fun bindable => ?_
  cases bindable with
  | error e => exact does_bind (does_any _) fun _ => does_throw fun _ => trivial
  | ok => exact does_bind hadd fun _ => does_bind (bindHandle_does c handle _) fun _ => does_pure _

section

variable {w : World} {t : TaskId} {h : Handle} (hreads : w.OnlyReads t h)

include hreads

theorem reopen_keepsBytes : w.KeepsBytes ((reopen t h).after w) := by
  rcases hfile : (openFileOf t h w).result with e | file
  · rw [Action.after, (Prod.mk.inj (ended_reopen_error hfile)).2]
    exact .refl w
  · have hflags : (file.flags.without OpenFlags.truncateBit).writable = false :=
      (file.flags.writable_without (by decide)).trans (hreads file hfile)
    have hopens : (openInto (w.contextOf t h.isKernel) (reopening file)).Does Conserving True :=
      withReserved_does _ fun copy => does_bind
        (does_bind (openFound_conserves file.node hflags) fun _ => does_pure _)
          fun fresh => commitFile_conserves _ copy fresh
    have hended := ended_reopen hfile
    rw [Action.after, (Prod.mk.inj hended).2]
    exact hopens.keepsBytes w

/-- There is nothing to write to. -/
theorem writableOf_ne_ok (found : FileId × OpenFile × OpsKind) :
    (writableOf t h w).result ≠ .ok found := by
  intro hfound
  obtain ⟨hf, hfile, -⟩ := streamOf_found (writableOf_found hfound)
  obtain ⟨_, -, hfound⟩ := Query.result_bind_eq_ok.1 hfound
  obtain ⟨_, hwritable, hfound⟩ := Query.result_bind_eq_ok.1 hfound
  cases hfound
  rw [Query.result_demand_eq_ok,
    hreads _ (Query.result_bind_eq_ok.2 ⟨_, hf, congrArg _ hfile.symm⟩)] at hwritable
  cases hwritable

theorem after_of_writableOf {α : Type} (rest : FileId × OpenFile × OpsKind → Act α) :
    ((liftM (writableOf t h) : Act _) >>= rest).after w = w := by
  refine Action.Leads.world_eq (Q := fun _ _ => True) (leads_query_bind fun found hfound => ?_)
  exact absurd hfound (writableOf_ne_ok hreads found)

end

/-! ## Attributes -/

theorem Node.bytes?_applyStatus (node : Node) (status : Status) (mask : StatusMask) :
    (node.mapRam fun ram => RamFs.applyStatus ram status mask).bytes? = node.bytes? := by
  cases hpayload : node.payload with
  | ram ram => simp only [Node.mapRam, Node.bytes?, hpayload, RamFs.applyStatus]
  | scripted children => simp only [Node.mapRam, Node.bytes?, hpayload]

/-- What is changed of a node besides its size is not bytes. -/
theorem writeAttributes_conserves (n : NodeId) (status : Status) (mask : StatusMask) :
    (RamFs.writeAttributes n status mask).Does Conserving True := by
  have hpermissions (w : World) : w.KeepsBytes (w.setPermissions n status.mode) :=
    World.keepsBytes_setNode n fun _ => rfl
  have happly (w : World) : w.KeepsBytes (w.setNode n fun node =>
      node.mapRam fun ram => RamFs.applyStatus ram status mask) :=
    World.keepsBytes_setNode n fun node => node.bytes?_applyStatus status mask
  exact does_bind (does_when (does_change hpermissions)) fun _ => does_change happly

/-- Files keep their bytes, but that one may have been cut or extended to a size. -/
structure World.Resizes (n : NodeId) (size : Nat) (w w' : World) : Prop where
  nextKey : w.nodes.nextKey ≤ w'.nodes.nextKey
  bytes : ∀ m, w.Live m → w'.Live m → (w'.node m).bytes? = (w.node m).bytes? ∨
    m = n ∧ (w'.node m).bytes? = (w.node m).bytes?.map fun bytes => Bytes.resize bytes size

namespace World.Resizes

variable {w w' w'' : World} {n : NodeId} {size : Nat}

theorem refl (w : World) : w.Resizes n size w := ⟨Nat.le_refl _, fun _ _ _ => .inl rfl⟩

theorem keepsBytes (h : w.Resizes n size w') (h' : w'.KeepsBytes w'') : w.Resizes n size w'' where
  nextKey := Nat.le_trans h.nextKey h'.nextKey
  bytes m hm hm'' := by
    obtain ⟨node', hnode', -⟩ := h'.node m (Nat.lt_of_lt_of_le hm.lt h.nextKey) _ hm''.get?
    have hm' : w'.Live m := live_iff.2 ⟨node', hnode'⟩
    rw [h'.bytes hm' hm'']
    exact h.bytes m hm hm'

theorem withBytes {bytes : ByteArray} (hold : (w.node n).bytes? = some bytes) :
    w.Resizes n size (w.withBytes n (Bytes.resize bytes size)) where
  nextKey := Nat.le_of_eq nextKey_setNode.symm
  bytes m _ _ := by
    rw [bytes?_withBytes hold]
    split
    · next heq =>
      subst heq
      exact .inr ⟨rfl, by rw [hold, Option.map_some]⟩
    · exact .inl rfl

end World.Resizes

theorem bytes?_of_nodeOf {w : World} {n : NodeId} {ram : RamNode} {bytes : ByteArray}
    (hram : (RamFs.nodeOf n w).result = .ok ram) (hcontent : ram.content = .file bytes) :
    (w.node n).bytes? = some bytes := by
  rw [RamFs.nodeOf, Query.look_bind] at hram
  cases hpayload : (w.node n).payload with
  | ram found =>
    rw [hpayload] at hram
    cases hram
    simp only [Node.bytes?, hpayload, hcontent]
  | scripted children =>
    rw [hpayload] at hram
    cases hram

/-- Without a size to set, a change of attributes is none of bytes. -/
theorem OpsKind.writeStatus_conserves (o : OpsKind) (v : VolumeKey) (n : NodeId) (status : Status)
    {mask : StatusMask} (hmask : mask.size = false) :
    (o.writeStatus v n status mask).Does Conserving True := by
  cases o with
  | bare | scripted => exact does_throw fun _ => trivial
  | ram =>
    rw [writeStatus_ram, hmask, Action.when, if_neg Bool.false_ne_true]
    exact does_bind (does_any _) fun _ => does_bind (does_pure ()) fun _ =>
      writeAttributes_conserves n status mask

/-- A change of attributes sets the size of no other node than the one it is about. -/
theorem OpsKind.writeStatus_resizes (o : OpsKind) (v : VolumeKey) (n : NodeId) (status : Status)
    (mask : StatusMask) {w : World} :
    (o.writeStatus v n status mask).LeadsOnly
      (fun u u' => w.Resizes n status.size u → w.Resizes n status.size u') w := by
  cases o with
  | bare | scripted => exact leads_throw
  | ram =>
    rw [writeStatus_ram]
    refine leads_query_bind fun _ _ => leads_bind (P := fun _ _ => True)
      (leads_when (fun _ => leads_demand_bind fun _ => leads_query_bind fun ram hram => ?_)
        fun _ => trivial) fun _ u _ _ => ?_
    · split
      · next bytes hcontent =>
        exact leads_change (.single fun _ => .withBytes (bytes?_of_nodeOf hram hcontent)) trivial
      all_goals exact leads_throw
    · have hkeeps := (writeAttributes_conserves n status mask).keepsBytes u
      exact ⟨.single fun h => h.keepsBytes hkeeps, fun _ _ => trivial⟩

/-! ## What is asked of a handle -/

/-- A call on a handle, with its other arguments. -/
inductive HandleCall where
  | readv (buffers : List ByteArray)
  | preadv (position : Nat) (buffers : List ByteArray)
  | readFully (buffer : ByteArray)
  | preadFully (position : Nat) (buffer : ByteArray)
  | writev (segments : List ByteArray)
  | pwritev (position : Nat) (segments : List ByteArray)
  | writeFully (data : ByteArray)
  | pwriteFully (position : Nat) (data : ByteArray)
  | seek (offset : Int) (origin : SeekOrigin)
  | flush
  | control (request : UInt32) (input buffer : ByteArray)
  | handleStatus
  | writeStatus (status : Status) (mask : StatusMask)
  | flagsOf
  | setFlags (flags : OpenFlags)
  | nextEntry
  | remainingEntries
  | rewind
  | directoryPath (capacity : Nat)
  | changeDirectoryTo
  | duplicate
  | duplicateTo (target : Handle)
  | reopen
  | close

namespace HandleCall

/-- The world that a call on a task's handle leaves. -/
def run (t : TaskId) (h : Handle) : HandleCall → World → World
  | readv buffers => (VirtualFs.readv t h buffers).after
  | preadv position buffers => (VirtualFs.preadv t h position buffers).after
  | readFully buffer => (VirtualFs.readFully t h buffer).after
  | preadFully position buffer => (VirtualFs.preadFully t h position buffer).after
  | writev segments => (VirtualFs.writev t h segments).after
  | pwritev position segments => (VirtualFs.pwritev t h position segments).after
  | writeFully data => (VirtualFs.writeFully t h data).after
  | pwriteFully position data => (VirtualFs.pwriteFully t h position data).after
  | seek offset origin => (VirtualFs.seek t h offset origin).after
  | flush => (liftM (VirtualFs.flush t h) : Act Unit).after
  | control request input buffer => (VirtualFs.control t h request input buffer).after
  | handleStatus => (liftM (VirtualFs.handleStatus t h) : Act Status).after
  | writeStatus status mask => (VirtualFs.writeStatus t h status mask).after
  | flagsOf => (liftM (VirtualFs.flagsOf t h) : Act OpenFlags).after
  | setFlags flags => (VirtualFs.setFlags t h flags).after
  | nextEntry => (VirtualFs.nextEntry t h).after
  | remainingEntries => (VirtualFs.remainingEntries t h).after
  | rewind => (VirtualFs.rewind t h).after
  | directoryPath capacity => (liftM (VirtualFs.directoryPath t h capacity) : Act String).after
  | changeDirectoryTo => (VirtualFs.changeDirectoryTo t h).after
  | duplicate => (VirtualFs.duplicate t h).after
  | duplicateTo target => (VirtualFs.duplicateTo t h target).after
  | reopen => (VirtualFs.reopen t h).after
  | close => (VirtualFs.close t h).after

/-- Sets the size of a file. -/
def setsSize : HandleCall → Bool
  | writeStatus _ mask => mask.size
  | _ => false

end HandleCall

theorem takeEntries_conserves (t : TaskId) (h : Handle) (count : Nat) :
    (takeEntries t h count).Does Conserving True := by
  induction count with
  | zero => exact does_pure []
  | succ count ih =>
    refine does_bind (nextEntry_does standard_discreet t h) fun found => ?_
    cases found with
    | none => exact does_pure []
    | some entry => exact does_bind ih fun _ => does_pure _

section

variable {w : World} {t : TaskId} {h : Handle}

/-- **A handle that is not open for writing changes no bytes**, unless it sets a size. -/
theorem HandleCall.keepsBytes (hreads : w.OnlyReads t h) (call : HandleCall)
    (hcall : call.setsSize = false) : w.KeepsBytes (call.run t h w) := by
  have htabular (op : Operation) (hop : op.Tabular) : w.KeepsBytes (op.run w) := by
    rw [op.run_eq_after]
    exact (Operation.Tabular.does hop).keepsBytes w
  cases call with
  | readv buffers => exact (readv_does standard_discreet t h buffers).keepsBytes w
  | preadv position buffers =>
    exact (preadv_does standard_discreet t h position buffers).keepsBytes w
  | readFully buffer =>
    have hdoes : (VirtualFs.readFully t h buffer).Does Conserving True := by
      rw [VirtualFs.readFully, ← bind_pure_comp]
      exact does_bind (readv_does standard_discreet t h [buffer]) fun _ => does_pure _
    exact hdoes.keepsBytes w
  | preadFully position buffer =>
    have hdoes : (VirtualFs.preadFully t h position buffer).Does Conserving True := by
      rw [VirtualFs.preadFully, ← bind_pure_comp]
      exact does_bind (preadv_does standard_discreet t h position [buffer]) fun _ => does_pure _
    exact hdoes.keepsBytes w
  | writev segments =>
    rw [run, VirtualFs.writev, after_of_writableOf hreads]
    exact .refl w
  | pwritev position segments =>
    rw [run, VirtualFs.pwritev, after_of_writableOf hreads]
    exact .refl w
  | writeFully data =>
    rw [run, VirtualFs.writeFully, VirtualFs.writev, bind_assoc, after_of_writableOf hreads]
    exact .refl w
  | pwriteFully position data =>
    rw [run, VirtualFs.pwriteFully, VirtualFs.pwritev, bind_assoc, after_of_writableOf hreads]
    exact .refl w
  | seek offset origin => exact (seek_does standard_discreet t h offset origin).keepsBytes w
  | flush | handleStatus | flagsOf | directoryPath => exact .refl w
  | control request input buffer =>
    exact (control_does standard_discreet t h request input buffer).keepsBytes w
  | writeStatus status mask =>
    have hdoes : (VirtualFs.writeStatus t h status mask).Does Conserving True :=
      does_bind (does_any _) fun found => does_bind (does_any _) fun v =>
        found.2.writeStatus_conserves v found.1.node status hcall
    exact hdoes.keepsBytes w
  | setFlags flags => exact (setFlags_does t h flags).keepsBytes w
  | nextEntry => exact (nextEntry_does standard_discreet t h).keepsBytes w
  | remainingEntries =>
    have hdoes : (VirtualFs.remainingEntries t h).Does Conserving True :=
      does_bind (does_any _) fun file => does_bind (does_any _) fun bound =>
        takeEntries_conserves t h bound
    exact hdoes.keepsBytes w
  | rewind => exact (rewind_does t h).keepsBytes w
  | changeDirectoryTo => exact (changeDirectoryTo_does t h).keepsBytes w
  | duplicate => exact htabular (.duplicate t h) True.intro
  | duplicateTo target => exact htabular (.duplicateTo t h target) True.intro
  | close => exact htabular (.close t h) True.intro
  | reopen => exact reopen_keepsBytes hreads

/-- **A handle's call that sets a size** does so to the file of the handle, and to no other. -/
theorem HandleCall.resizes (status : Status) (mask : StatusMask) :
    w.KeepsBytes ((writeStatus status mask).run t h w) ∨
      ∃ file, (openFileOf t h w).result = .ok file ∧
        w.Resizes file.node status.size ((writeStatus status mask).run t h w) := by
  cases hfile : (openFileOf t h w).result with
  | error e =>
    have hended : (VirtualFs.writeStatus t h status mask).ended w = (.error e, w) := by
      refine Action.ended_query_bind_error ?_
      rw [operableOf, Query.result_bind, hfile]
      rfl
    rw [run, Action.after, (Prod.mk.inj hended).2]
    exact .inl (.refl w)
  | ok file =>
    refine .inr ⟨file, rfl, Action.Leads.kept (P := w.Resizes file.node status.size) ?_ (.refl w)⟩
    refine leads_query_bind fun found hfound => leads_query_bind fun v _ => ?_
    obtain ⟨file', hfile', hfound⟩ := Query.result_bind_eq_ok.1 hfound
    obtain ⟨_, -, hfound⟩ := Query.result_bind_eq_ok.1 hfound
    obtain ⟨o, -, hfound⟩ := Query.result_bind_eq_ok.1 hfound
    cases hfound
    cases hfile'.symm.trans hfile
    exact o.writeStatus_resizes v file.node status mask

end

/-! ## Handles that come from a handle -/

namespace World

/-- A task's handle comes from another along a run: it is the other, or it was duplicated or opened
once more from one that comes from it, and has stood for the same open file ever since, whatever
else was done. -/
inductive Descends (w : World) (t : TaskId) (h : Handle) : World → TaskId → Handle → Prop where
  | refl : Descends w t h w t h
  | kept {w' : World} {t' : TaskId} {h' : Handle} (op : Operation) : Descends w t h w' t' h' →
      (fileOf t' h' (op.run w')).result = (fileOf t' h' w').result →
        Descends w t h (op.run w') t' h'
  | shared {w' : World} {t' t'' : TaskId} {h' : Handle} : Descends w t h w' t' h' →
      (fileOf t'' h' w').result = (fileOf t' h' w').result → Descends w t h w' t'' h'
  | duplicate {w' : World} {t' : TaskId} {h' copy : Handle} : Descends w t h w' t' h' →
      (VirtualFs.duplicate t' h' w').result = .ok copy →
        Descends w t h ((Operation.duplicate t' h').run w') t' copy
  | duplicateTo {w' : World} {t' : TaskId} {h' target copy : Handle} : Descends w t h w' t' h' →
      (VirtualFs.duplicateTo t' h' target w').result = .ok copy →
        Descends w t h ((Operation.duplicateTo t' h' target).run w') t' copy
  | reopen {w' : World} {t' : TaskId} {h' copy : Handle} : Descends w t h w' t' h' →
      (VirtualFs.reopen t' h' w').result = .ok copy →
        Descends w t h ((Operation.reopen t' h').run w') t' copy

variable {w w' : World} {t t' : TaskId} {h h' : Handle}

/-- Only what is open under a handle counts. -/
theorem OnlyReads.of_fileOf {t'' : TaskId} {h'' : Handle} (hreads : w.OnlyReads t h)
    (hmodes : w.SameModes w') (hw : w.Orderly)
    (hfile : (fileOf t'' h'' w').result = (fileOf t h w).result) : w'.OnlyReads t'' h'' := by
  intro file' hfile'
  obtain ⟨f, hf', hlook'⟩ := Query.result_bind_eq_ok.1 hfile'
  obtain rfl : w'.file f = file' := Except.ok.inj hlook'
  have hf : (fileOf t h w).result = .ok f := hfile.symm.trans hf'
  have hopen : w.files.has f = true := hw.has_of_found ((result_fileOf t h).symm.trans hf)
  rw [World.file]
  cases hget' : w'.files.get? f with
  | none => rfl
  | some file' =>
    obtain ⟨file, hget, hmode⟩ := hmodes.file f (Arena.lt_nextKey_of_has hopen) file' hget'
    have hfile : (openFileOf t h w).result = .ok file := by
      refine Query.result_bind_eq_ok.2 ⟨f, hf, ?_⟩
      rw [Query.result_look, World.file, hget, Option.getD_some]
    rw [Option.getD_some, OpenFlags.writable, hmode]
    exact hreads file hfile

/-- What comes from a handle that only reads only reads. -/
theorem Descends.onlyReads (hkept : w.Kept []) (hw : w.WellFormed) (hreads : w.OnlyReads t h)
    (hdescends : w.Descends t h w' t' h') :
    w'.OnlyReads t' h' ∧ w'.Kept [] ∧ w'.WellFormed := by
  have hstep (op : Operation) {w' : World} (hkept : w'.Kept []) (hw : w'.WellFormed) :
      (op.run w').Kept [] ∧ (op.run w').WellFormed :=
    ⟨op.kept_run hkept hw, Edits.wellFormed (op.edits hw) hw⟩
  induction hdescends with
  | refl => exact ⟨hreads, hkept, hw⟩
  | @kept w' t' h' op _ hfile ih =>
    obtain ⟨hreads, hkept, hw⟩ := ih
    exact ⟨hreads.of_fileOf (op.sameModes w') hkept.orderly hfile, hstep op hkept hw⟩
  | shared _ hfile ih =>
    obtain ⟨hreads, hkept, hw⟩ := ih
    exact ⟨hreads.of_fileOf (.refl _) hkept.orderly hfile, hkept, hw⟩
  | duplicate _ hok ih =>
    obtain ⟨hreads, hkept, hw⟩ := ih
    exact ⟨hreads.of_fileOf (Operation.sameModes _ _) hkept.orderly
      (duplicate_fileOf hkept.orderly hok), hstep _ hkept hw⟩
  | duplicateTo _ hok ih =>
    obtain ⟨hreads, hkept, hw⟩ := ih
    exact ⟨hreads.of_fileOf (Operation.sameModes _ _) hkept.orderly
      (duplicateTo_fileOf hkept.orderly hok), hstep _ hkept hw⟩
  | @reopen w' t' h' copy _ hok ih =>
    obtain ⟨hreads, hkept, hw⟩ := ih
    refine ⟨fun fresh' hfresh' => ?_, hstep _ hkept hw⟩
    obtain ⟨file, hfile, -⟩ := Action.result_bind_eq_ok.1 hok
    obtain ⟨fresh, hfresh, hmode⟩ := reopen_openFileOf hkept.orderly hfile hok
    cases hfresh'.symm.trans hfresh
    rw [OpenFlags.writable, hmode]
    exact hreads file hfile

end World

/-- **A handle that is not open for writing cannot change a file's bytes, but for its size.** In
every state an instance comes to, whatever a handle is asked that only reads, or one that came from
it on the way: every file that is left holds the bytes it held; only that a change of attributes
which sets the size may have cut or extended the handle's own file. -/
theorem HandleCall.bytes_or_resized {w₀ w : World} (hw : w₀.Reachable) {t₀ t : TaskId}
    {h₀ h : Handle} (hreads : w₀.OnlyReads t₀ h₀) (hdescends : w₀.Descends t₀ h₀ w t h)
    (call : HandleCall) (n : NodeId) (hn : w.Live n) (hn' : (call.run t h w).Live n) :
    ((call.run t h w).node n).bytes? = (w.node n).bytes? ∨
      ∃ status mask file, call = .writeStatus status mask ∧ mask.size = true ∧
        (openFileOf t h w).result = .ok file ∧ file.node = n ∧
          ((call.run t h w).node n).bytes? =
            (w.node n).bytes?.map fun bytes => Bytes.resize bytes status.size := by
  obtain ⟨hreads, -, -⟩ := hdescends.onlyReads hw.kept hw.wellFormed hreads
  cases hcall : call.setsSize with
  | false => exact .inl ((call.keepsBytes hreads hcall).bytes hn hn')
  | true =>
    cases call with
    | writeStatus status mask =>
      rcases HandleCall.resizes status mask with hkeeps | ⟨file, hfile, hresizes⟩
      · exact .inl (hkeeps.bytes hn hn')
      · rcases hresizes.bytes n hn hn' with hsame | ⟨rfl, hresized⟩
        · exact .inl hsame
        · exact .inr ⟨status, mask, file, rfl, hcall, hfile, rfl, hresized⟩
    | _ => cases hcall

/-- A file of three bytes is written, closed, and opened for reading. -/
def Operation.openForReading : List Operation :=
  [.addContext false, .addTask 1,
    .openPath 0 none "/f" ⟨OpenFlags.createBit ||| OpenFlags.writeOnlyMode⟩ 0o644,
    .writev 0 ⟨0⟩ [⟨#[97, 98, 99]⟩], .close 0 ⟨0⟩, .openPath 0 none "/f" {} 0]

theorem onlyReads_openForReading :
    (Operation.runAll Operation.openForReading (World.fresh {})).OnlyReads 0 ⟨0⟩ := by
  intro file hfile
  have hopen : (openFileOf 0 ⟨0⟩
      (Operation.runAll Operation.openForReading (World.fresh {}))).result =
        .ok { node := 2, flags := {}, kind := .stream 0 } := by decide +kernel
  cases hfile.symm.trans hopen
  rfl

/-- A duplicate of a handle for reading does not write. -/
theorem HandleCall.bytes_or_resized_openForReading :
    let w₀ := Operation.runAll Operation.openForReading (World.fresh {})
    let w := (Operation.duplicate 0 ⟨0⟩).run w₀
    let call := HandleCall.pwritev 0 [⟨#[100]⟩]
    (w₀.Reachable ∧ w₀.OnlyReads 0 ⟨0⟩ ∧ w₀.Descends 0 ⟨0⟩ w 0 ⟨1⟩ ∧ w.Live 2 ∧
      (call.run 0 ⟨1⟩ w).Live 2) ∧
        ((call.run 0 ⟨1⟩ w).node 2).bytes? = (w.node 2).bytes? ∧
          (w.node 2).bytes? = some ⟨#[97, 98, 99]⟩ := by
  intro w₀ w call
  have hreachable : w₀.Reachable := ⟨{}, World.steps_runAll _ _⟩
  have hdescends : w₀.Descends 0 ⟨0⟩ w 0 ⟨1⟩ := .duplicate .refl (by decide +kernel)
  have hlive : w.Live 2 := by decide +kernel
  have hlive' : (call.run 0 ⟨1⟩ w).Live 2 := by decide +kernel
  refine ⟨⟨hreachable, onlyReads_openForReading, hdescends, hlive, hlive'⟩, ?_, by decide +kernel⟩
  rcases HandleCall.bytes_or_resized hreachable onlyReads_openForReading hdescends call 2 hlive
    hlive' with hsame | ⟨_, _, _, hcall, -⟩
  · exact hsame
  · exact HandleCall.noConfusion hcall

/-- Through a handle for reading, a file of three bytes is cut to one. -/
theorem HandleCall.read_only_resizes :
    let w := Operation.runAll Operation.openForReading (World.fresh {})
    let w' := (HandleCall.writeStatus { size := 1 } ⟨8⟩).run 0 ⟨0⟩ w
    w.Reachable ∧ w.OnlyReads 0 ⟨0⟩ ∧ w.Descends 0 ⟨0⟩ w 0 ⟨0⟩ ∧ w.Live 2 ∧ w'.Live 2 ∧
      (w.node 2).bytes? = some ⟨#[97, 98, 99]⟩ ∧ (w'.node 2).bytes? = some ⟨#[97]⟩ :=
  ⟨⟨{}, World.steps_runAll _ _⟩, onlyReads_openForReading, .refl, by decide +kernel,
    by decide +kernel, by decide +kernel, by decide +kernel⟩

end VirtualFs
