/-
Operations that neither open nor close, told once for whatever one wants to know
of them. A relation between the worlds before and after follows them if it
follows what they are made of: the changes that drivers make, and what the
library does beside the trees (`World.Aloof`). Operations that also move an open
stream or an open directory ask for that much more (`World.Moving`,
`World.Turning`).
-/
import VirtualFs.Proofs.Reachable
import VirtualFs.Proofs.TableState

namespace VirtualFs

open VirtualFs.Action (does_pure does_throw does_look does_world does_note does_query does_bind
  does_change does_when does_attempt does_orUndo)

namespace World

/-- The trees and the open files are as they were, but for what is mounted on nodes, and so are the
tables and whose they are, but for new ones, which are empty. -/
structure Beside (w w' : World) : Prop where
  files : w'.files = w.files
  nextKey : w'.nodes.nextKey = w.nodes.nextKey
  node : ∀ n, (w'.nodes.get? n).map (fun node => { node with mountRoot := none }) =
    (w.nodes.get? n).map fun node => { node with mountRoot := none }
  neat : ∀ (c : ContextId) context', w'.contexts[c]? = some context' →
    context'.files.Neat context'.files.limit ∨
      ∃ context, w.contexts[c]? = some context ∧ context'.files = context.files
  slots : w'.numbering.slot = w.numbering.slot
  kernel : ∀ (c : ContextId) context, w.contexts[c]? = some context →
    ∃ context', w'.contexts[c]? = some context' ∧ context'.kernel = context.kernel

/-- Follows what is done beside the trees. -/
class Aloof (R : World → List Event → World → Prop) : Prop extends Stretch R where
  beside : ∀ {w w'}, w.Beside w' → R w [] w'
  settled : ∀ w, R w [] w.settle

/-- Follows a stream that is moved, too. -/
class Moving (R : World → List Event → World → Prop) : Prop extends Aloof R where
  moved : ∀ w f position, R w [] (w.setFile f fun file => file.setPosition position)
  flagged : ∀ w f flags,
    R w [] (w.setFile f fun file => { file with flags := file.flags.withStatus flags })

/-- Follows a directory that is read, too. -/
class Turning (R : World → List Event → World → Prop) : Prop extends Aloof R where
  turned : ∀ w f (cursor : OpenFile → Nat),
    R w [] (w.setFile f fun file => file.setCursor (cursor file))

/-- Follows what happens to the tables, too, whatever is seen. -/
class Tabular (R : World → List Event → World → Prop) : Prop extends Aloof R where
  seen : ∀ {w t w'} t', R w t w' → R w t' w'
  tables : ∀ w c files, R w [] (w.setContext c fun context => { context with files })
  removed : ∀ w f, R w [] { w with files := w.files.remove f }

end World

/-- Drivers change names in a way that is followed, and so do devices. -/
structure Backends.Names [Backends] (R : World → List Event → World → Prop) : Prop where
  mount : ∀ kind id device flags args,
    ((Backends.driver kind).mount id device flags args).Does R True
  createDirectory : ∀ kind volume parent name mode,
    ((Backends.driver kind).createDirectory volume parent name mode).Does R True
  createSymlink : ∀ kind volume parent name target,
    ((Backends.driver kind).createSymlink volume parent name target).Does R True
  rename : ∀ kind volume oldParent oldName newParent newName mustBeDirectory,
    ((Backends.driver kind).rename volume oldParent oldName newParent newName
      mustBeDirectory).Does R True
  unlink : ∀ kind volume parent name,
    ((Backends.driver kind).unlink volume parent name).Does R True
  removeDirectory : ∀ kind volume parent name,
    ((Backends.driver kind).removeDirectory volume parent name).Does R True
  publish : ∀ volume path ops, (RamFs.publishDevice volume path ops).Does R True
  move : ∀ volume ino path, (RamFs.moveDevice volume ino path).Does R True
  withdraw : ∀ volume ino, (RamFs.withdrawDevice volume ino).Does R True

/-- Operations write in a way that is followed. -/
structure Backends.Writes [Backends] (R : World → List Event → World → Prop) : Prop where
  write : ∀ kind file position data, ((Backends.ops kind).write file position data).Does R True
  writeStatus : ∀ kind volume n status mask,
    ((Backends.ops kind).writeStatus volume n status mask).Does R True

variable {R : World → List Event → World → Prop}

theorem Action.does_discreet [Stretch R] {α : Type} {full : Prop} {q : Query α}
    (h : q.Discreet full) : (liftM q : Act α).Does R True :=
  does_query (h.mono fun _ => trivial)

open VirtualFs.Action (does_discreet)

/-! ## Beside the trees -/

namespace World

variable {w : World}

/-- What is held under a name, tasks, volumes and their table have nothing to do with the trees. -/
theorem Beside.of_fields {w' : World} (hfiles : w'.files = w.files) (hnodes : w'.nodes = w.nodes)
    (hcontexts : w'.contexts = w.contexts) : w.Beside w' where
  files := hfiles
  nextKey := by rw [hnodes]
  node n := by rw [hnodes]
  neat c context' hget := .inr ⟨context', by rw [← hcontexts]; exact hget, rfl⟩
  slots := by
    refine funext fun c => funext fun i => ?_
    rw [numbering_slot, numbering_slot, World.context, World.context, hcontexts]
  kernel c context hget := ⟨context, by rw [hcontexts]; exact hget, rfl⟩

theorem Beside.node_eq {w' : World} (h : w.Beside w') (n : NodeId) :
    { w'.node n with mountRoot := none } = { w.node n with mountRoot := none } := by
  have hnode := h.node n
  rw [World.node, World.node]
  cases hget : w.nodes.get? n with
  | none =>
    rw [hget] at hnode
    rw [Option.map_eq_none_iff.1 hnode]
  | some node =>
    rw [hget] at hnode
    obtain ⟨node', hget', hsame⟩ := Option.map_eq_some_iff.1 hnode
    rw [hget']
    exact hsame

/-- Whose tables are the kernel's does not depend on what else a context gets. -/
theorem kept_setContext (c : ContextId) {g : Context → Context}
    (hg : ∀ context, (g context).kernel = context.kernel) (c' : ContextId) (context : Context)
    (hget : w.contexts[c']? = some context) :
    ∃ context', (w.setContext c g).contexts[c']? = some context' ∧
      context'.kernel = context.kernel := by
  rw [setContext, Array.getElem?_modify]
  split
  · exact ⟨g context, by rw [hget]; rfl, hg context⟩
  · exact ⟨context, hget, rfl⟩

/-- A context may go to another directory. -/
theorem beside_setCwd (c : ContextId) (n : NodeId) :
    w.Beside (w.setContext c fun context => { context with cwd := n }) where
  files := rfl
  nextKey := rfl
  node _ := rfl
  neat c' context' hget := by
    rw [setContext, Array.getElem?_modify] at hget
    split at hget
    · obtain ⟨context, hold, rfl⟩ := Option.map_eq_some_iff.1 hget
      exact .inr ⟨context, hold, rfl⟩
    · exact .inr ⟨context', hget, rfl⟩
  slots := by
    refine funext fun c' => funext fun i => ?_
    cases hget : w.contexts[c]? with
    | none =>
      rw [numbering_slot, World.context, contexts_setContext_of_none hget]
      rfl
    | some context =>
      rw [numbering_slot, context_setContext hget]
      split
      · next hc => rw [hc, numbering_slot]
      · rfl
  kernel := kept_setContext c fun _ => rfl

theorem beside_pushContext (kernel : Bool) (limit : Nat) (cwd : NodeId) :
    w.Beside { w with contexts := w.contexts.push { kernel, files := { limit }, cwd } } where
  files := rfl
  nextKey := rfl
  node _ := rfl
  neat c context hget := by
    rw [Array.getElem?_push] at hget
    split at hget
    · cases hget
      exact .inl (.empty limit)
    · exact .inr ⟨context, hget, rfl⟩
  slots := by
    refine funext fun c => funext fun i => ?_
    rw [numbering_slot, numbering_slot, World.context, World.context, Array.getD_eq_getD_getElem?,
      Array.getD_eq_getD_getElem?, Array.getElem?_push]
    split
    · next hc =>
      rw [hc, Array.getElem?_eq_none (Nat.le_refl _)]
      rfl
    · rfl
  kernel c context hget := by
    refine ⟨context, ?_, rfl⟩
    rw [Array.getElem?_push, if_neg fun heq => ?_]
    · exact hget
    · rw [heq, Array.getElem?_eq_none (Nat.le_refl _)] at hget
      cases hget

theorem beside_attach (w : World) (id : Nat) (v : VolumeKey) (point : NodeId) :
    w.Beside (w.attach id v point) where
  files := rfl
  nextKey := Arena.nextKey_modify _ _ _
  node n := by
    rw [attach, setNode, Arena.get?_modify]
    split
    · rw [Option.map_map]
      rfl
    · rfl
  neat c context hget := .inr ⟨context, hget, rfl⟩
  slots := rfl
  kernel c context hget := ⟨context, hget, rfl⟩

end World

section

variable [Stretch R]

theorem receive_does {α : Type} (buffers : List ByteArray) {deliver : Act ByteArray}
    (hdeliver : deliver.Does R True) {finish : ByteArray → Act α}
    (hfinish : ∀ data, (finish data).Does R True) :
    (receive buffers deliver finish).Does R True := by
  refine does_bind (does_attempt hdeliver) fun delivered => ?_
  cases delivered with
  | error e => exact does_pure _
  | ok data => exact does_bind (does_attempt (hfinish data)) fun _ => does_pure _

theorem Action.Does.only {α : Type} {x : Act α} (h : x.Does R True) : x.only.Does R True :=
  does_bind h fun _ => does_pure _

theorem Action.Does.filling {α : Type} {x : Act (Received α)} (h : x.Does R True) :
    (Action.filling x).Does R True :=
  does_bind h fun _ => does_bind (does_query (.ofResult fun _ => trivial)) fun _ => does_pure _

end

section

variable [World.Aloof R]

theorem setWorkingDirectory_does (c : ContextId) (n : NodeId) :
    (setWorkingDirectory c n).Does R True :=
  does_change fun _ => Stretch.trans (World.Aloof.beside (World.beside_setCwd c n))
    (World.Aloof.settled _)

theorem enterDirectory_does (t : TaskId) (n : NodeId) : (enterDirectory t n).Does R True :=
  does_bind (does_query (.look _)) fun _ => does_bind (does_query (.demand _ nofun)) fun _ =>
    does_bind (does_query (.look _)) fun c => setWorkingDirectory_does c n

theorem changeDirectoryTo_does (t : TaskId) (h : Handle) :
    (changeDirectoryTo t h).Does R True :=
  does_bind (does_discreet (openFileOf_discreet (F := True) t h)) fun file =>
    enterDirectory_does t file.node

theorem takeVolumeId_does : takeVolumeId.Does R True :=
  does_bind (does_look _) fun _ => does_bind
    (does_change fun _ => World.Aloof.beside (.of_fields rfl rfl rfl)) fun _ => does_pure _

/-- What is held changes, and what was held may go. -/
theorem setPins_does (pins : World → NameMap NodeId) :
    (Action.change fun w => { w with pins := pins w }.settle : Act Unit).Does R True :=
  does_change fun w =>
    have hbeside : R w [] { w with pins := pins w } := World.Aloof.beside (.of_fields rfl rfl rfl)
    Stretch.trans hbeside (World.Aloof.settled _)

theorem releaseNode_does (name : String) : (releaseNode name).Does R True :=
  does_bind (does_look _) fun _ => does_bind (setPins_does _) fun _ => does_pure _

theorem addContext_does (kernel : Bool) : (addContext kernel).Does R True :=
  fun w => ⟨World.Aloof.beside (World.beside_pushContext kernel w.limits.handles w.rootNode),
    fun _ => trivial⟩

theorem addTask_does (context : ContextId) : (addTask context).Does R True :=
  does_bind (does_query (.look _)) fun _ => does_bind
    (does_change fun _ => World.Aloof.beside (.of_fields rfl rfl rfl)) fun _ => does_pure _

end

/-! ## Asking drivers and operations -/

section

variable [Backends] {full : Prop} (hlaws : Backends.Discreet full)

include hlaws

theorem statusOf_discreet (n : NodeId) : (statusOf n).Discreet full :=
  .bind (opsOf_discreet n) fun o => .bind (volumeOf_discreet n) fun v =>
    .bind ((hlaws.ops o).status v n) fun _ => .look _

theorem OpsKind.read_discreet (o : OpsKind) (file : OpenFile) (position room : Nat) :
    (o.read file position room).Discreet full :=
  .bind (.note rfl) fun _ => (hlaws.ops o).read file position room

theorem writePosition_discreet (file : OpenFile) : (writePosition file).Discreet full :=
  .ite (statusOf_discreet hlaws file.node).map (.pure _)

theorem seekSize_discreet (file : OpenFile) (origin : SeekOrigin) :
    (seekSize file origin).Discreet full :=
  .ite (statusOf_discreet hlaws file.node).map (.pure _)

theorem placeOf_discreet (t : TaskId) (base : Option Handle) (path : String) :
    (placeOf t base path).Discreet full :=
  .bind (resolveTarget_discreet hlaws t base path) fun found =>
    .bind (.ofResult fun hname => absurd hname (checkName_ne_full found.2)) fun _ =>
      .bind (volumeForWriting_discreet found.1) fun _ => .bind (.look _) fun _ => .pure _

theorem resolveMountPoint_discreet (t : TaskId) (path : String) :
    (resolveMountPoint t path).Discreet full :=
  .bind (resolve_discreet hlaws t none path .full) fun p => .bind (.look _) fun _ =>
    .bind (.demand _ nofun) fun _ => .bind (.look _) fun _ => .bind (.demand _ nofun) fun _ =>
      .bind (volumeOf_discreet p) fun _ => .bind (.look _) fun _ => .bind (.demand _ nofun) fun _ =>
        .pure _

/-! ## Operations that leave streams and directories where they are -/

section

variable [Stretch R]

theorem preadv_does (t : TaskId) (h : Handle) (position : Nat) (buffers : List ByteArray) :
    (preadv t h position buffers).Does R True :=
  receive_does buffers
    (does_bind (does_discreet (readableOf_discreet (F := full) t h)) fun found =>
      does_discreet (OpsKind.read_discreet hlaws found.2.2 _ _ _)) fun _ => does_pure _

theorem control_does (t : TaskId) (h : Handle) (request : UInt32) (input buffer : ByteArray) :
    (control t h request input buffer).Does R True :=
  receive_does [buffer]
    (does_bind (does_discreet (operableOf_discreet (F := full) t h)) fun found =>
      does_discreet ((hlaws.ops found.2).control _ _ _ _)) fun _ => does_pure _

variable (hnames : Backends.Names R)

include hnames

theorem makeDirectory_does (t : TaskId) (base : Option Handle) (path : String) (mode : UInt32) :
    (makeDirectory t base path mode).Does R True :=
  does_bind (does_discreet (placeOf_discreet hlaws t base _)) fun place =>
    does_bind (does_note rfl) fun _ => hnames.createDirectory place.driver _ _ _ _

theorem removeDirectory_does (t : TaskId) (base : Option Handle) (path : String) :
    (removeDirectory t base path).Does R True :=
  does_bind (does_discreet (placeOf_discreet hlaws t base _)) fun place =>
    does_bind (does_note rfl) fun _ => hnames.removeDirectory place.driver _ _ _

theorem unlink_does (t : TaskId) (base : Option Handle) (path : String) :
    (unlink t base path).Does R True :=
  does_bind (does_discreet (placeOf_discreet hlaws t base _)) fun place =>
    does_bind (does_note rfl) fun _ => hnames.unlink place.driver _ _ _

theorem makeSymlink_does (t : TaskId) (base : Option Handle) (path target : String) :
    (makeSymlink t base path target).Does R True :=
  does_bind (does_query (.demand _ nofun)) fun _ => does_bind (does_query (.look _)) fun _ =>
    does_bind (does_query (.demand _ nofun)) fun _ =>
      does_bind (does_discreet (placeOf_discreet hlaws t base path)) fun place =>
        does_bind (does_note rfl) fun _ => hnames.createSymlink place.driver _ _ _ _

theorem rename_does (t : TaskId) (oldBase : Option Handle) (oldPath : String)
    (newBase : Option Handle) (newPath : String) :
    (rename t oldBase oldPath newBase newPath).Does R True :=
  does_bind (does_discreet (resolveTarget_discreet hlaws t oldBase _)) fun old =>
    does_bind (does_discreet (resolveTarget_discreet hlaws t newBase _)) fun _ =>
      does_bind (does_query (.ofResult fun _ => trivial)) fun _ =>
        does_bind (does_query (.ofResult fun _ => trivial)) fun _ => does_bind does_world fun w =>
          does_bind (does_query (.demand _ nofun)) fun _ =>
            does_bind (does_discreet (volumeForWriting_discreet (F := full) old.1)) fun _ =>
              does_bind (does_note rfl) fun _ => hnames.rename (w.node old.1).driver _ _ _ _ _ _

end

section

variable [World.Aloof R]

theorem changeDirectory_does (t : TaskId) (path : String) :
    (changeDirectory t path).Does R True :=
  does_bind (does_discreet (resolve_discreet hlaws t none path .full)) fun n =>
    enterDirectory_does t n

theorem holdPath_does (t : TaskId) (start : Option String) (path : String) (flags : LookupMode)
    (name : String) : (holdPath t start path flags name).Does R True :=
  does_bind (does_query (.look _)) fun start =>
    does_bind (does_discreet (resolve_discreet hlaws t start path flags)) fun _ => setPins_does _

variable (hnames : Backends.Names R)

include hnames

theorem mount_does (t : TaskId) (device dir fs : String) (flags : VolumeFlags) (args : String) :
    (mount t device dir fs flags args).Does R True := by
  have hmount : ∀ (driver : DriverKind) id, (driver.mount id device flags args).Does R True :=
    fun driver id => does_bind (does_note rfl) fun _ => hnames.mount driver id device flags args
  exact does_bind (does_discreet (resolveMountPoint_discreet hlaws t dir)) fun point =>
    does_bind (does_query (.look _)) fun _ => does_bind (does_query (.expect _ nofun)) fun driver =>
      does_bind takeVolumeId_does fun id => does_bind (hmount driver id) fun v =>
        does_bind (does_query (.look _)) fun _ => does_bind (does_query (.demand _ nofun)) fun _ =>
          does_bind (does_change fun w => World.Aloof.beside (w.beside_attach id v point)) fun _ =>
            does_bind (does_note rfl) fun _ => does_pure _

omit hlaws in
theorem addDevice_does (path : String) (ops : OpsKind) : (addDevice path ops).Does R True :=
  does_bind (does_query (.look _)) fun v => does_bind (hnames.publish v path ops) fun _ =>
    does_bind (does_note rfl) fun _ => does_pure _

omit hlaws in
theorem moveDevice_does (ino : Nat) (path : String) : (moveDevice ino path).Does R True :=
  does_bind (does_query (.look _)) fun v => hnames.move v ino path

omit hlaws in
theorem withdrawDevice_does (ino : Nat) : (withdrawDevice ino).Does R True :=
  does_bind (does_query (.look _)) fun v => hnames.withdraw v ino

/-- Moves no stream and no directory, opens nothing and closes nothing. -/
def Operation.Aloof : Operation → Prop
  | .preadv .. | .control .. | .makeDirectory .. | .removeDirectory .. | .unlink ..
  | .makeSymlink .. | .rename .. | .changeDirectory .. | .changeDirectoryTo .. | .mount ..
  | .addDevice .. | .moveDevice .. | .withdrawDevice .. | .hold .. | .release .. | .addContext ..
  | .addTask .. | .setDepth .. => True
  | _ => False

theorem Operation.Aloof.does {op : Operation} (hop : op.Aloof) : op.act.Does R True := by
  cases op with
  | preadv t h position buffers => exact (preadv_does hlaws t h position buffers).filling
  | control t h request input buffer => exact (control_does hlaws t h request input buffer).filling
  | makeDirectory t base path mode => exact (makeDirectory_does hlaws hnames t base path mode).only
  | removeDirectory t base path => exact (removeDirectory_does hlaws hnames t base path).only
  | unlink t base path => exact (unlink_does hlaws hnames t base path).only
  | makeSymlink t base path target =>
    exact (makeSymlink_does hlaws hnames t base path target).only
  | rename t oldBase oldPath newBase newPath =>
    exact (rename_does hlaws hnames t oldBase oldPath newBase newPath).only
  | changeDirectory t path => exact (changeDirectory_does hlaws t path).only
  | changeDirectoryTo t h => exact (changeDirectoryTo_does t h).only
  | mount t device dir fs flags args =>
    exact (mount_does hlaws hnames t device dir fs flags args).only
  | addDevice path ops => exact (addDevice_does hnames path ops).only
  | moveDevice ino path => exact (moveDevice_does hnames ino path).only
  | withdrawDevice ino => exact (withdrawDevice_does hnames ino).only
  | hold t start path flags name => exact (holdPath_does hlaws t start path flags name).only
  | release name => exact (releaseNode_does name).only
  | addContext kernel => exact (addContext_does kernel).only
  | addTask context => exact (addTask_does context).only
  | setDepth t depth => exact does_change fun _ => World.Aloof.beside (.of_fields rfl rfl rfl)
  | _ => exact hop.elim

end

/-! ## Operations that move a stream or write -/

section

variable [Stretch R] (hwrites : Backends.Writes R)

include hwrites

omit hlaws in
theorem OpsKind.write_does (o : OpsKind) (file : OpenFile) (position : Nat) (data : ByteArray) :
    (o.write file position data).Does R True :=
  does_bind (does_note rfl) fun _ => hwrites.write o file position data

omit hlaws in
theorem pwritev_does (t : TaskId) (h : Handle) (position : Nat) (segments : List ByteArray) :
    (pwritev t h position segments).Does R True :=
  does_bind (does_discreet (writableOf_discreet (F := True) t h)) fun found =>
    OpsKind.write_does hwrites found.2.2 _ _ _

omit hlaws in
theorem writeStatus_does (t : TaskId) (h : Handle) (status : Status) (mask : StatusMask) :
    (writeStatus t h status mask).Does R True :=
  does_bind (does_discreet (operableOf_discreet (F := True) t h)) fun found =>
    does_bind (does_discreet (volumeForWriting_discreet (F := True) _)) fun _ =>
      hwrites.writeStatus found.2 _ _ _ _

end

section

variable [World.Moving R]

omit hlaws [Backends] in
theorem moveBy_does (f : FileId) (position count : Nat) : (moveBy f position count).Does R True :=
  does_bind (does_query (.ofResult fun _ => trivial)) fun _ =>
    does_change fun w => World.Moving.moved w f _

theorem readv_does (t : TaskId) (h : Handle) (buffers : List ByteArray) :
    (readv t h buffers).Does R True := by
  refine does_bind (does_discreet (readableOf_discreet (F := full) t h).attempt) fun found => ?_
  cases found with
  | error e => exact does_pure _
  | ok found =>
    exact receive_does buffers (does_discreet (OpsKind.read_discreet hlaws found.2.2 _ _ _))
      fun data => does_bind (moveBy_does _ _ _) fun _ => does_pure _

theorem seek_does (t : TaskId) (h : Handle) (offset : Int) (origin : SeekOrigin) :
    (seek t h offset origin).Does R True :=
  does_bind (does_discreet (streamOf_discreet (F := full) t h)) fun found =>
    does_bind (does_discreet (seekSize_discreet hlaws found.2.1 origin)) fun _ =>
      does_bind (does_query (.ofResult fun _ => trivial)) fun _ =>
        does_bind (does_change fun w => World.Moving.moved w _ _) fun _ => does_pure _

omit hlaws [Backends] in
theorem setFlags_does (t : TaskId) (h : Handle) (flags : OpenFlags) :
    (setFlags t h flags).Does R True :=
  does_bind (does_discreet (fileOf_discreet (F := True) t h)) fun _ =>
    does_change fun w => World.Moving.flagged w _ flags

variable (hwrites : Backends.Writes R)

include hwrites

theorem writev_does (t : TaskId) (h : Handle) (segments : List ByteArray) :
    (writev t h segments).Does R True :=
  does_bind (does_discreet (writableOf_discreet (F := full) t h)) fun found =>
    does_bind (does_discreet (writePosition_discreet hlaws found.2.1)) fun _ =>
      does_bind (OpsKind.write_does hwrites found.2.2 _ _ _) fun _ =>
        does_bind (moveBy_does _ _ _) fun _ => does_pure _

/-- Moves a stream, or writes. -/
def Operation.Moving : Operation → Prop
  | .readv .. | .writev .. | .pwritev .. | .seek .. | .setFlags .. | .writeStatus .. => True
  | _ => False

theorem Operation.Moving.does {op : Operation} (hop : op.Moving) : op.act.Does R True := by
  cases op with
  | readv t h buffers => exact (readv_does hlaws t h buffers).filling
  | writev t h segments => exact (writev_does hlaws hwrites t h segments).only
  | pwritev t h position segments => exact (pwritev_does hwrites t h position segments).only
  | seek t h offset origin => exact (seek_does hlaws t h offset origin).only
  | setFlags t h flags => exact (setFlags_does t h flags).only
  | writeStatus t h status mask => exact (writeStatus_does hwrites t h status mask).only
  | _ => exact hop.elim

end

/-! ## Operations that read a directory -/

section

variable [World.Turning R]

theorem nextEntry_does (t : TaskId) (h : Handle) : (nextEntry t h).Does R True :=
  does_bind (does_discreet (directoryOf_discreet (F := full) t h)) fun found =>
    does_bind (does_discreet (volumeOf_discreet (F := full) _)) fun v =>
      does_bind (does_discreet ((hlaws.ops found.2.2).entry v _ _)) fun _ =>
        does_bind (does_when (does_change fun w => World.Turning.turned w _ _)) fun _ => does_pure _

omit hlaws [Backends] in
theorem rewind_does (t : TaskId) (h : Handle) : (rewind t h).Does R True :=
  does_bind (does_discreet (directoryOf_discreet (F := True) t h)) fun _ =>
    does_bind (does_discreet (volumeOf_discreet (F := True) _)) fun _ =>
      does_change fun w => World.Turning.turned w _ _

/-- Reads a directory. -/
def Operation.Turning : Operation → Prop
  | .nextEntry .. | .rewind .. => True
  | _ => False

theorem Operation.Turning.does {op : Operation} (hop : op.Turning) : op.act.Does R True := by
  cases op with
  | nextEntry t h => exact (nextEntry_does hlaws t h).only
  | rewind t h => exact (rewind_does t h).only
  | _ => exact hop.elim

end

end

/-- What an instance does once its root volume is mounted is followed, too. -/
theorem World.furnish_does [World.Aloof R] (hnames : @Backends.Names standard R) :
    World.furnish.Does R True :=
  does_bind (does_query (.look _)) fun root =>
    does_bind (does_bind (does_note rfl) fun _ =>
      hnames.createDirectory .ram 0 root deviceDir 0o755) fun _ =>
        does_bind (addContext_does true) fun _ => does_note rfl

/-! ## Operations on the tables -/

section

variable [World.Tabular R]

/-- Whatever a query is for, it changes nothing. -/
theorem does_any {α : Type} (q : Query α) : (liftM q : Act α).Does R True :=
  fun _ => ⟨World.Tabular.seen _ (Stretch.quiet quiet_nil), fun _ => trivial⟩

theorem allocateHandle_does (c : ContextId) : (allocateHandle c).Does R True := by
  refine does_bind (does_look _) fun context => ?_
  cases context.files.reserve with
  | none => exact does_throw fun _ => trivial
  | some reserved =>
    exact does_bind (does_change fun w => World.Tabular.tables w c _) fun _ => does_pure _

theorem freeHandle_does (c : ContextId) (handle : Handle) : (freeHandle c handle).Does R True := by
  refine does_bind (does_look _) fun context => ?_
  split
  · exact does_bind (does_change fun w => World.Tabular.tables w c _) fun _ => does_pure _
  · exact does_pure _

theorem bindHandle_does (c : ContextId) (handle : Handle) (f : FileId) :
    (bindHandle c handle f).Does R True := by
  refine does_bind (does_any _) fun _ => does_bind (does_look _) fun context => ?_
  cases context.files.fill handle.slot f with
  | error e => exact does_throw fun _ => trivial
  | ok files => exact does_change fun w => World.Tabular.tables w c _

theorem installHandle_does (c : ContextId) (handle : Handle) (f : FileId) :
    (installHandle c handle f).Does R True := by
  refine does_bind (does_any _) fun _ => does_bind (does_look _) fun context => ?_
  cases context.files.replace handle.slot f with
  | error e => exact does_throw fun _ => trivial
  | ok replaced =>
    exact does_bind (does_change fun w => World.Tabular.tables w c _) fun _ => does_pure _

variable [Backends]

theorem dropFile_does (f : FileId) : (dropFile f).Does R True := by
  refine does_bind (does_look _) fun kept => ?_
  split
  · exact does_pure _
  · exact does_bind (does_look _) fun file => does_bind (does_any _) fun _ =>
      does_change fun w => Stretch.trans (World.Tabular.removed w f) (World.Aloof.settled _)

theorem dropDisplaced_does (displaced : Option FileId) : (dropDisplaced displaced).Does R True := by
  cases displaced with
  | none => exact does_pure _
  | some f => exact dropFile_does f

theorem giveBack_does (c : ContextId) (handle : Handle) : (giveBack c handle).Does R True :=
  does_bind (freeHandle_does c handle) fun displaced => dropDisplaced_does displaced

theorem dropFiles_does (files : List FileId) : (dropFiles files).Does R True := by
  induction files with
  | nil => exact does_pure _
  | cons f rest ih =>
    rw [dropFiles]
    split
    · exact ih
    · exact does_bind (dropFile_does f) fun _ => ih

theorem emptyTable_does (c : ContextId) : (emptyTable c).Does R True :=
  does_bind (does_look _) fun _ => does_bind (does_change fun w => World.Tabular.tables w c _)
    fun _ => dropFiles_does _

theorem withReserved_does (c : ContextId) {work : Handle → Act Handle}
    (hwork : ∀ handle, (work handle).Does R True) : (withReserved c work).Does R True :=
  does_bind (allocateHandle_does c) fun handle =>
    does_orUndo (hwork handle) (giveBack_does c handle)

/-- Frees or shares numbers. -/
def Operation.Tabular : Operation → Prop
  | .close .. | .duplicate .. | .duplicateTo .. | .closeAll .. | .retireContext .. => True
  | _ => False

theorem Operation.Tabular.does {op : Operation} (hop : op.Tabular) : op.act.Does R True := by
  cases op with
  | close t h =>
    exact Action.Does.only (does_bind (does_query (.look _)) fun c =>
      does_bind (does_any (lookupHandle c h)) fun _ => giveBack_does c h)
  | duplicate t h =>
    exact Action.Does.only (does_bind (does_any (fileOf t h)) fun f =>
      does_bind (does_query (.look _)) fun c => withReserved_does c fun copy =>
        does_bind (bindHandle_does c copy f) fun _ => does_pure _)
  | duplicateTo t h target =>
    refine Action.Does.only (does_bind (does_any (fileOf t h)) fun f => ?_)
    split
    · exact does_pure _
    · exact does_bind (does_query (.look _)) fun c =>
        does_bind (installHandle_does c target f) fun displaced =>
          does_bind (dropDisplaced_does displaced) fun _ => does_pure _
  | closeAll c => exact (emptyTable_does c).only
  | retireContext c =>
    exact Action.Does.only (does_bind (emptyTable_does c) fun _ => does_bind (does_look _)
      fun root => setWorkingDirectory_does c root)
  | _ => exact hop.elim

end

end VirtualFs
