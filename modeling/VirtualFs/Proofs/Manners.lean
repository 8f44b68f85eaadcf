/-
What drivers and the operations of nodes are to do with what is open: nothing,
except that they open what they are asked to open. They do not reach into the
handle tables, they do not open or close on their own account, and the node of
an open file keeps its operations (`Backends.Discreet`). Looking paths up and
opening nodes then leaves the tables alone.
-/
import VirtualFs.Namespace
import VirtualFs.Proofs.Discretion

namespace VirtualFs

open Query (look)
open VirtualFs.Action (does_pure does_throw does_world does_note does_query does_query_bind
  does_bind)

namespace World

/-- The handle tables and the open files are as they were, and what can be closed still can. -/
structure Spares (w w' : World) : Prop where
  contexts : w'.contexts = w.contexts
  tasks : w'.tasks = w.tasks
  files : w'.files = w.files
  ops : ∀ f file ops, w.files.get? f = some file → (w.node file.node).ops = some ops →
    (w'.node file.node).ops = some ops

theorem Spares.refl (w : World) : w.Spares w := ⟨rfl, rfl, rfl, fun _ _ _ _ hops => hops⟩

theorem Spares.trans {w w' w'' : World} (h : w.Spares w') (h' : w'.Spares w'') : w.Spares w'' where
  contexts := h'.contexts.trans h.contexts
  tasks := h'.tasks.trans h.tasks
  files := h'.files.trans h.files
  ops f file ops hfile hops :=
    h'.ops f file ops (by rw [h.files]; exact hfile) (h.ops f file ops hfile hops)

/-- A stretch of a run in which the tables are spared, whatever was seen. -/
def Sparing (w : World) (_ : List Event) (w' : World) : Prop := w.Spares w'

/-- A stretch of a run in which the tables are spared and nothing is opened or closed. -/
def Aside (w : World) (t : List Event) (w' : World) : Prop := w.Spares w' ∧ Quiet t

instance : Stretch Sparing where
  quiet _ := .refl _
  trans h h' := Spares.trans h h'

instance : Stretch Aside where
  quiet h := ⟨.refl _, h⟩
  trans h h' := ⟨h.1.trans h'.1, h.2.append h'.2⟩

end World

open World (Sparing Aside)

/-! ## Drivers and operations -/

/-- A driver that leaves what is open alone. It answers that a table is full only if `F`
holds. -/
structure Driver.Discreet (F : Prop) (d : Driver) : Prop where
  mount : ∀ id device flags args, (d.mount id device flags args).Does Aside F
  locate : ∀ volume parent name, (d.locate volume parent name).Discreet F
  createFile : ∀ volume parent name flags mode,
    (d.createFile volume parent name flags mode).Does Aside F
  /-- What is created is open for more than its path. -/
  created : ∀ volume parent name flags mode w file,
    (d.createFile volume parent name flags mode w).result = .ok file → file.isPath = false
  createDirectory : ∀ volume parent name mode,
    (d.createDirectory volume parent name mode).Does Aside F
  createSymlink : ∀ volume parent name target,
    (d.createSymlink volume parent name target).Does Aside F
  rename : ∀ volume oldParent oldName newParent newName mustBeDirectory,
    (d.rename volume oldParent oldName newParent newName mustBeDirectory).Does Aside F
  unlink : ∀ volume parent name, (d.unlink volume parent name).Does Aside F
  removeDirectory : ∀ volume parent name, (d.removeDirectory volume parent name).Does Aside F
  sync : ∀ volume, (d.sync volume).Discreet F

/-- Operations that leave what is open alone, and open what can be closed again. -/
structure NodeOps.Discreet (F : Prop) (o : NodeOps) : Prop where
  openFile : ∀ volume n flags, (o.openFile volume n flags).Does Aside F
  opened : ∀ volume n flags w file ops, (w.node n).ops = some ops →
    (o.openFile volume n flags w).result = .ok file → file.isPath = false ∧
      ((o.openFile volume n flags w).world.node file.node).ops.isSome = true
  openDirectory : ∀ volume n flags, (o.openDirectory volume n flags).Discreet F
  listing : ∀ volume n flags w file ops, (w.node n).ops = some ops →
    (o.openDirectory volume n flags w).result = .ok file →
      file.isPath = false ∧ (w.node file.node).ops.isSome = true
  close : ∀ file, (o.close file).Discreet F
  read : ∀ file position room, (o.read file position room).Discreet F
  write : ∀ file position data, (o.write file position data).Does Aside F
  readLink : ∀ volume n, (o.readLink volume n).Discreet F
  entry : ∀ volume dir index, (o.entry volume dir index).Discreet F
  status : ∀ volume n, (o.status volume n).Discreet F
  writeStatus : ∀ volume n status mask, (o.writeStatus volume n status mask).Does Aside F
  checkAccess : ∀ volume n mode, (o.checkAccess volume n mode).Discreet F
  control : ∀ file request input room, (o.control file request input room).Discreet F
  sync : ∀ file, (o.sync file).Discreet F

/-- Drivers and operations that leave what is open alone. -/
structure Backends.Discreet [Backends] (F : Prop) : Prop where
  driver : ∀ kind, (Backends.driver kind).Discreet F
  ops : ∀ kind, (Backends.ops kind).Discreet F

variable {F : Prop}

/-! ## Looking names up -/

theorem volumeOf_discreet (n : NodeId) : (volumeOf n).Discreet F :=
  .bind (.look _) fun _ => .expect _ nofun

theorem opsOf_discreet (n : NodeId) : (opsOf n).Discreet F :=
  .bind (.look _) fun _ => .expect _ nofun

theorem lookupDirectory_discreet (parent : NodeId) (name : String) :
    (lookupDirectory parent name).Discreet F := by
  refine .ite (.bind (volumeOf_discreet parent) fun v => .bind .world fun w => ?_) (.pure _)
  refine .ite (.ite (.pure _) ?_) (.pure _)
  exact .map (.expect _ nofun)

section

variable [Backends] (h : Backends.Discreet F)

include h

theorem DriverKind.locate_discreet (d : DriverKind) (v : VolumeKey) (parent : NodeId)
    (name : String) : (d.locate v parent name).Discreet F :=
  .bind (.note rfl) fun _ => (h.driver d).locate v parent name

theorem OpsKind.readLink_discreet (o : OpsKind) (v : VolumeKey) (n : NodeId) (depth : UInt32) :
    (o.readLink v n depth).Discreet F :=
  .bind (.note rfl) fun _ => (h.ops o).readLink v n

theorem resolveName_discreet {follow : Follow} (hfollow : ∀ dir n, (follow dir n).Discreet F)
    (parent : NodeId) (name : String) (flags : LookupMode) :
    (resolveName follow parent name flags).Discreet F := by
  refine .ite (.pure _) (.ite (.bind (.look _) fun _ => .bind (.demand _ nofun) fun _ => .pure _)
    (.bind (lookupDirectory_discreet parent name) fun found => ?_))
  cases found with
  | none => exact .pure _
  | some dir =>
    refine .bind (.look _) fun _ => .bind (.demand _ nofun) fun _ =>
      .bind (volumeOf_discreet dir) fun v => .bind (.look _) fun d =>
        .bind (DriverKind.locate_discreet h d v dir name) fun n => .bind .world fun w =>
          .bind (.note rfl) fun _ => ?_
    exact .ite (hfollow _ _) (.pure _)

theorem walk_discreet {follow : Follow} (hfollow : ∀ dir n, (follow dir n).Discreet F)
    (start : NodeId) (names : List String) : (walk follow start names).Discreet F := by
  induction names generalizing start with
  | nil => exact .pure _
  | cons name names ih =>
    rw [walk, List.foldlM_cons]
    exact .bind (resolveName_discreet h hfollow start name _) fun next => ih next

theorem parentOfPath_discreet {follow : Follow} (hfollow : ∀ dir n, (follow dir n).Discreet F)
    (start : NodeId) (path : String) : (parentOfPath follow start path).Discreet F :=
  .bind (.look _) fun _ => .bind (walk_discreet h hfollow _ _) fun _ => .pure _

theorem linkTarget_discreet (link : NodeId) (depth : UInt32) :
    (linkTarget link depth).Discreet F :=
  .bind (opsOf_discreet link) fun o => .bind (volumeOf_discreet link) fun v =>
    .bind ((h.ops o).status v link) fun _ => .bind (.look _) fun _ =>
      .bind (.demand _ nofun) fun _ => OpsKind.readLink_discreet h o v link depth

theorem followChain_discreet {follow : Follow} (hfollow : ∀ dir n, (follow dir n).Discreet F)
    (depth : UInt32) (hops : Nat) (dir n : NodeId) :
    (followChain follow depth hops dir n).Discreet F := by
  induction hops generalizing dir n with
  | zero =>
    refine .bind (.look _) fun _ => .ite (.bind (.look _) fun _ => ?_) (.pure _)
    exact .bind (.note rfl) fun _ => .throw nofun
  | succ hops ih =>
    refine .bind (.look _) fun _ => .ite (.bind (linkTarget_discreet h n depth) fun target =>
      .bind (parentOfPath_discreet h hfollow dir target) fun found => ?_) (.pure _)
    refine .bind (.ite (.pure _) (resolveName_discreet h hfollow _ _ _)) fun next => ?_
    exact ih _ next

theorem followLinks_discreet (left : Nat) (depth : UInt32) (dir n : NodeId) :
    (followLinks left depth dir n).Discreet F := by
  induction left generalizing depth dir n with
  | zero =>
    refine .bind (.look _) fun _ => .ite (.bind (.look _) fun _ => ?_) (.pure _)
    exact .bind (.note rfl) fun _ => .throw nofun
  | succ left ih =>
    refine .bind (.look _) fun _ => .ite (.bind (.look _) fun hops => ?_) (.pure _)
    exact followChain_discreet h (ih (depth + 1)) (depth + 1) hops dir n

theorem followFor_discreet (t : TaskId) (dir n : NodeId) : (followFor t dir n).Discreet F :=
  .bind .world fun _ => followLinks_discreet h _ _ dir n

theorem resolveParent_discreet (t : TaskId) (start : Option NodeId) (path : String) :
    (resolveParent t start path).Discreet F :=
  .bind (.look _) fun _ => parentOfPath_discreet h (followFor_discreet h t) _ path

theorem resolveIn_discreet (t : TaskId) (parent : NodeId) (name : String) (flags : LookupMode) :
    (resolveIn t parent name flags).Discreet F :=
  resolveName_discreet h (followFor_discreet h t) parent name flags

theorem resolve_discreet (t : TaskId) (start : Option NodeId) (path : String)
    (flags : LookupMode) : (resolve t start path flags).Discreet F :=
  .bind (resolveParent_discreet h t start path) fun found =>
    resolveIn_discreet h t found.1 found.2 flags

end

/-! ## Looking handles up -/

theorem belongs_discreet (c : ContextId) (handle : Handle) : (belongs c handle).Discreet F :=
  .bind (.look _) fun _ => .demand _ nofun

theorem bindable_discreet (c : ContextId) (handle : Handle) : (bindable c handle).Discreet F :=
  .bind (belongs_discreet c handle) fun _ => .bind (.look _) fun _ => .demand _ nofun

theorem installable_discreet (c : ContextId) (handle : Handle) :
    (installable c handle).Discreet F :=
  .bind (belongs_discreet c handle) fun _ => .bind (.look _) fun _ =>
    .bind (.demand _ nofun) fun _ => .demand _ nofun

theorem lookupHandle_discreet (c : ContextId) (handle : Handle) :
    (lookupHandle c handle).Discreet F :=
  .bind (belongs_discreet c handle) fun _ => .bind (.look _) fun _ => .expect _ nofun

theorem fileOf_discreet (t : TaskId) (handle : Handle) : (fileOf t handle).Discreet F :=
  .bind (.look _) fun c => lookupHandle_discreet c handle

theorem openFileOf_discreet (t : TaskId) (handle : Handle) :
    (openFileOf t handle).Discreet F :=
  .bind (fileOf_discreet t handle) fun _ => .look _

theorem startNode_discreet (t : TaskId) (base : Option Handle) :
    (startNode t base).Discreet F := by
  cases base with
  | none => exact .pure _
  | some handle =>
    exact .bind (openFileOf_discreet t handle) fun _ => .bind (.look _) fun _ =>
      .bind (.demand _ nofun) fun _ => .pure _

theorem streamOf_discreet (t : TaskId) (h : Handle) : (streamOf t h).Discreet F :=
  .bind (fileOf_discreet t h) fun _ => .bind (.look _) fun file =>
    .bind (.ofResult fun he => by cases hkind : file.kind <;> rw [hkind] at he <;> cases he)
      fun _ => .bind (opsOf_discreet _) fun _ => .pure _

theorem directoryOf_discreet (t : TaskId) (h : Handle) : (directoryOf t h).Discreet F :=
  .bind (fileOf_discreet t h) fun _ => .bind (.look _) fun _ => .bind (.demand _ nofun)
    fun _ => .bind (opsOf_discreet _) fun _ => .pure _

theorem operableOf_discreet (t : TaskId) (h : Handle) : (operableOf t h).Discreet F :=
  .bind (openFileOf_discreet t h) fun _ => .bind (.demand _ nofun) fun _ =>
    .bind (opsOf_discreet _) fun _ => .pure _

theorem readableOf_discreet (t : TaskId) (h : Handle) : (readableOf t h).Discreet F :=
  .bind (streamOf_discreet t h) fun _ => .bind (.demand _ nofun) fun _ => .pure _

theorem writableOf_discreet (t : TaskId) (h : Handle) : (writableOf t h).Discreet F :=
  .bind (streamOf_discreet t h) fun _ => .bind (.demand _ nofun) fun _ => .pure _

theorem resolveTarget_discreet [Backends] (h : Backends.Discreet F) (t : TaskId)
    (base : Option Handle) (path : String) : (resolveTarget t base path).Discreet F :=
  .bind (startNode_discreet t base) fun start => resolveParent_discreet h t start path

theorem volumeForWriting_discreet (n : NodeId) : (volumeForWriting n).Discreet F :=
  .bind (volumeOf_discreet n) fun _ => .bind (.look _) fun _ =>
    .bind (.demand _ nofun) fun _ => .pure _

theorem checkName_ne_full (name : String) : checkName name ≠ .error .tooManyOpenFiles := by
  rw [checkName]
  split <;> try split
  all_goals nofun

/-! ## Opening -/

section

variable [Backends] (h : Backends.Discreet F)

include h

theorem OpsKind.openDirectory_spares (o : OpsKind) (v : VolumeKey) (n : NodeId)
    (flags : OpenFlags) :
    (liftM (o.openDirectory v n flags) : Act OpenFile).Does Sparing F := by
  refine fun w => ⟨.refl w, fun hresult => ?_⟩
  rw [Action.liftM_apply, OpsKind.openDirectory, Query.result_bind] at hresult
  rw [Query.result_note, Except.bind, Query.result_bind] at hresult
  cases hopened : ((Backends.ops o).openDirectory v n flags w).result with
  | error e =>
    rw [hopened] at hresult
    refine (((h.ops o).openDirectory v n flags) w).2 ?_
    rw [hopened, Except.error.inj hresult]
  | ok file =>
    rw [hopened] at hresult
    cases hresult

theorem OpsKind.openFile_spares (o : OpsKind) (v : VolumeKey) (n : NodeId) (flags : OpenFlags) :
    (o.openFile v n flags).Does Sparing F := by
  have hopen : ((Backends.ops o).openFile v n flags).Does Sparing F :=
    ((h.ops o).openFile v n flags).mono (fun _ _ _ haside => haside.1) id
  refine does_bind (does_note rfl) fun _ => does_bind hopen fun file => does_bind ?_ fun _ =>
    does_pure file
  exact fun w => ⟨.refl w, nofun⟩

theorem DriverKind.createFile_spares (d : DriverKind) (v : VolumeKey) (parent : NodeId)
    (name : String) (flags : OpenFlags) (mode : UInt32) :
    (d.createFile v parent name flags mode).Does Sparing F := by
  have hcreate : ((Backends.driver d).createFile v parent name flags mode).Does Sparing F :=
    ((h.driver d).createFile v parent name flags mode).mono (fun _ _ _ haside => haside.1) id
  refine does_bind (does_note rfl) fun _ => does_bind hcreate fun file => does_bind ?_ fun _ =>
    does_pure file
  exact fun w => ⟨.refl w, nofun⟩

theorem openFound_spares (n : NodeId) (flags : OpenFlags) :
    (openFound n flags).Does Sparing F := by
  rw [openFound]
  split
  · exact does_pure _
  refine does_bind does_world fun w => does_bind (does_query (.demand _ (by simp))) fun _ =>
    does_bind (does_query (opsOf_discreet n)) fun o =>
      does_bind (does_query (volumeOf_discreet n)) fun v => ?_
  dsimp only
  split
  · exact does_bind (does_query (.demand _ (by simp))) fun _ => o.openDirectory_spares h v n _
  · exact does_bind (does_query (.demand _ (by simp))) fun _ =>
      does_bind (does_query (.demand _ (by simp))) fun _ => o.openFile_spares h v n _

theorem createNode_spares (parent : NodeId) (name : String) (flags : OpenFlags) (mode : UInt32) :
    (createNode parent name flags mode).Does Sparing F :=
  does_bind (does_query (.ofResult fun hname => absurd hname (checkName_ne_full name))) fun _ =>
    does_bind (does_query (volumeForWriting_discreet parent)) fun v =>
      does_bind (does_query (.look _)) fun d => d.createFile_spares h v parent name flags mode

theorem openName_spares (t : TaskId) (parent : NodeId) (name : String) (flags : OpenFlags)
    (mode : UInt32) : (openName t parent name flags mode).Does Sparing F := by
  have hfound := resolveIn_discreet h t parent name (if flags.nofollow then .crossOnly else .full)
  refine does_query_bind hfound.attempt fun found w hresult => ?_
  rw [Query.result_attempt, Except.ok.injEq] at hresult
  split
  · exact does_bind (does_query (.demand _ nofun)) fun _ => openFound_spares h _ flags
  · next e =>
    split
    · exact createNode_spares h parent name flags mode
    · exact does_throw fun he => (hfound w).2 (by rw [hresult, he])

/-- What opening a path takes besides a number. -/
def pathOpening (t : TaskId) (base : Option Handle) (path : String) (flags : OpenFlags)
    (mode : UInt32) : Act OpenFile := do
  let start ← startNode t base
  let (parent, name) ← resolveParent t start path
  openName t parent name flags mode

omit h in
theorem openPath_eq (t : TaskId) (base : Option Handle) (path : String) (flags : OpenFlags)
    (mode : UInt32) :
    openPath t base path flags mode = (do
      let c ← look (·.contextOf t flags.forKernel)
      withReserved c fun h => do
        let file ← pathOpening t base path flags mode
        let handle ← commitFile c h file
        Action.log (.opened path handle)
        pure handle) := by
  simp only [openPath, pathOpening, bind_assoc]

theorem pathOpening_spares (t : TaskId) (base : Option Handle) (path : String) (flags : OpenFlags)
    (mode : UInt32) : (pathOpening t base path flags mode).Does Sparing F :=
  does_bind (does_query (startNode_discreet t base)) fun start =>
    does_bind (does_query (resolveParent_discreet h t start path)) fun found =>
      openName_spares h t found.1 found.2 flags mode

end

end VirtualFs
