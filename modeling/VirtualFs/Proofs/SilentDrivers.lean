/-
The drivers that the library comes with call no other, nor do the operations
of their nodes. The memory filesystem leaves no trace at all, so that devices
are published, moved and withdrawn silently, too.
-/
import VirtualFs.Proofs.Silence

namespace VirtualFs

/-! ## The memory filesystem -/

namespace RamFs

theorem nodeOf_silent (n : NodeId) : (nodeOf n).Silent := by
  refine .bind (.look _) fun payload => ?_
  cases payload with
  | ram => exact .pure _
  | scripted => exact .throw _

theorem nextInoOf_silent (v : VolumeKey) : (nextInoOf v).Silent :=
  .bind (.look _) fun _ => .expect _ _

theorem childrenOf_silent (dir : NodeId) : (childrenOf dir).Silent := by
  refine .bind (nodeOf_silent dir) fun node => ?_
  split
  · exact .pure _
  · exact .throw _

theorem containerOf_silent (n : NodeId) : (containerOf n).Silent :=
  .bind (nodeOf_silent n) fun _ => .look _

theorem lookup_silent (dir : NodeId) (name : String) : (lookup dir name).Silent :=
  .ite (.pure _) (.ite (containerOf_silent dir) (.bind (childrenOf_silent dir) fun _ =>
    .expect _ _))

theorem isEmpty_silent (dir : NodeId) : (isEmpty dir).Silent :=
  .bind (childrenOf_silent dir) fun _ => .pure _

theorem isAboveWithin_silent (ancestor : NodeId) (steps : Nat) (n : NodeId) :
    (isAboveWithin ancestor steps n).Silent := by
  induction steps generalizing n with
  | zero => exact .pure _
  | succ steps ih =>
    exact .ite (.pure _) (.bind (containerOf_silent n) fun parent => .ite (.pure _) (ih parent))

theorem closesCycle_silent (moved newDir : NodeId) : (closesCycle moved newDir).Silent :=
  .bind (.look _) fun _ => .ite (.bind (.look _) fun _ => isAboveWithin_silent _ _ _) (.pure _)

theorem checkReplace_silent (moved target : NodeId) : (checkReplace moved target).Silent := by
  refine .bind .world fun w => .bind (.demand _ _) fun _ => .ite ?_ (.demand _ _)
  exact .bind (.demand _ _) fun _ => .bind (isEmpty_silent target) fun _ => .demand _ _

theorem nthEntry_silent (dir : NodeId) (index : Nat) : (nthEntry dir index).Silent := by
  refine .bind .world fun w => ?_
  match index with
  | 0 => exact .pure _
  | 1 => exact .bind (containerOf_silent dir) fun _ => .pure _
  | index + 2 => exact .bind (childrenOf_silent dir) fun _ => .pure _

theorem deviceDirectory_silent (v : VolumeKey) : (deviceDirectory v).Silent :=
  .bind (.look _) fun _ => lookup_silent _ _

theorem firstFound_silent {α β : Type} {f : α → Query (Option β)} (hf : ∀ a, (f a).Silent)
    (things : List α) : (firstFound f things).Silent := by
  induction things with
  | nil => exact .pure _
  | cons a rest ih =>
    refine .bind (hf a) fun found => ?_
    cases found with
    | none => exact ih
    | some b => exact .pure _

theorem findInoWithin_silent (ino levels : Nat) (dir : NodeId) :
    (findInoWithin ino levels dir).Silent := by
  induction levels generalizing dir with
  | zero => exact .pure _
  | succ levels ih =>
    exact .bind (childrenOf_silent dir) fun _ => firstFound_silent (fun ⟨_, child⟩ =>
      .bind .world fun _ => .ite (.pure _) (.ite (ih child) (.pure _))) _

theorem findDevice_silent (v : VolumeKey) (ino : Nat) : (findDevice v ino).Silent :=
  .bind (deviceDirectory_silent v) fun root => .bind
    (.bind (.look _) fun levels => findInoWithin_silent ino levels root) fun _ => .expect _ _

theorem makeNode_silent (v : VolumeKey) (dir : NodeId) (mode : UInt32) (content : Content)
    (ops : Option OpsKind) : (makeNode v dir mode content ops).Silent :=
  .bind (.query (nextInoOf_silent v)) fun _ => .bind .world fun _ => .bind (.change _) fun _ =>
    .pure _

theorem insert_silent (v : VolumeKey) (dir : NodeId) (name : String) (mode : UInt32)
    (content : Content) (ops : Option OpsKind) : (insert v dir name mode content ops).Silent :=
  .bind (.query (nextInoOf_silent v)) fun _ => .bind (.query (childrenOf_silent dir)) fun _ =>
    .bind (.query (.demand _ _)) fun _ => .bind (makeNode_silent v dir mode content ops) fun _ =>
      .bind (.change _) fun _ => .pure _

theorem unlink_silent (v : VolumeKey) (dir : NodeId) (name : String) :
    (unlink v dir name).Silent :=
  .bind (.query (nextInoOf_silent v)) fun _ => .bind (.query (childrenOf_silent dir)) fun _ =>
    .bind (.query (.expect _ _)) fun _ => .bind (.query (.look _)) fun _ =>
      .bind (.query (.demand _ _)) fun _ => .bind (.change _) fun _ => .change _

theorem removeDirectory_silent (v : VolumeKey) (dir : NodeId) (name : String) :
    (removeDirectory v dir name).Silent :=
  .bind (.query (nextInoOf_silent v)) fun _ => .bind (.query (childrenOf_silent dir)) fun _ =>
    .bind (.query (.expect _ _)) fun child => .bind (.query (.look _)) fun _ =>
      .bind (.query (.demand _ _)) fun _ => .bind (.query (.look _)) fun _ =>
        .bind (.query (.demand _ _)) fun _ => .bind (.query (isEmpty_silent child)) fun _ =>
          .bind (.query (.demand _ _)) fun _ => .bind (.change _) fun _ => .change _

theorem move_silent (moved oldDir : NodeId) (oldName : String) (newDir : NodeId)
    (newName : String) : (move moved oldDir oldName newDir newName).Silent :=
  .andFinally
    (.bind (.query (childrenOf_silent oldDir)) fun _ => .bind (.change _) fun _ =>
      .bind (.query (childrenOf_silent newDir)) fun _ => .bind (.change _) fun _ => .change _)
    (.change _)

theorem rename_silent (v : VolumeKey) (oldDir : NodeId) (oldName : String) (newDir : NodeId)
    (newName : String) (mustBeDirectory : Bool) :
    (rename v oldDir oldName newDir newName mustBeDirectory).Silent := by
  refine .bind (.query (nextInoOf_silent v)) fun _ =>
    .bind (.query (lookup_silent oldDir oldName)) fun moved => .bind .world fun w =>
      .bind (.query (.demand _ _)) fun _ => .bind (.query (.demand _ _)) fun _ =>
        .bind (.query (closesCycle_silent moved newDir)) fun _ =>
          .bind (.query (.demand _ _)) fun _ =>
            .bind (.query (lookup_silent newDir newName).attempt) fun found => ?_
  split
  · next target =>
    split
    · exact .pure _
    · exact .bind (.query (checkReplace_silent moved target)) fun _ =>
        move_silent moved oldDir oldName newDir newName
  · exact move_silent moved oldDir oldName newDir newName
  · exact .throw _

theorem ensureDirectory_silent (v : VolumeKey) (dir : NodeId) (name : String) :
    (ensureDirectory v dir name).Silent := by
  refine .bind (.query (lookup_silent dir name).attempt) fun found => ?_
  split
  · exact .pure _
  · exact .bind (.query (.look _)) fun _ => insert_silent v dir name _ _ _
  · exact .throw _

theorem descend_silent (v : VolumeKey) (names : List String) (dir : NodeId) :
    (descend v dir names).Silent := by
  induction names generalizing dir with
  | nil => exact .throw _
  | cons name rest ih =>
    cases rest with
    | nil => exact .bind (.query (.ofResult _)) fun _ => .pure _
    | cons next rest =>
      exact .bind (.query (.ofResult _)) fun _ =>
        .bind (ensureDirectory_silent v dir name) fun next => ih next

theorem devicePlace_silent (v : VolumeKey) (path : String) : (devicePlace v path).Silent :=
  .bind (.query (deviceDirectory_silent v)) fun root => descend_silent v _ root

theorem driver_silent : RamFs.driver.Silent where
  mount _ _ _ _ := .bind .world fun _ => .bind (.change _) fun _ => .pure _
  locate _ parent name := lookup_silent parent name
  createFile v parent name _ _ :=
    .bind (.query (.look _)) fun _ => .bind (insert_silent v parent name _ _ _) fun _ => .pure _
  createDirectory v parent name _ :=
    .bind (.query (.look _)) fun _ => .bind (insert_silent v parent name _ _ _) fun _ => .pure _
  createSymlink v parent name _ :=
    .bind (.query (.look _)) fun _ => .bind (insert_silent v parent name _ _ _) fun _ => .pure _
  rename v oldParent oldName newParent newName mustBeDirectory :=
    rename_silent v oldParent oldName newParent newName mustBeDirectory
  unlink v parent name := unlink_silent v parent name
  removeDirectory v parent name := removeDirectory_silent v parent name
  sync _ := .pure _

theorem truncate_silent (n : NodeId) : (truncate n).Silent := by
  refine .bind (.query (nodeOf_silent n)) fun node => ?_
  split
  · exact .change _
  · exact .pure _

theorem write_silent (n : NodeId) (position : Nat) (data : ByteArray) :
    (write n position data).Silent := by
  refine .bind (.query (nodeOf_silent n)) fun node => ?_
  split
  · split
    · exact .pure _
    · exact .bind (.query (.demand _ _)) fun _ => .bind (.change _) fun _ => .pure _
  · exact .bind (.query (.look _)) fun _ => .bind (.query (.demand _ _)) fun _ => .throw _

theorem setSize_silent (n : NodeId) (size : Nat) : (setSize n size).Silent := by
  refine .bind (.query (.demand _ _)) fun _ => .bind (.query (nodeOf_silent n)) fun node => ?_
  split
  · exact .change _
  all_goals exact .throw _

theorem ops_silent : RamFs.ops.Silent where
  openFile _ n _ := .bind (.when (truncate_silent n)) fun _ => .pure _
  openDirectory _ _ _ := .pure _
  close _ := .pure _
  read file _ _ := by
    refine .bind (nodeOf_silent file.node) fun node => ?_
    split
    · exact .pure _
    all_goals exact .throw _
  write file position data := write_silent file.node position data
  readLink _ n := by
    refine .bind (nodeOf_silent n) fun node => ?_
    split
    · exact .pure _
    · exact .throw _
  entry _ dir index := nthEntry_silent dir index
  status _ n := .bind (nodeOf_silent n) fun _ => .bind .world fun _ => .pure _
  writeStatus _ n _ _ :=
    .bind (.query (nodeOf_silent n)) fun _ => .bind (.when (setSize_silent n _)) fun _ =>
      .bind (.when (.change _)) fun _ => .change _
  checkAccess _ _ _ := .pure _
  control _ _ _ _ := .throw _
  sync _ := .pure _

end RamFs

/-! ## Devices -/

theorem addDevice_silent (path : String) (ops : OpsKind) : (addDevice path ops).Silent :=
  .bind (.query (.look _)) fun v =>
    .bind (.bind (RamFs.devicePlace_silent v path) fun place =>
      .bind (RamFs.insert_silent v place.1 place.2 _ _ _) fun _ => .query (.look _)) fun _ =>
        .bind (.note rfl) fun _ => .pure _

theorem moveDevice_silent (ino : Nat) (path : String) : (moveDevice ino path).Silent :=
  .bind (.query (.look _)) fun v => .bind (.query (RamFs.findDevice_silent v ino)) fun old =>
    .bind (RamFs.devicePlace_silent v path) fun new =>
      RamFs.rename_silent v old.1 old.2 new.1 new.2 false

theorem withdrawDevice_silent (ino : Nat) : (withdrawDevice ino).Silent :=
  .bind (.query (.look _)) fun v => .bind (.query (RamFs.findDevice_silent v ino)) fun found =>
    RamFs.unlink_silent v found.1 found.2

/-! ## Scripted filesystems -/

namespace Scripted

theorem childrenOf_silent (dir : NodeId) : (childrenOf dir).Silent := by
  refine .bind (.look _) fun payload => ?_
  split
  · exact .pure _
  · exact .throw _

theorem driver_silent (fs : ScriptedFs) : (Scripted.driver fs).Silent where
  mount _ _ _ _ := .bind (.query (.ofResult _)) fun _ => .bind (.look _) fun _ =>
    .bind (.change _) fun _ => .pure _
  locate _ parent _ := .bind (childrenOf_silent parent) fun _ => .ite (.look _) (.expect _ _)
  createFile _ _ _ _ _ := .throw _
  createDirectory _ _ _ _ := .throw _
  createSymlink _ _ _ _ := .throw _
  rename _ _ _ _ _ _ := by
    show (if fs.bare then throw .notImplemented else
      liftM (Query.ofResult (fs.refuse fs.renameFault)) : Act Unit).Silent
    split
    · exact .throw _
    · exact .query (.ofResult _)
  unlink _ _ _ := .throw _
  removeDirectory _ _ _ := .throw _
  sync _ := .ofResult _

theorem status_silent (v : VolumeKey) (n : NodeId) : (bareOps.status v n).Silent :=
  .bind (.look _) fun _ => .bind (.demand _ _) fun _ => .look _

theorem bareOps_silent : bareOps.Silent where
  openFile _ _ _ := .pure _
  openDirectory _ _ _ := .pure _
  close _ := .pure _
  read _ _ _ := .throw _
  write _ _ _ := .throw _
  readLink _ _ := .throw _
  entry _ _ _ := .throw _
  status v n := status_silent v n
  writeStatus _ _ _ _ := .throw _
  checkAccess _ _ _ := .pure _
  control _ _ _ _ := .throw _
  sync _ := .pure _

theorem ops_silent (script : Script) : (Scripted.ops script).Silent where
  openFile _ _ _ := .bind (.query (.ofResult _)) fun _ => .pure _
  openDirectory _ _ _ := .bind (.ofResult _) fun _ => .pure _
  close _ := .ofResult _
  read _ _ _ := .bind (.ofResult _) fun _ => .pure _
  write _ _ _ := .bind (.query (.ofResult _)) fun _ => .pure _
  readLink _ _ := .bind (.ofResult _) fun _ => .pure _
  entry _ dir _ := .bind (.ofResult _) fun _ => .bind (childrenOf_silent dir) fun _ =>
    .bind .world fun _ => .pure _
  status v n := by
    refine .bind (.ofResult _) fun _ => ?_
    split
    · exact status_silent v n
    · exact .bind (.look _) fun _ => .pure _
  writeStatus _ _ _ _ := .throw _
  checkAccess _ _ _ := .bind (.demand _ _) fun _ => .pure _
  control _ _ _ _ := .bind (.ofResult _) fun _ => .bind (.ofResult _) fun _ => .pure _
  sync _ := .ofResult _

end Scripted

/-- The drivers and operations that the library comes with call no driver. -/
theorem standard_silent : standard.Silent where
  driver
    | .ram => RamFs.driver_silent
    | .scripted fs => Scripted.driver_silent fs
  ops
    | .ram => RamFs.ops_silent
    | .bare => Scripted.bareOps_silent
    | .scripted _ script => Scripted.ops_silent script

end VirtualFs
