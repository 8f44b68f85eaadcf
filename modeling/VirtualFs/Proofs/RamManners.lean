/-
What the memory filesystem does to its trees: it makes nodes that hold nothing
yet, changes what directories list and where nodes hang, and sweeps. A relation
between worlds that follows these (`World.Growing`) follows every change of
names, and every device that is published, moved or withdrawn.
-/
import VirtualFs.Boot
import VirtualFs.Proofs.Manners

namespace VirtualFs

open VirtualFs.Action (does_pure does_throw does_world does_query does_query_bind does_bind
  does_change does_andFinally)

/-- The bytes of a node, if it is a regular file of the memory filesystem. -/
def Node.bytes? (node : Node) : Option ByteArray :=
  match node.payload with
  | .ram ram =>
    match ram.content with
    | .file bytes => some bytes
    | _ => none
  | .scripted _ => none

/-- Follows what is made of nodes and of what lists them. A node that is made holds no bytes yet. -/
class World.Growing (R : World → List Event → World → Prop) : Prop extends Stretch R where
  made : ∀ w volumes (node : Node), (∀ bytes, node.bytes? = some bytes → bytes = .empty) →
    R w [] { w with volumes, nodes := w.nodes.push node }
  listed : ∀ {F : Prop} dir children, (RamFs.setChildren dir children).Does R F
  turned : ∀ {F : Prop} n parent,
    (RamFs.modifyNode n fun node => { node with parent := some parent }).Does R F
  settled : ∀ w, R w [] w.settle

/-- Holds no bytes. -/
def Content.Blank (content : Content) : Prop := ∀ bytes, content = .file bytes → bytes = .empty

theorem Content.Blank.file : (Content.file .empty).Blank := fun _ heq => (Content.file.inj heq).symm

theorem Content.Blank.directory : (Content.directory .empty).Blank := fun _ heq => nomatch heq

theorem Content.Blank.symlink (target : String) : (Content.symlink target).Blank :=
  fun _ heq => nomatch heq

theorem Content.Blank.device : Content.device.Blank := fun _ heq => nomatch heq

namespace RamFs

variable {R : World → List Event → World → Prop} {F : Prop}

theorem nodeOf_discreet (n : NodeId) : (nodeOf n).Discreet F := by
  refine .bind (.look _) fun payload => ?_
  cases payload with
  | ram => exact .pure _
  | scripted => exact .throw nofun

theorem nextInoOf_discreet (v : VolumeKey) : (nextInoOf v).Discreet F :=
  .bind (.look _) fun _ => .expect _ nofun

theorem childrenOf_discreet (dir : NodeId) : (childrenOf dir).Discreet F := by
  refine .bind (nodeOf_discreet dir) fun node => ?_
  split
  · exact .pure _
  · exact .throw nofun

theorem containerOf_discreet (n : NodeId) : (containerOf n).Discreet F :=
  .bind (nodeOf_discreet n) fun _ => .look _

theorem lookup_discreet (dir : NodeId) (name : String) : (lookup dir name).Discreet F :=
  .ite (.pure _) (.ite (containerOf_discreet dir) (.bind (childrenOf_discreet dir) fun _ =>
    .expect _ nofun))

theorem isEmpty_discreet (dir : NodeId) : (isEmpty dir).Discreet F :=
  .bind (childrenOf_discreet dir) fun _ => .pure _

theorem isAboveWithin_discreet (ancestor : NodeId) (steps : Nat) (n : NodeId) :
    (isAboveWithin ancestor steps n).Discreet F := by
  induction steps generalizing n with
  | zero => exact .pure _
  | succ steps ih =>
    exact .ite (.pure _) (.bind (containerOf_discreet n) fun parent => .ite (.pure _) (ih parent))

theorem closesCycle_discreet (moved newDir : NodeId) :
    (closesCycle moved newDir).Discreet F :=
  .bind (.look _) fun _ => .ite (.bind (.look _) fun _ => isAboveWithin_discreet _ _ _) (.pure _)

theorem checkReplace_discreet (moved target : NodeId) :
    (checkReplace moved target).Discreet F := by
  refine .bind .world fun w => .bind (.demand _ nofun) fun _ => .ite ?_ (.demand _ nofun)
  exact .bind (.demand _ nofun) fun _ => .bind (isEmpty_discreet target) fun _ =>
    .demand _ nofun

theorem nthEntry_discreet (dir : NodeId) (index : Nat) : (nthEntry dir index).Discreet F := by
  refine .bind .world fun w => ?_
  match index with
  | 0 => exact .pure _
  | 1 => exact .bind (containerOf_discreet dir) fun _ => .pure _
  | index + 2 => exact .bind (childrenOf_discreet dir) fun _ => .pure _

theorem inheritedOps_discreet (dir : NodeId) : (inheritedOps dir).Discreet F := .look _

theorem deviceDirectory_discreet (v : VolumeKey) : (deviceDirectory v).Discreet F :=
  .bind (.look _) fun _ => lookup_discreet _ _

theorem firstFound_discreet {α β : Type} {f : α → Query (Option β)}
    (hf : ∀ a, (f a).Discreet F) (things : List α) : (firstFound f things).Discreet F := by
  induction things with
  | nil => exact .pure _
  | cons a rest ih =>
    refine .bind (hf a) fun found => ?_
    cases found with
    | none => exact ih
    | some b => exact .pure _

theorem findInoWithin_discreet (ino levels : Nat) (dir : NodeId) :
    (findInoWithin ino levels dir).Discreet F := by
  induction levels generalizing dir with
  | zero => exact .pure _
  | succ levels ih =>
    exact .bind (childrenOf_discreet dir) fun _ => firstFound_discreet (fun ⟨_, child⟩ =>
      .bind .world fun _ => .ite (.pure _) (.ite (ih child) (.pure _))) _

theorem findDevice_discreet (v : VolumeKey) (ino : Nat) : (findDevice v ino).Discreet F :=
  .bind (deviceDirectory_discreet v) fun root => .bind
    (.bind (.look _) fun levels => findInoWithin_discreet ino levels root) fun _ => .expect _ nofun

/-! ## Changes of names -/

variable [World.Growing R]

theorem mount_does (id : Nat) (device : String) (flags : VolumeFlags) :
    (mount id device flags).Does R F := by
  refine does_bind does_world fun w => does_bind (does_change fun w' => ?_) fun _ => does_pure _
  exact World.Growing.made w' _ _ nofun

theorem makeNode_does (v : VolumeKey) (dir : NodeId) (mode : UInt32) {content : Content}
    (hblank : content.Blank) (ops : Option OpsKind) :
    (makeNode v dir mode content ops).Does R F := by
  refine does_bind (does_query (nextInoOf_discreet v)) fun ino => does_bind does_world fun w =>
    does_bind (does_change fun w' => World.Growing.made w' _ _ fun bytes hbytes => ?_)
      fun _ => does_pure _
  cases content with
  | file held =>
    cases hbytes
    exact hblank _ rfl
  | _ => cases hbytes

theorem insert_does (v : VolumeKey) (dir : NodeId) (name : String) (mode : UInt32)
    {content : Content} (hblank : content.Blank) (ops : Option OpsKind) :
    (insert v dir name mode content ops).Does R F :=
  does_bind (does_query (nextInoOf_discreet v)) fun _ =>
    does_bind (does_query (childrenOf_discreet dir)) fun _ =>
      does_bind (does_query (.demand _ nofun)) fun _ =>
        does_bind (makeNode_does v dir mode hblank ops) fun _ =>
          does_bind (World.Growing.listed dir _) fun _ => does_pure _

theorem unlink_does (v : VolumeKey) (dir : NodeId) (name : String) :
    (unlink v dir name).Does R F :=
  does_bind (does_query (nextInoOf_discreet v)) fun _ =>
    does_bind (does_query (childrenOf_discreet dir)) fun _ =>
      does_bind (does_query (.expect _ nofun)) fun _ =>
        does_bind (does_query (.look _)) fun _ =>
          does_bind (does_query (.demand _ nofun)) fun _ =>
            does_bind (World.Growing.listed dir _) fun _ =>
              (does_change fun w => World.Growing.settled w)

theorem removeDirectory_does (v : VolumeKey) (dir : NodeId) (name : String) :
    (removeDirectory v dir name).Does R F :=
  does_bind (does_query (nextInoOf_discreet v)) fun _ =>
    does_bind (does_query (childrenOf_discreet dir)) fun _ =>
      does_bind (does_query (.expect _ nofun)) fun child =>
        does_bind (does_query (.look _)) fun _ =>
          does_bind (does_query (.demand _ nofun)) fun _ =>
            does_bind (does_query (.look _)) fun _ =>
              does_bind (does_query (.demand _ nofun)) fun _ =>
                does_bind (does_query (isEmpty_discreet child)) fun _ =>
                  does_bind (does_query (.demand _ nofun)) fun _ =>
                    does_bind (World.Growing.listed dir _) fun _ =>
                      (does_change fun w => World.Growing.settled w)

theorem move_does (moved oldDir : NodeId) (oldName : String) (newDir : NodeId)
    (newName : String) : (move moved oldDir oldName newDir newName).Does R F := by
  refine does_andFinally ?_ (does_change fun w => World.Growing.settled w)
  exact does_bind (does_query (childrenOf_discreet oldDir)) fun _ =>
    does_bind (World.Growing.listed oldDir _) fun _ =>
      does_bind (does_query (childrenOf_discreet newDir)) fun _ =>
        does_bind (World.Growing.listed newDir _) fun _ => World.Growing.turned moved newDir

theorem rename_does (v : VolumeKey) (oldDir : NodeId) (oldName : String) (newDir : NodeId)
    (newName : String) (mustBeDirectory : Bool) :
    (rename v oldDir oldName newDir newName mustBeDirectory).Does R F := by
  have hfound := lookup_discreet (F := F) newDir newName
  refine does_bind (does_query (nextInoOf_discreet v)) fun _ =>
    does_bind (does_query (lookup_discreet oldDir oldName)) fun moved =>
      does_bind does_world fun w => does_bind (does_query (.demand _ nofun)) fun _ =>
        does_bind (does_query (.demand _ nofun)) fun _ =>
          does_bind (does_query (closesCycle_discreet moved newDir)) fun _ =>
            does_bind (does_query (.demand _ nofun)) fun _ =>
              does_query_bind hfound.attempt fun found w hresult => ?_
  rw [Query.result_attempt, Except.ok.injEq] at hresult
  split
  · next target =>
    split
    · exact does_pure _
    · exact does_bind (does_query (checkReplace_discreet moved target)) fun _ =>
        move_does moved oldDir oldName newDir newName
  · exact move_does moved oldDir oldName newDir newName
  · next e _ => exact does_throw fun he => (hfound w).2 (by rw [hresult, he])

theorem ensureDirectory_does (v : VolumeKey) (dir : NodeId) (name : String) :
    (ensureDirectory v dir name).Does R F := by
  have hfound := lookup_discreet (F := F) dir name
  refine does_query_bind hfound.attempt fun found w hresult => ?_
  rw [Query.result_attempt, Except.ok.injEq] at hresult
  split
  · exact does_pure _
  · exact does_bind (does_query (inheritedOps_discreet dir)) fun _ =>
      insert_does v dir name _ .directory _
  · exact does_throw fun he => (hfound w).2 (by rw [hresult, he])

theorem descend_does (v : VolumeKey) (names : List String) (dir : NodeId) :
    (descend v dir names).Does R F := by
  induction names generalizing dir with
  | nil => exact does_throw nofun
  | cons name rest ih =>
    have hname : (Query.ofResult (checkName name)).Discreet F :=
      .ofResult fun hname => absurd hname (checkName_ne_full name)
    cases rest with
    | nil => exact does_bind (does_query hname) fun _ => does_pure _
    | cons next rest =>
      exact does_bind (does_query hname) fun _ =>
        does_bind (ensureDirectory_does v dir name) fun next => ih next

theorem devicePlace_does (v : VolumeKey) (path : String) :
    (devicePlace v path).Does R F :=
  does_bind (does_query (deviceDirectory_discreet v)) fun root => descend_does v _ root

theorem publishDevice_does (v : VolumeKey) (path : String) (ops : OpsKind) :
    (publishDevice v path ops).Does R F :=
  does_bind (devicePlace_does v path) fun place =>
    does_bind (insert_does v place.1 place.2 _ .device _) fun _ => does_query (.look _)

theorem moveDevice_does (v : VolumeKey) (ino : Nat) (path : String) :
    (moveDevice v ino path).Does R F :=
  does_bind (does_query (findDevice_discreet v ino)) fun old =>
    does_bind (devicePlace_does v path) fun new => rename_does v old.1 old.2 new.1 new.2 false

theorem withdrawDevice_does (v : VolumeKey) (ino : Nat) :
    (withdrawDevice v ino).Does R F :=
  does_bind (does_query (findDevice_discreet v ino)) fun found => unlink_does v found.1 found.2

theorem createFile_does (v : VolumeKey) (parent : NodeId) (name : String) (flags : OpenFlags)
    (mode : UInt32) : (createFile v parent name flags mode).Does R F :=
  does_bind (does_query (inheritedOps_discreet parent)) fun _ =>
    does_bind (insert_does v parent name _ .file _)
      fun _ => does_pure _

theorem createDirectory_does (v : VolumeKey) (parent : NodeId) (name : String) (mode : UInt32) :
    (createDirectory v parent name mode).Does R F :=
  does_bind (does_query (inheritedOps_discreet parent)) fun _ =>
    does_bind (insert_does v parent name _ .directory _) fun _ => does_pure _

theorem createSymlink_does (v : VolumeKey) (parent : NodeId) (name target : String) :
    (createSymlink v parent name target).Does R F :=
  does_bind (does_query (inheritedOps_discreet parent)) fun _ =>
    does_bind (insert_does v parent name _ (.symlink target) _) fun _ => does_pure _

end RamFs

end VirtualFs
