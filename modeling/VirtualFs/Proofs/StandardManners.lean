/-
The drivers and operations that the library comes with leave what is open
alone. What they change of a node is never its operations, and a node that is
open is never swept away.
-/
import VirtualFs.Proofs.Edit
import VirtualFs.Proofs.Leads
import VirtualFs.Proofs.RamManners

namespace VirtualFs

open World (Aside)
open VirtualFs.Action (does_pure does_throw does_look does_query does_bind does_change does_when)

/-! ## Single changes -/

namespace World

variable {w : World}

theorem ops_setNode (n : NodeId) {f : Node → Node} (hf : ∀ node, (f node).ops = node.ops)
    (m : NodeId) : ((w.setNode n f).node m).ops = (w.node m).ops :=
  view_setNode_of Node.ops hf m

theorem spares_setNode (n : NodeId) {f : Node → Node} (hf : ∀ node, (f node).ops = node.ops) :
    w.Spares (w.setNode n f) :=
  ⟨rfl, rfl, rfl, fun _ file ops _ hops => by rw [ops_setNode n hf, hops]⟩

/-- A node that has operations is there. -/
theorem get?_of_ops {n : NodeId} {ops : OpsKind} (h : (w.node n).ops = some ops) :
    w.nodes.get? n = some (w.node n) := by
  rw [World.node] at h ⊢
  cases hget : w.nodes.get? n with
  | none =>
    rw [hget] at h
    cases h
  | some node => rfl

/-- Nodes and volumes may come, as long as those that are there stay. -/
theorem spares_grow {nodes : Arena Node} (volumes : Arena Volume)
    (hnodes : ∀ n node, w.nodes.get? n = some node → nodes.get? n = some node) :
    w.Spares { w with nodes, volumes } := by
  refine ⟨rfl, rfl, rfl, fun _ file ops _ hops => ?_⟩
  have hget := hnodes _ _ (get?_of_ops hops)
  rw [World.node, hget]
  exact hops

theorem spares_sweep (w : World) : w.Spares w.sweep := by
  refine ⟨rfl, rfl, rfl, fun f file ops hfile hops => ?_⟩
  have hlive : w.Live file.node := Arena.has_iff.2 ⟨_, get?_of_ops hops⟩
  rw [node_sweep (live_sweep.2 ⟨hlive, file_mem_references hfile⟩)]
  exact hops

theorem spares_settle (w : World) : w.Spares w.settle :=
  settle_related Spares.refl Spares.trans spares_sweep w

end World

open World (spares_setNode spares_grow spares_settle)

theorem Arena.get?_push_of_get? {α : Type} {a : Arena α} {key : Nat} {thing : α} (new : α)
    (h : a.get? key = some thing) : (a.push new).get? key = some thing := by
  have hlt := Arena.lt_nextKey_of_has (Arena.has_iff.2 ⟨thing, h⟩)
  rw [Arena.get?_push, if_neg (Nat.ne_of_lt hlt), h]

/-! ## The memory filesystem -/

namespace RamFs

variable {full : Prop}

theorem modifyNode_aside (n : NodeId) (f : RamNode → RamNode) :
    (modifyNode n f).Does Aside full := by
  refine does_change fun w => ⟨spares_setNode n fun node => ?_, quiet_nil⟩
  split <;> rfl

instance : World.Growing Aside where
  made _ volumes _ _ :=
    ⟨spares_grow volumes fun _ _ hget => Arena.get?_push_of_get? _ hget, quiet_nil⟩
  listed dir _ := modifyNode_aside dir _
  turned n _ := modifyNode_aside n _
  settled w := ⟨spares_settle w, quiet_nil⟩

theorem driver_discreet : RamFs.driver.Discreet full where
  mount id device flags _ := mount_does id device flags
  locate _ parent name := lookup_discreet parent name
  createFile v parent name flags mode := createFile_does v parent name flags mode
  created v parent name flags mode w file hfile := by
    obtain ⟨ops, -, hfile⟩ := Action.result_bind_eq_ok.1 hfile
    obtain ⟨n, -, hfile⟩ := Action.result_bind_eq_ok.1 hfile
    cases hfile
    rfl
  createDirectory v parent name mode := createDirectory_does v parent name mode
  createSymlink v parent name target := createSymlink_does v parent name target
  rename v oldParent oldName newParent newName mustBeDirectory :=
    rename_does v oldParent oldName newParent newName mustBeDirectory
  unlink v parent name := unlink_does v parent name
  removeDirectory v parent name := removeDirectory_does v parent name
  sync _ := .pure _

/-- A node that is made gets the operations it is to have. -/
theorem insert_ops (v : VolumeKey) (dir : NodeId) (name : String) (mode : UInt32)
    (content : Content) (ops : Option OpsKind) (w : World) :
    (insert v dir name mode content ops).Leads (fun _ _ => True) w fun n w' =>
      (w'.node n).ops = ops := by
  have hmade : (makeNode v dir mode content ops).Leads (fun _ _ => True) w fun n w' =>
      (w'.node n).ops = ops := by
    refine Action.leads_query_bind fun ino _ => Action.leads_world_bind
      (Action.leads_change_bind (.single trivial) (Action.leads_pure ?_))
    rw [World.node, Arena.get?_push, if_pos rfl]
    rfl
  refine Action.leads_query_bind fun _ _ => Action.leads_query_bind fun children _ =>
    Action.leads_demand_bind fun _ => Action.leads_bind hmade fun n w' _ hops =>
      Action.leads_change_bind (.single trivial) (Action.leads_pure ?_)
  rw [World.ops_setNode dir (fun node => ?_) n, hops]
  split <;> rfl

/-- A file gets the operations of the directory it is created in. -/
theorem createFile_ops (v : VolumeKey) (parent : NodeId) (name : String) (flags : OpenFlags)
    (mode : UInt32) (w : World) :
    (createFile v parent name flags mode).Leads (fun _ _ => True) w fun file w' =>
      (w'.node file.node).ops = (w.node parent).ops :=
  Action.leads_ask_bind (Action.leads_bind (insert_ops v parent name _ _ _ w)
    fun _ _ _ hops => Action.leads_pure hops)

theorem setBytes_aside (n : NodeId) (bytes : ByteArray) : (setBytes n bytes).Does Aside full :=
  modifyNode_aside n _

theorem truncate_aside (n : NodeId) : (truncate n).Does Aside full := by
  refine does_bind (does_query (nodeOf_discreet n)) fun node => ?_
  split
  · exact setBytes_aside n _
  · exact does_pure _

theorem openFile_aside (n : NodeId) (flags : OpenFlags) : (openFile n flags).Does Aside full :=
  does_bind (does_when (truncate_aside n)) fun _ => does_pure _

theorem write_aside (n : NodeId) (position : Nat) (data : ByteArray) :
    (write n position data).Does Aside full := by
  refine does_bind (does_query (nodeOf_discreet n)) fun node => ?_
  split
  · split
    · exact does_pure _
    · exact does_bind (does_query (.demand _ (by simp))) fun _ =>
        does_bind (setBytes_aside n _) fun _ => does_pure _
  · exact does_bind (does_query (.look _)) fun _ =>
      does_bind (does_query (.demand _ (by simp))) fun _ => does_throw (by simp)

theorem setSize_aside (n : NodeId) (size : Nat) : (setSize n size).Does Aside full := by
  refine does_bind (does_query (.demand _ nofun)) fun _ =>
    does_bind (does_query (nodeOf_discreet n)) fun node => ?_
  split
  · exact setBytes_aside n _
  all_goals exact does_throw nofun

theorem writeStatus_aside (n : NodeId) (status : Status) (mask : StatusMask) :
    (writeStatus n status mask).Does Aside full := by
  refine does_bind (does_query (nodeOf_discreet n)) fun _ =>
    does_bind (does_when (setSize_aside n _)) fun _ =>
      does_bind (does_when ?_) fun _ => modifyNode_aside n _
  exact does_change fun w => ⟨spares_setNode n fun _ => rfl, quiet_nil⟩

/-- A file is opened as the node that was asked for, which keeps its operations. -/
theorem openFile_opened (n : NodeId) (flags : OpenFlags) (w : World) (file : OpenFile)
    (ops : OpsKind) (hops : (w.node n).ops = some ops)
    (hfile : (openFile n flags w).result = .ok file) : file.isPath = false ∧
      ((openFile n flags w).world.node file.node).ops.isSome = true := by
  have hsame : (openFile n flags).Leads
      (fun w w' => (w.node n).ops = some ops → (w'.node n).ops = some ops) w
        fun file _ => file = .stream n flags := by
    refine Action.leads_bind (P := fun _ _ => True) (Action.leads_when (fun _ => ?_) fun _ =>
      trivial) fun _ _ _ _ => Action.leads_pure rfl
    refine Action.leads_query_bind fun node _ => ?_
    split
    · refine Action.leads_change (.single fun h => ?_) trivial
      rw [World.ops_setNode n (fun node => ?_) n, h]
      split <;> rfl
    · exact Action.leads_pure trivial
  obtain rfl := hsame.2 file hfile
  refine ⟨rfl, ?_⟩
  show ((openFile n flags w).world.node n).ops.isSome = true
  rw [hsame.only.kept (P := fun w => (w.node n).ops = some ops) hops]
  rfl

theorem ops_discreet : RamFs.ops.Discreet full where
  openFile _ n flags := openFile_aside n flags
  opened _ n flags w file ops hops hfile := openFile_opened n flags w file ops hops hfile
  openDirectory _ _ _ := .pure _
  listing _ n flags w file ops hops hfile := by
    cases hfile
    exact ⟨rfl, congrArg Option.isSome hops⟩
  close _ := .pure _
  read file position room := by
    refine .bind (nodeOf_discreet file.node) fun node => ?_
    split
    · exact .pure _
    all_goals exact .throw nofun
  write file position data := write_aside file.node position data
  readLink _ n := by
    refine .bind (nodeOf_discreet n) fun node => ?_
    split
    · exact .pure _
    · exact .throw nofun
  entry _ dir index := nthEntry_discreet dir index
  status v n := .bind (nodeOf_discreet n) fun _ => .bind .world fun _ => .pure _
  writeStatus _ n status mask := writeStatus_aside n status mask
  checkAccess _ _ _ := .pure _
  control _ _ _ _ := .throw nofun
  sync _ := .pure _

end RamFs

/-! ## Scripted filesystems -/

namespace Scripted

theorem childrenOf_discreet {full : Prop} (dir : NodeId) :
    (childrenOf dir).Discreet full := by
  refine .bind (.look _) fun payload => ?_
  split
  · exact .pure _
  · exact .throw nofun

mutual

/-- Planting puts nodes beside those that are there. -/
theorem get?_plant {fs : ScriptedFs} {id : Nat} {v : VolumeKey} {n : NodeId} {node : Node}
    (ino : Nat) (tree : ScriptedTree) (nodes : Arena Node) (h : nodes.get? n = some node) :
    (plant fs id v ino tree nodes).2.get? n = some node := by
  cases tree with
  | node name mode own ops entries =>
    rw [plant]
    exact Arena.get?_push_of_get? _ (get?_plantAll 2 entries nodes h)

theorem get?_plantAll {fs : ScriptedFs} {id : Nat} {v : VolumeKey} {n : NodeId} {node : Node}
    (ino : Nat) (trees : List ScriptedTree) (nodes : Arena Node)
    (h : nodes.get? n = some node) :
    (plantAll fs id v ino trees nodes).2.get? n = some node := by
  cases trees with
  | nil =>
    rw [plantAll]
    exact h
  | cons tree rest =>
    rw [plantAll]
    exact get?_plantAll (ino + 1) rest _ (get?_plant ino tree nodes h)

end

theorem mount_aside (fs : ScriptedFs) (id : Nat) (device : String) (flags : VolumeFlags) :
    (mount fs id device flags).Does Aside True := by
  refine does_bind (does_query (.ofResult fun _ => trivial)) fun _ => does_bind (does_look _)
    fun v => does_bind (does_change fun w => ⟨?_, quiet_nil⟩) fun _ => does_pure _
  have hget : ∀ n node, w.nodes.get? n = some node →
      (plant fs id v 1 fs.root w.nodes).2.get? n = some node :=
    fun n node hnode => get?_plant 1 fs.root w.nodes hnode
  rcases hplant : plant fs id v 1 fs.root w.nodes with ⟨root, nodes⟩
  rw [hplant] at hget
  exact (spares_grow _ hget).trans (spares_settle _)

theorem driver_discreet (fs : ScriptedFs) : (Scripted.driver fs).Discreet True where
  mount id device flags _ := mount_aside fs id device flags
  locate v parent name := .bind (childrenOf_discreet parent) fun _ =>
    .ite (.look _) (.expect _ nofun)
  createFile _ _ _ _ _ := does_throw nofun
  created _ _ _ _ _ _ _ hfile := nomatch hfile
  createDirectory _ _ _ _ := does_throw nofun
  createSymlink _ _ _ _ := does_throw nofun
  rename _ _ _ _ _ _ := by
    show (if fs.bare then throw .notImplemented else
      liftM (Query.ofResult (fs.refuse fs.renameFault)) : Act Unit).Does Aside True
    split
    · exact does_throw nofun
    · exact does_query (.ofResult fun _ => trivial)
  unlink _ _ _ := does_throw nofun
  removeDirectory _ _ _ := does_throw nofun
  sync _ := .ofResult fun _ => trivial

variable {full : Prop}

theorem status_discreet (v : VolumeKey) (n : NodeId) : (bareOps.status v n).Discreet full :=
  .bind (.look _) fun _ => .bind (.demand _ nofun) fun _ => .look _

theorem bareOps_discreet : bareOps.Discreet full where
  openFile _ _ _ := does_pure _
  opened _ n flags w file ops hops hfile := by
    cases hfile
    exact ⟨rfl, congrArg Option.isSome hops⟩
  openDirectory _ _ _ := .pure _
  listing _ n flags w file ops hops hfile := by
    cases hfile
    exact ⟨rfl, congrArg Option.isSome hops⟩
  close _ := .pure _
  read _ _ _ := .throw nofun
  write _ _ _ := does_throw nofun
  readLink _ _ := .throw nofun
  entry _ _ _ := .throw nofun
  status v n := status_discreet v n
  writeStatus _ _ _ _ := does_throw nofun
  checkAccess _ _ _ := .pure _
  control _ _ _ _ := .throw nofun
  sync _ := .pure _

theorem ops_discreet (script : Script) : (Scripted.ops script).Discreet True where
  openFile _ _ _ := does_bind (does_query (.ofResult fun _ => trivial)) fun _ => does_pure _
  opened v n flags w file ops hops hfile := by
    have hworld : ((Scripted.ops script).openFile v n flags w).world = w :=
      (Action.leads_query_bind fun _ _ => Action.leads_pure trivial :
        Action.LeadsOnly (fun _ _ => False) _ w).world_eq
    obtain ⟨_, -, hfile⟩ := Action.result_bind_eq_ok.1 hfile
    cases hfile
    rw [hworld]
    exact ⟨rfl, congrArg Option.isSome hops⟩
  openDirectory _ _ _ := .bind (.ofResult fun _ => trivial) fun _ => .pure _
  listing _ n flags w file ops hops hfile := by
    obtain ⟨_, -, hfile⟩ := Query.result_bind_eq_ok.1 hfile
    cases hfile
    exact ⟨rfl, congrArg Option.isSome hops⟩
  close _ := .ofResult fun _ => trivial
  read _ _ _ := .bind (.ofResult fun _ => trivial) fun _ => .pure _
  write _ _ _ := does_bind (does_query (.ofResult fun _ => trivial)) fun _ => does_pure _
  readLink _ _ := .bind (.ofResult fun _ => trivial) fun _ => .pure _
  entry _ dir _ := .bind (.ofResult fun _ => trivial) fun _ =>
    .bind (childrenOf_discreet dir) fun _ => .bind .world fun _ => .pure _
  status v n := by
    refine .bind (.ofResult fun _ => trivial) fun _ => ?_
    split
    · exact status_discreet v n
    · exact .bind (.look _) fun _ => .pure _
  writeStatus _ _ _ _ := does_throw nofun
  checkAccess _ _ _ := .bind (.demand _ nofun) fun _ => .pure _
  control _ _ _ _ := .bind (.ofResult fun _ => trivial) fun _ =>
    .bind (.ofResult fun _ => trivial) fun _ => .pure _
  sync _ := .ofResult fun _ => trivial

end Scripted

/-- The memory filesystem alone. -/
@[reducible] def ramBackends : Backends where
  driver _ := RamFs.driver
  ops _ := RamFs.ops

/-- The memory filesystem never takes a table for full. -/
theorem ram_discreet : @Backends.Discreet ramBackends False :=
  @Backends.Discreet.mk ramBackends False (fun _ => RamFs.driver_discreet)
    fun _ => RamFs.ops_discreet

/-- The drivers and operations that the library comes with leave what is open alone. -/
theorem standard_discreet : @Backends.Discreet standard True where
  driver
    | .ram => RamFs.driver_discreet
    | .scripted fs => Scripted.driver_discreet fs
  ops
    | .ram => RamFs.ops_discreet
    | .bare => Scripted.bareOps_discreet
    | .scripted _ script => Scripted.ops_discreet script

end VirtualFs
