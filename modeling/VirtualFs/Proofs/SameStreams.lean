/-
Files and streams that are left alone. What neither reads a stream nor writes
leaves the bytes of every regular file as they are, and each stream at its
position; files and streams may go, and files that are made are empty.
-/
import VirtualFs.Proofs.Idling
import VirtualFs.Proofs.Streams
import VirtualFs.Standard

namespace VirtualFs

open VirtualFs.Action (does_pure does_throw does_look does_query does_bind does_change)

/-- What is open for reading and writing bytes. -/
def OpenFile.stream? (file : OpenFile) : Option Stream :=
  match file.kind with
  | .stream position => some { node := file.node, flags := file.flags, position }
  | _ => none

theorem OpenFile.setCursor_stream? (file : OpenFile) (cursor : Nat) :
    (file.setCursor cursor).stream? = file.stream? := by
  rw [OpenFile.setCursor]
  split
  · next hkind => simp [OpenFile.stream?, hkind]
  · rfl

/-- A node of the same type that holds the same bytes, if any. -/
structure Node.SameBytes (node node' : Node) : Prop where
  type : Mode.typeBits node'.mode = Mode.typeBits node.mode
  bytes : ∀ bytes, node'.bytes? = some bytes → node.bytes? = some bytes

theorem Node.SameBytes.refl (node : Node) : node.SameBytes node := ⟨rfl, fun _ h => h⟩

theorem Node.SameBytes.trans {a b c : Node} (h : a.SameBytes b) (h' : b.SameBytes c) :
    a.SameBytes c :=
  ⟨h'.type.trans h.type, fun bytes hbytes => h.bytes bytes (h'.bytes bytes hbytes)⟩

namespace World

/-- What there is of nodes and streams was there before and is as it was, but for nodes that have
been made and hold no bytes. -/
structure SameStreams (w w' : World) : Prop where
  nextNode : w.nodes.nextKey ≤ w'.nodes.nextKey
  node : ∀ n < w.nodes.nextKey, ∀ node', w'.nodes.get? n = some node' →
    ∃ node, w.nodes.get? n = some node ∧ node.SameBytes node'
  made : ∀ n, w.nodes.nextKey ≤ n → ∀ node', w'.nodes.get? n = some node' →
    ∀ bytes, node'.bytes? = some bytes → bytes = .empty
  nextFile : w'.files.nextKey = w.files.nextKey
  file : ∀ f file', w'.files.get? f = some file' →
    ∃ file, w.files.get? f = some file ∧ file'.stream? = file.stream?

/-- A stretch of a run in which files and streams are left alone, whatever is seen. -/
def Harmless (w : World) (_ : List Event) (w' : World) : Prop := w.SameStreams w'

variable {w w' w'' : World}

/-- Nodes may go, and so may streams. -/
theorem SameStreams.of_same (hnode : w'.nodes.nextKey = w.nodes.nextKey)
    (hnodes : ∀ n node', w'.nodes.get? n = some node' →
      ∃ node, w.nodes.get? n = some node ∧ node.SameBytes node')
    (hfile : w'.files.nextKey = w.files.nextKey)
    (hfiles : ∀ f file', w'.files.get? f = some file' →
      ∃ file, w.files.get? f = some file ∧ file'.stream? = file.stream?) : w.SameStreams w' where
  nextNode := Nat.le_of_eq hnode.symm
  node n _ := hnodes n
  made n hn node' hnode' := by
    obtain ⟨node, hold, -⟩ := hnodes n node' hnode'
    exact absurd (Arena.lt_nextKey_of_has (Arena.has_iff.2 ⟨node, hold⟩)) (Nat.not_lt.2 hn)
  nextFile := hfile
  file := hfiles

theorem SameStreams.of_nodes (hnodes : w'.nodes = w.nodes)
    (hfile : w'.files.nextKey = w.files.nextKey)
    (hfiles : ∀ f file', w'.files.get? f = some file' →
      ∃ file, w.files.get? f = some file ∧ file'.stream? = file.stream?) : w.SameStreams w' :=
  .of_same (by rw [hnodes]) (fun n node' hnode' => ⟨node', by rw [← hnodes]; exact hnode', .refl _⟩)
    hfile hfiles

theorem SameStreams.of_files (hnode : w'.nodes.nextKey = w.nodes.nextKey)
    (hnodes : ∀ n node', w'.nodes.get? n = some node' →
      ∃ node, w.nodes.get? n = some node ∧ node.SameBytes node') (hfiles : w'.files = w.files) :
    w.SameStreams w' :=
  .of_same hnode hnodes (by rw [hfiles]) fun f file' hfile' =>
    ⟨file', by rw [← hfiles]; exact hfile', rfl⟩

theorem SameStreams.refl (w : World) : w.SameStreams w :=
  .of_files rfl (fun _ node' hnode' => ⟨node', hnode', .refl _⟩) rfl

theorem SameStreams.trans (h : w.SameStreams w') (h' : w'.SameStreams w'') :
    w.SameStreams w'' where
  nextNode := Nat.le_trans h.nextNode h'.nextNode
  node n hn node'' hnode'' := by
    obtain ⟨node', hnode', hsame'⟩ :=
      h'.node n (Nat.lt_of_lt_of_le hn h.nextNode) node'' hnode''
    obtain ⟨node, hnode, hsame⟩ := h.node n hn node' hnode'
    exact ⟨node, hnode, hsame.trans hsame'⟩
  made n hn node'' hnode'' bytes hbytes := by
    by_cases hold : n < w'.nodes.nextKey
    · obtain ⟨node', hnode', hsame'⟩ := h'.node n hold node'' hnode''
      exact h.made n hn node' hnode' bytes (hsame'.bytes bytes hbytes)
    · exact h'.made n (Nat.not_lt.1 hold) node'' hnode'' bytes hbytes
  nextFile := h'.nextFile.trans h.nextFile
  file f file'' hfile'' := by
    obtain ⟨file', hfile', hsame'⟩ := h'.file f file'' hfile''
    obtain ⟨file, hfile, hsame⟩ := h.file f file' hfile'
    exact ⟨file, hfile, hsame'.trans hsame⟩

theorem sameStreams_setNode (n : NodeId) {f : Node → Node}
    (hf : ∀ node : Node, node.SameBytes (f node)) : w.SameStreams (w.setNode n f) := by
  refine .of_files (Arena.nextKey_modify _ _ _) (fun m node' hnode' => ?_) rfl
  obtain ⟨node, hnode, rfl | rfl⟩ := Arena.exists_get?_of_modify hnode'
  · exact ⟨_, hnode, .refl _⟩
  · exact ⟨node, hnode, hf node⟩

theorem sameStreams_setCursor (f : FileId) (cursor : OpenFile → Nat) :
    w.SameStreams (w.setFile f fun file => file.setCursor (cursor file)) := by
  refine .of_nodes rfl (Arena.nextKey_modify _ _ _) fun g file' hfile' => ?_
  obtain ⟨file, hfile, rfl | rfl⟩ := Arena.exists_get?_of_modify hfile'
  · exact ⟨_, hfile, rfl⟩
  · exact ⟨file, hfile, file.setCursor_stream? _⟩

theorem sameStreams_sweep (w : World) : w.SameStreams w.sweep :=
  .of_files (Arena.nextKey_keep _ _)
    (fun _ node' hnode' => ⟨node', Arena.get?_of_keep hnode', .refl _⟩) rfl

theorem sameStreams_settle (w : World) : w.SameStreams w.settle :=
  settle_related SameStreams.refl SameStreams.trans sameStreams_sweep w

theorem Beside.sameStreams (h : w.Beside w') : w.SameStreams w' := by
  refine .of_files h.nextKey (fun n node' hnode' => ?_) h.files
  have hnode := h.node n
  rw [hnode'] at hnode
  obtain ⟨node, hget, hsame⟩ := Option.map_eq_some_iff.1 hnode.symm
  refine ⟨node, hget, ?_, fun bytes hbytes => ?_⟩
  · exact congrArg (fun node => Mode.typeBits node.mode) hsame.symm
  · exact (congrArg Node.bytes? hsame).trans hbytes

/-- Nodes may be added that hold no bytes. -/
theorem sameStreams_grow {nodes : Arena Node} (volumes : Arena Volume)
    (hnext : w.nodes.nextKey ≤ nodes.nextKey)
    (hold : ∀ n < w.nodes.nextKey, nodes.get? n = w.nodes.get? n)
    (hnew : ∀ n, w.nodes.nextKey ≤ n → ∀ node, nodes.get? n = some node →
      ∀ bytes, node.bytes? = some bytes → bytes = .empty) :
    w.SameStreams { w with volumes, nodes } where
  nextNode := hnext
  node n hn node' hnode' := ⟨node', by rw [← hold n hn]; exact hnode', .refl _⟩
  made := hnew
  nextFile := rfl
  file _ file' hfile' := ⟨file', hfile', rfl⟩

theorem modifyNode_harmless {full : Prop} (n : NodeId) {f : RamNode → RamNode}
    (hf : ∀ ram bytes, (f ram).content = .file bytes → ram.content = .file bytes) :
    (RamFs.modifyNode n f).Does Harmless full := by
  refine Action.does_change fun w => sameStreams_setNode n fun node => ?_
  split
  · next ram hpayload =>
    refine ⟨rfl, fun bytes hbytes => ?_⟩
    rw [Node.bytes?] at hbytes ⊢
    rw [hpayload]
    dsimp only at hbytes ⊢
    split at hbytes
    · next held hheld =>
      cases hbytes
      rw [hf ram bytes hheld]
    · cases hbytes
  · exact .refl node

instance : Stretch Harmless where
  quiet _ := .refl _
  trans h h' := SameStreams.trans h h'

instance : Turning Harmless where
  beside h := h.sameStreams
  settled w := sameStreams_settle w
  turned _ f cursor := sameStreams_setCursor f cursor

instance : Tabular Harmless where
  seen _ h := h
  tables _ _ _ := .of_nodes rfl rfl fun _ file' hfile' => ⟨file', hfile', rfl⟩
  removed _ _ := .of_nodes rfl (Arena.nextKey_remove _ _) fun _ file' hfile' =>
    ⟨file', Arena.get?_of_remove hfile', rfl⟩

instance : Growing Harmless where
  made w volumes node hblank := by
    refine sameStreams_grow volumes ?_ (fun n hn => ?_) fun n hn node' hnode' => ?_
    · rw [Arena.nextKey_push]
      exact Nat.le_succ _
    · rw [Arena.get?_push, if_neg (Nat.ne_of_lt hn)]
    · rw [Arena.get?_push] at hnode'
      split at hnode'
      · cases hnode'
        exact hblank
      · exact absurd (Arena.lt_nextKey_of_has (Arena.has_iff.2 ⟨node', hnode'⟩)) (Nat.not_lt.2 hn)
  listed dir _ := modifyNode_harmless dir nofun
  turned n _ := modifyNode_harmless n fun _ _ h => h
  settled w := sameStreams_settle w

end World

open World (Harmless)

/-! ## Drivers -/

/-- Nodes were added that hold no bytes. -/
structure Arena.AddsBlank (nodes nodes' : Arena Node) : Prop where
  nextKey : nodes.nextKey ≤ nodes'.nextKey
  old : ∀ n < nodes.nextKey, nodes'.get? n = nodes.get? n
  new : ∀ n, nodes.nextKey ≤ n → ∀ node, nodes'.get? n = some node → node.bytes? = none

namespace Arena.AddsBlank

variable {nodes nodes' nodes'' : Arena Node}

theorem refl (nodes : Arena Node) : nodes.AddsBlank nodes where
  nextKey := Nat.le_refl _
  old _ _ := rfl
  new _ hn node hnode :=
    absurd (Arena.lt_nextKey_of_has (Arena.has_iff.2 ⟨node, hnode⟩)) (Nat.not_lt.2 hn)

theorem trans (h : nodes.AddsBlank nodes') (h' : nodes'.AddsBlank nodes'') :
    nodes.AddsBlank nodes'' where
  nextKey := Nat.le_trans h.nextKey h'.nextKey
  old n hn := (h'.old n (Nat.lt_of_lt_of_le hn h.nextKey)).trans (h.old n hn)
  new n hn node hnode := by
    by_cases hold : n < nodes'.nextKey
    · rw [h'.old n hold] at hnode
      exact h.new n hn node hnode
    · exact h'.new n (Nat.not_lt.1 hold) node hnode

theorem push {node : Node} (hnode : node.bytes? = none) : nodes.AddsBlank (nodes.push node) where
  nextKey := by
    rw [Arena.nextKey_push]
    exact Nat.le_succ _
  old n hn := by rw [Arena.get?_push, if_neg (Nat.ne_of_lt hn)]
  new n hn node' hget := by
    rw [Arena.get?_push] at hget
    split at hget
    · cases hget
      exact hnode
    · exact (refl nodes).new n hn node' hget

end Arena.AddsBlank

namespace Scripted

variable {fs : ScriptedFs} {id : Nat} {v : VolumeKey}

mutual

theorem plant_addsBlank (ino : Nat) (tree : ScriptedTree) (nodes : Arena Node) :
    nodes.AddsBlank (plant fs id v ino tree nodes).2 := by
  cases tree with
  | node name mode own ops entries =>
    rw [plant]
    exact (plantAll_addsBlank 2 entries nodes).trans (.push rfl)

theorem plantAll_addsBlank (ino : Nat) (trees : List ScriptedTree) (nodes : Arena Node) :
    nodes.AddsBlank (plantAll fs id v ino trees nodes).2 := by
  cases trees with
  | nil =>
    rw [plantAll]
    exact .refl nodes
  | cons tree rest =>
    rw [plantAll]
    exact (plant_addsBlank ino tree nodes).trans (plantAll_addsBlank (ino + 1) rest _)

end

theorem mount_harmless (fs : ScriptedFs) (id : Nat) (device : String) (flags : VolumeFlags) :
    (mount fs id device flags).Does Harmless True := by
  refine does_bind (does_query (.ofResult fun _ => trivial)) fun _ => does_bind (does_look _)
    fun v => does_bind (does_change fun w => ?_) fun _ => does_pure _
  have hadds : w.nodes.AddsBlank (plant fs id v 1 fs.root w.nodes).2 :=
    plant_addsBlank 1 fs.root w.nodes
  rcases hplant : plant fs id v 1 fs.root w.nodes with ⟨root, nodes⟩
  rw [hplant] at hadds
  refine World.SameStreams.trans (World.sameStreams_grow _ hadds.nextKey hadds.old ?_)
    (World.sameStreams_settle _)
  intro n hn node hnode bytes hbytes
  rw [hadds.new n hn node hnode] at hbytes
  cases hbytes

end Scripted

/-- Changes of names leave files and streams alone, and so do devices that come and go. -/
theorem standard_harmless : @Backends.Names standard Harmless where
  mount
    | .ram => fun id device flags _ => RamFs.mount_does id device flags
    | .scripted fs => fun id device flags _ => Scripted.mount_harmless fs id device flags
  createDirectory
    | .ram => fun v parent name mode => RamFs.createDirectory_does v parent name mode
    | .scripted _ => fun _ _ _ _ => does_throw nofun
  createSymlink
    | .ram => fun v parent name target => RamFs.createSymlink_does v parent name target
    | .scripted _ => fun _ _ _ _ => does_throw nofun
  rename
    | .ram => fun v oldParent oldName newParent newName mustBeDirectory =>
      RamFs.rename_does v oldParent oldName newParent newName mustBeDirectory
    | .scripted fs => fun _ _ _ _ _ _ => by
      show (if fs.bare then throw .notImplemented else
        liftM (Query.ofResult (fs.refuse fs.renameFault)) : Act Unit).Does Harmless True
      split
      · exact does_throw nofun
      · exact does_query (.ofResult fun _ => trivial)
  unlink
    | .ram => fun v parent name => RamFs.unlink_does v parent name
    | .scripted _ => fun _ _ _ => does_throw nofun
  removeDirectory
    | .ram => fun v parent name => RamFs.removeDirectory_does v parent name
    | .scripted _ => fun _ _ _ => does_throw nofun
  publish v path ops := RamFs.publishDevice_does v path ops
  move v ino path := RamFs.moveDevice_does v ino path
  withdraw v ino := RamFs.withdrawDevice_does v ino

end VirtualFs
