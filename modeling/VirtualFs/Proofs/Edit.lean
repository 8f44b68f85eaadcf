/-
Everything that ever changes a world of memory volumes, as one relation: each
constructor of `Edit` is a change with what the caller has checked before.
The operations are sequences of edits (`Edits`), so what one edit keeps is
kept by every run: `WellFormed`, and that what was given out is never given
out again (`Extends`).
-/
import VirtualFs.Mounting
import VirtualFs.Proofs.WellFormed

namespace VirtualFs

namespace World

/-! ## Changes -/

/-- The world with the children of a directory replaced. -/
def setChildren (w : World) (d : NodeId) (children : NameMap NodeId) : World :=
  w.setNode d (Node.mapRam fun ram => { ram with content := .directory children })

/-- The world with a node turned to another directory. -/
def setParent (w : World) (n d : NodeId) : World :=
  w.setNode n (Node.mapRam fun ram => { ram with parent := some d })

/-- The world with an entry moved to another directory or another name, where it takes the place of
what was there. -/
def relinked (w : World) (n oldDir : NodeId) (oldName : String) (d : NodeId) (name : String) :
    World :=
  let taken := w.setChildren oldDir ((w.children oldDir).erase oldName)
  (taken.setChildren d ((taken.children d).insert name n)).setParent n d

/-- The world with a new node of a directory's volume, which hangs in the directory but is not
listed yet. -/
def withNode (w : World) (d : NodeId) (ino : Nat) (mode : UInt32) (content : Content)
    (ops : Option OpsKind) : World :=
  { w.setVolume (w.node d).volume fun v => { v with nextIno := some (ino + 1) } with
    nodes := w.nodes.push
      { ino, mode, ops
        volume := (w.node d).volume
        volumeId := (w.volume (w.node d).volume).id
        driver := (w.node d).driver
        payload := .ram { parent := some d, content } } }

/-- The world with a new volume that holds its root alone. -/
def withVolume (w : World) (id : Nat) (device : String) (flags : VolumeFlags) : World :=
  { w with
    volumes := w.volumes.push
      { id, device, flags, root := w.nodes.nextKey, driver := .ram,
        nextIno := some (RamFs.rootIno + 1) }
    nodes := w.nodes.push
      { ino := RamFs.rootIno
        volumeId := id
        volume := w.volumes.nextKey
        driver := .ram
        ops := some .ram
        mode := Mode.make Mode.directory 0o777
        payload := .ram { parent := none, content := .directory .empty } } }

end World

/-- A change to a node that leaves alone who it is, where it hangs and what it lists. -/
structure Node.Touched (a b : Node) : Prop where
  ino : b.ino = a.ino
  volumeId : b.volumeId = a.volumeId
  volume : b.volume = a.volume
  mountRoot : b.mountRoot = a.mountRoot
  type : Mode.typeBits b.mode = Mode.typeBits a.mode
  ops : b.ops = a.ops
  children : b.payload.children = a.payload.children
  parent : b.ram.parent = a.ram.parent
  isRam : b.IsRam

theorem Node.Touched.isDirectory {a b : Node} (h : a.Touched b) :
    Mode.isDirectory b.mode = Mode.isDirectory a.mode := by
  rw [Mode.isDirectory, Mode.isDirectory, h.type]

namespace World

/-- One change to a world, and what was checked before it. -/
inductive Edit : World → World → Prop where
  /-- Nodes that nothing refers to go. -/
  | swept {w} : Edit w w.sweep
  /-- The data or the attributes of a node change. -/
  | touched {w n f} : w.Live n → (w.node n).Touched (f (w.node n)) → Edit w (w.setNode n f)
  /-- An entry goes. -/
  | unlisted {w d name} :
      w.isDirectory d = true → Edit w (w.setChildren d ((w.children d).erase name))
  /-- A node that hangs in a directory is listed there. -/
  | listed {w d name n} :
      w.isDirectory d = true → w.parent n = some d → (∀ a, ¬w.Entry d a n) → IsEntryName name →
      Edit w (w.setChildren d ((w.children d).insert name n))
  /-- A node that nothing lists is turned to a directory that is not below it. -/
  | turned {w n d p} :
      w.parent n = some p → w.isDirectory d = true → (w.node n).volume = (w.node d).volume →
      (∀ d' a, ¬w.Entry d' a n) → ¬w.Above n d → Edit w (w.setParent n d)
  /-- A node is made. -/
  | made {w d ino mode content ops} :
      w.isDirectory d = true → (w.volume (w.node d).volume).nextIno = some ino →
      Mode.typeBits mode = content.type → content.children = .empty →
      (ops = some .ram ∨ content = .device) → Edit w (w.withNode d ino mode content ops)
  /-- An id is used up. -/
  | idTaken {w} : Edit w { w with nextVolumeId := w.nextVolumeId + 1 }
  /-- A volume is made. -/
  | volumeMade {w id device flags} :
      id < w.nextVolumeId → (∀ v, w.volumes.has v = true → (w.volume v).id < id) →
      Edit w (w.withVolume id device flags)
  /-- A volume is put on a directory. -/
  | attached {w v p id} :
      w.volumes.has v = true → v ≠ w.rootVolume → (w.volume v).point = none →
      w.isDirectory p = true → (w.node p).mountRoot = none → w.parent p ≠ none →
      (w.node p).volumeId < (w.volume v).id → Edit w (w.attach id v p)
  /-- What is held from outside changes. -/
  | held {w files contexts tasks pins} :
      ({ w with files, contexts, tasks, pins } : World).Held →
      Edit w { w with files, contexts, tasks, pins }

/-- A sequence of changes. -/
def Edits : World → World → Prop := Relation.ReflTransGen Edit

/-! ## Reading a changed node -/

section

variable {w : World} {n m d : NodeId} {f : Node → Node}

@[simp] theorem live_setNode : (w.setNode n f).Live m ↔ w.Live m := by
  rw [Live, Live, Arena.has, Arena.has, setNode, Arena.get?_modify]
  split <;> simp

theorem node_setNode (h : w.Live n) :
    (w.setNode n f).node m = if m = n then f (w.node n) else w.node m := by
  rw [World.node, setNode, Arena.get?_modify]
  by_cases hm : n = m
  · subst hm
    rw [if_pos rfl, if_pos rfl, h.get?]
    rfl
  · rw [if_neg hm, if_neg (Ne.symm hm)]
    rfl

/-- What is read off a node stays as it is if the change leaves it alone. -/
theorem view_setNode {α : Type} (view : Node → α) (h : w.Live n)
    (hview : view (f (w.node n)) = view (w.node n)) (m : NodeId) :
    view ((w.setNode n f).node m) = view (w.node m) := by
  rw [node_setNode h]
  split
  · next hm => rw [hm, hview]
  · rfl

/-- What no change of this kind touches stays as it is, whether the node is there or not. -/
theorem view_setNode_of {α : Type} (view : Node → α) (hview : ∀ node, view (f node) = view node)
    (m : NodeId) : view ((w.setNode n f).node m) = view (w.node m) := by
  rw [World.node, World.node, setNode, Arena.get?_modify]
  split
  · cases w.nodes.get? m with
    | none => rfl
    | some node => exact hview node
  · rfl

theorem node_setNode_of_ne (f : Node → Node) (hne : m ≠ n) : (w.setNode n f).node m = w.node m := by
  rw [World.node, World.node, setNode, Arena.get?_modify, if_neg (Ne.symm hne)]

/-- Changes to different nodes come in any order. -/
theorem setNode_comm (hne : n ≠ m) (f g : Node → Node) :
    (w.setNode n f).setNode m g = (w.setNode m g).setNode n f := by
  rw [setNode, setNode, setNode, setNode, World.mk.injEq]
  exact ⟨rfl, w.nodes.modify_comm hne f g, rfl, rfl, rfl, rfl, rfl, rfl, rfl, rfl, rfl⟩

@[simp] theorem nextKey_setNode : (w.setNode n f).nodes.nextKey = w.nodes.nextKey :=
  Arena.nextKey_modify _ _ _

end

/-! ## Reading a grown world -/

section

variable {w : World} {n v : Nat}

theorem live_push {node : Node} {nodes : Arena Node} (hnodes : nodes = w.nodes.push node)
    {w' : World} (hw' : w'.nodes = nodes) : w'.Live n ↔ n = w.nodes.nextKey ∨ w.Live n := by
  rw [Live, Live, Arena.has, Arena.has, hw', hnodes, Arena.get?_push]
  split
  · next heq => simp [heq]
  · next hne => simp [hne]

theorem node_push {node : Node} {nodes : Arena Node} (hnodes : nodes = w.nodes.push node)
    {w' : World} (hw' : w'.nodes = nodes) :
    w'.node n = if n = w.nodes.nextKey then node else w.node n := by
  rw [World.node, hw', hnodes, Arena.get?_push]
  split <;> rfl

theorem has_setVolume (f : Volume → Volume) (u : VolumeKey) :
    (w.setVolume v f).volumes.has u = w.volumes.has u := by
  rw [Arena.has, Arena.has, setVolume, Arena.get?_modify]
  split <;> simp

theorem volume_setVolume (hv : w.volumes.has v = true) (f : Volume → Volume) (u : VolumeKey) :
    (w.setVolume v f).volume u = if u = v then f (w.volume v) else w.volume u := by
  obtain ⟨volume, hvolume⟩ := Arena.has_iff.1 hv
  rw [World.volume, setVolume, Arena.get?_modify, World.volume, hvolume]
  by_cases hu : v = u
  · subst hu
    rw [if_pos rfl, if_pos rfl, hvolume]
    rfl
  · rw [if_neg hu, if_neg (Ne.symm hu)]
    rfl

end

/-! ## Reading a swept world -/

section

variable {w : World} {n d c : NodeId}

theorem getD_foldl_mark (keys : List Nat) (marked : Array Bool) (n : Nat) :
    (keys.foldl (fun marked key => marked.setIfInBounds key true) marked).getD n false = true ↔
      marked.getD n false = true ∨ n < marked.size ∧ n ∈ keys := by
  induction keys generalizing marked with
  | nil => simp
  | cons key rest ih =>
    rw [List.foldl_cons, ih, Array.size_setIfInBounds, List.mem_cons]
    simp only [Array.getD_eq_getD_getElem?, Array.getElem?_setIfInBounds]
    by_cases hkey : key = n
    · subst hkey
      by_cases hlt : key < marked.size
      · simp [hlt]
      · simp [hlt]
    · simp [hkey, Ne.symm hkey]

/-- The marked keys are those that were given and occur. -/
theorem getD_marks (size : Nat) (keys : List Nat) (n : Nat) :
    (marks size keys).getD n false = true ↔ n < size ∧ n ∈ keys := by
  rw [marks, getD_foldl_mark]
  by_cases hlt : n < size
  · simp [hlt, Array.getD_eq_getD_getElem?]
  · simp [hlt, Array.getD_eq_getD_getElem?]

/-- What is referred to stays. -/
theorem live_sweep : w.sweep.Live n ↔ w.Live n ∧ n ∈ w.references := by
  rw [Live, Live, Arena.has, Arena.has, sweep, Arena.get?_keep]
  split
  · next hmark =>
    rw [getD_marks] at hmark
    simp [hmark.2]
  · next hmark =>
    rw [getD_marks] at hmark
    refine iff_of_false (by simp) fun hboth => hmark ?_
    exact ⟨Live.lt hboth.1, hboth.2⟩

theorem node_sweep (h : w.sweep.Live n) : w.sweep.node n = w.node n := by
  rw [World.node, World.node, sweep, Arena.get?_keep, if_pos]
  rw [live_sweep] at h
  exact (getD_marks _ _ _).2 ⟨h.1.lt, h.2⟩

/-- What relates a world to itself swept relates it to itself settled. -/
theorem settle_related {R : World → World → Prop} (hrefl : ∀ w, R w w)
    (htrans : ∀ {w w' w''}, R w w' → R w' w'' → R w w'') (hsweep : ∀ w : World, R w w.sweep)
    (w : World) : R w w.settle := by
  rw [settle]
  generalize w.nodes.size = rounds
  induction rounds generalizing w with
  | zero => exact hrefl w
  | succ rounds ih =>
    rw [settleFor]
    split
    · exact hrefl w
    · exact htrans (hsweep w) (ih w.sweep)

/-- What is there after settling was there before, and is as it was. -/
theorem node_settle (h : w.settle.Live n) : w.Live n ∧ w.settle.node n = w.node n := by
  refine settle_related (R := fun w w' => ∀ n, w'.Live n → w.Live n ∧ w'.node n = w.node n)
    (fun _ _ hn => ⟨hn, rfl⟩) (fun h h' n hn'' => ?_) (fun _ n hn => ?_) w n h
  · obtain ⟨hn', heq'⟩ := h' n hn''
    exact ⟨(h n hn').1, heq'.trans (h n hn').2⟩
  · exact ⟨(live_sweep.1 hn).1, node_sweep hn⟩

theorem root_mem_references {v : VolumeKey} (hv : w.volumes.has v = true) :
    (w.volume v).root ∈ w.references := by
  obtain ⟨volume, hvolume⟩ := Arena.has_iff.1 hv
  have hmem : volume ∈ w.volumes.toList := Arena.mem_toList.2 ⟨v, hvolume⟩
  rw [World.volume, hvolume]
  simp only [references, List.mem_append, List.mem_map]
  exact .inl (.inl (.inl (.inl ⟨volume, hmem, rfl⟩)))

theorem mem_references_of_node (hn : w.Live n) (hc : c ∈ (w.node n).references) :
    c ∈ w.references := by
  have hmem : w.node n ∈ w.nodes.toList := Arena.mem_toList.2 ⟨n, hn.get?⟩
  simp only [references, List.mem_append, List.mem_flatMap]
  exact .inl (.inl (.inl (.inr ⟨_, hmem, hc⟩)))

theorem child_mem_references {name : String} (h : w.Entry d name c) : c ∈ w.references :=
  mem_references_of_node h.live (List.mem_append.2 (.inl (NameMap.mem_values h)))

theorem file_mem_references {f : FileId} {file : OpenFile} (h : w.files.get? f = some file) :
    file.node ∈ w.references := by
  have hmem : file ∈ w.files.toList := Arena.mem_toList.2 ⟨f, h⟩
  simp only [references, List.mem_append, List.mem_map]
  exact .inl (.inl (.inr ⟨file, hmem, rfl⟩))

theorem cwd_mem_references {c : ContextId} {context : Context} (h : w.contexts[c]? = some context) :
    context.cwd ∈ w.references := by
  have hmem : context ∈ w.contexts.toList := Array.mem_toList_iff.2 (Array.mem_of_getElem? h)
  simp only [references, List.mem_append, List.mem_map]
  exact .inl (.inr ⟨context, hmem, rfl⟩)

theorem pin_mem_references {name : String} (h : w.pins.get? name = some n) : n ∈ w.references :=
  List.mem_append.2 (.inr (NameMap.mem_values h))

end

end World

end VirtualFs
