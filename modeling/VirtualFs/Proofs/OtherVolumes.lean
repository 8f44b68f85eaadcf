/-
A change to one volume exempts the others. What is exempt is a volume with all
that its nodes hold but for the bytes of files, which are no business of the
trees, and for what is mounted on its directories, which is the library's.
Nodes that nothing refers to may go; none are made.
-/
import VirtualFs.Proofs.RamEdits

namespace VirtualFs

open Relation (ReflTransGen)

/-! ## Nodes without bytes -/

/-- A content without the bytes of a file. -/
def Content.skeleton : Content → Content
  | .file _ => .file .empty
  | content => content

/-- What a node holds, without the bytes of a file. -/
def Payload.skeleton : Payload → Payload
  | .ram node => .ram { node with content := node.content.skeleton }
  | .scripted children => .scripted children

/-- A node without the bytes of a file and without what is mounted on it. -/
def Node.skeleton (node : Node) : Node :=
  { node with mountRoot := none, payload := node.payload.skeleton }

theorem Node.volume_eq_of_skeleton {a b : Node} (h : a.skeleton = b.skeleton) :
    a.volume = b.volume := by
  show a.skeleton.volume = b.skeleton.volume
  rw [h]

/-- Other bytes make no other skeleton. -/
theorem Node.IsRam.skeleton_mapRam {node : Node} (h : node.IsRam) {old : ByteArray}
    (hold : node.ram.content = .file old) (bytes : ByteArray) :
    (node.mapRam fun ram => { ram with content := .file bytes }).skeleton = node.skeleton := by
  rw [h.mapRam, Node.skeleton, Node.skeleton, h.payload]
  simp only [Payload.skeleton, Content.skeleton, hold]

namespace World

/-- The volume is as it was, and so are those of its nodes that are there. -/
structure Exempts (v : VolumeKey) (w w' : World) : Prop where
  volume : w'.volumes.get? v = w.volumes.get? v
  node : ∀ n, w'.Live n → (w'.node n).volume = v →
    w.Live n ∧ (w'.node n).skeleton = (w.node n).skeleton

variable {v : VolumeKey} {w w' w'' : World} {n d : NodeId}

namespace Exempts

theorem refl (w : World) : w.Exempts v w := ⟨rfl, fun _ hn _ => ⟨hn, rfl⟩⟩

theorem trans (h : w.Exempts v w') (h' : w'.Exempts v w'') : w.Exempts v w'' where
  volume := h'.volume.trans h.volume
  node n hn hv := by
    obtain ⟨hn', hsame'⟩ := h'.node n hn hv
    obtain ⟨hn, hsame⟩ := h.node n hn' ((Node.volume_eq_of_skeleton hsame').symm.trans hv)
    exact ⟨hn, hsame'.trans hsame⟩

theorem of_steps (hsteps : ReflTransGen (Exempts v) w w') : w.Exempts v w' := by
  induction hsteps with
  | refl => exact .refl w
  | tail _ hstep ih => exact ih.trans hstep

theorem of_nodes (hvolumes : w'.volumes.get? v = w.volumes.get? v) (hnodes : w'.nodes = w.nodes) :
    w.Exempts v w' := by
  refine ⟨hvolumes, fun n hn _ => ?_⟩
  rw [Live, hnodes] at hn
  rw [World.node, World.node, hnodes]
  exact ⟨hn, rfl⟩

theorem has (h : w.Exempts v w') : w'.volumes.has v = w.volumes.has v := by
  rw [Arena.has, Arena.has, h.volume]

theorem volume_eq (h : w.Exempts v w') : w'.volume v = w.volume v := by
  rw [World.volume, World.volume, h.volume]

end Exempts

/-! ## Changes to nodes -/

/-- A change to a node of the volume must not be seen in its skeleton. -/
theorem exempts_setNode {f : Node → Node} (hf : ∀ node, (f node).volume = node.volume)
    (hsame : w.Live n → (w.node n).volume = v → (f (w.node n)).skeleton = (w.node n).skeleton) :
    w.Exempts v (w.setNode n f) := by
  refine ⟨rfl, fun m hm hv => ?_⟩
  rw [live_setNode] at hm
  by_cases heq : m = n
  · subst heq
    rw [node_setNode hm, if_pos rfl] at hv ⊢
    exact ⟨hm, hsame hm ((hf _).symm.trans hv)⟩
  · rw [node_setNode_of_ne f heq]
    exact ⟨hm, rfl⟩

theorem volume_mapRam (f : RamNode → RamNode) (node : Node) :
    (node.mapRam f).volume = node.volume := by
  rw [Node.mapRam]
  split <;> rfl

/-- What is done to nodes of other volumes exempts the volume. -/
theorem exempts_mapRam (hn : (w.node n).volume ≠ v) (f : RamNode → RamNode) :
    w.Exempts v (w.setNode n (·.mapRam f)) :=
  exempts_setNode (volume_mapRam f) fun _ hv => absurd hv hn

/-- Nodes stay on their volumes if the one that changes does. -/
theorem volume_setNode {f : Node → Node} (hf : ∀ node, (f node).volume = node.volume) (m : NodeId) :
    ((w.setNode n f).node m).volume = (w.node m).volume :=
  view_setNode_of Node.volume hf m

theorem volume_setNode_mapRam (n : NodeId) (f : RamNode → RamNode) (m : NodeId) :
    ((w.setNode n (·.mapRam f)).node m).volume = (w.node m).volume :=
  volume_setNode (volume_mapRam f) m

theorem exempts_sweep (w : World) : w.Exempts v w.sweep :=
  ⟨rfl, fun n hn _ => ⟨(live_sweep.1 hn).1, by rw [node_sweep hn]⟩⟩

theorem exempts_settle (w : World) : w.Exempts v w.settle :=
  settle_related Exempts.refl Exempts.trans exempts_sweep w

/-! ## Nodes and volumes that are made -/

/-- A new node of another volume is none of the volume's. -/
theorem exempts_push {node : Node} (hnodes : w'.nodes = w.nodes.push node) (hnode : node.volume ≠ v)
    (hvolume : w'.volumes.get? v = w.volumes.get? v) : w.Exempts v w' := by
  refine ⟨hvolume, fun n hn hv => ?_⟩
  rw [node_push hnodes rfl] at hv ⊢
  rcases (live_push hnodes rfl).1 hn with rfl | hold
  · rw [if_pos rfl] at hv
    exact absurd hv hnode
  · rw [if_neg (Nat.ne_of_lt hold.lt)]
    exact ⟨hold, rfl⟩

theorem exempts_withNode (hd : (w.node d).volume ≠ v) (ino : Nat) (mode : UInt32)
    (content : Content) (ops : Option OpsKind) :
    w.Exempts v (w.withNode d ino mode content ops) := by
  refine exempts_push rfl hd ?_
  rw [withNode, setVolume, Arena.get?_modify, if_neg hd]

theorem exempts_withVolume (hv : w.volumes.has v = true) (id : Nat) (device : String)
    (flags : VolumeFlags) : w.Exempts v (w.withVolume id device flags) := by
  have hne : v ≠ w.volumes.nextKey := Nat.ne_of_lt (Arena.lt_nextKey_of_has hv)
  refine exempts_push rfl (Ne.symm hne) ?_
  rw [withVolume, Arena.get?_push, if_neg hne]

theorem exempts_attach (id : Nat) {u : VolumeKey} (hu : u ≠ v) (p : NodeId) :
    w.Exempts v (w.attach id u p) := by
  let tied : World := { w with table := w.table ++ [(id, u)] }
  have hvolume : w.Exempts v (tied.setVolume u fun volume => { volume with point := some p }) := by
    refine .of_nodes ?_ rfl
    rw [setVolume, Arena.get?_modify, if_neg hu]
  exact hvolume.trans (exempts_setNode (fun _ => rfl) fun _ _ => rfl)

/-! ## What the memory filesystem leaves -/

section

variable (h : w.WellFormed) {oldDir : NodeId} {name oldName : String} (hd : (w.node d).volume ≠ v)

include hd

theorem Inserted.exempts (hinserted : w.Inserted d name n w') : w.Exempts v w' := by
  obtain ⟨hdir, -⟩ := hinserted
  refine (exempts_withNode hd _ _ _ _).trans (exempts_mapRam ?_ _)
  rwa [node_push rfl rfl, if_neg (Nat.ne_of_lt (live_of_isDirectory hdir).lt)]

theorem Removed.exempts (hremoved : w.Removed d name w') : w.Exempts v w' := by
  obtain ⟨-, -⟩ := hremoved
  exact (exempts_mapRam hd _).trans (exempts_settle _)

include h in
theorem Renamed.exempts (hold : (w.node oldDir).volume ≠ v)
    (hrenamed : w.Renamed oldDir oldName d name w') : w.Exempts v w' := by
  cases hrenamed with
  | same => exact .refl w
  | @moved n hentry =>
    have hn : (w.node n).volume ≠ v := by rwa [h.volume_of_entry hentry]
    have hlisted := exempts_mapRam (v := v) (w := w) hold fun ram =>
      { ram with content := .directory ((w.children oldDir).erase oldName) }
    refine .trans (hlisted.trans (.trans (exempts_mapRam ?_ _) (exempts_mapRam ?_ _)))
      (exempts_settle _)
    · rwa [volume_setNode_mapRam]
    · rwa [volume_setNode_mapRam, volume_setNode_mapRam]

end

end World

end VirtualFs
