/-
The trees of the memory filesystem as they are read off a world: which nodes
live, what a directory lists, where a node's link to its directory leads. A
node that is gone reads as a blank, which lists nothing, hangs nowhere and
carries no volume, so most of what is said here needs no word on that.
-/
import VirtualFs.Action.Lemmas
import VirtualFs.RamFs.Tree
import Mathlib.Data.Finset.Card
import Mathlib.Data.Nat.Find
import Mathlib.Logic.Function.Iterate
import Mathlib.Logic.Relation

namespace VirtualFs

/-! ## One node -/

/-- The memory filesystem's part of a node; blank for a node of another driver. -/
def Node.ram (node : Node) : RamNode :=
  match node.payload with
  | .ram ram => ram
  | .scripted _ => default

/-- A node with its memory part changed. -/
def Node.mapRam (f : RamNode → RamNode) (node : Node) : Node :=
  match node.payload with
  | .ram ram => { node with payload := .ram (f ram) }
  | .scripted _ => node

/-- The type that the mode of a node needs for a content. -/
def Content.type : Content → UInt32
  | .directory _ => Mode.directory
  | .file _ => Mode.regular
  | .symlink _ => Mode.symlink
  | .device => Mode.character

/-- The children of a content; only a directory has any. -/
def Content.children : Content → NameMap NodeId
  | .directory children => children
  | .file _ | .symlink _ | .device => .empty

/-- A node as the memory filesystem makes it: its type agrees with what it holds, and only a device
has operations of its own. -/
structure Node.IsRam (node : Node) : Prop where
  payload : node.payload = .ram node.ram
  driver : node.driver = .ram
  type : Mode.typeBits node.mode = node.ram.content.type
  ops : node.ops = some .ram ∨ node.ram.content = .device

theorem Payload.children_ram (ram : RamNode) :
    (Payload.ram ram).children = ram.content.children := by
  rw [Payload.children]
  cases ram.content <;> rfl

theorem Node.IsRam.children {node : Node} (h : node.IsRam) :
    node.payload.children = node.ram.content.children := by
  rw [h.payload, Payload.children_ram]

theorem Node.IsRam.mapRam {node : Node} (h : node.IsRam) (f : RamNode → RamNode) :
    node.mapRam f = { node with payload := .ram (f node.ram) } := by
  rw [Node.mapRam, h.payload]

theorem Node.mountRoot_mapRam (f : RamNode → RamNode) (node : Node) :
    (node.mapRam f).mountRoot = node.mountRoot := by
  rw [Node.mapRam]
  split <;> rfl

/-- A change that keeps the children of what a node holds keeps what the node lists. -/
theorem Node.children_mapRam {f : RamNode → RamNode} {node : Node}
    (hf : (f node.ram).content.children = node.ram.content.children) :
    (node.mapRam f).payload.children = node.payload.children := by
  rw [Node.ram] at hf
  rw [Node.mapRam]
  cases hpayload : node.payload with
  | ram ram =>
    simp only [hpayload] at hf
    exact (Payload.children_ram _).trans (hf.trans (Payload.children_ram _).symm)
  | scripted children => exact congrArg Payload.children hpayload

/-- The mode tells directories apart. -/
theorem Content.type_eq_directory {content : Content} :
    content.type = Mode.directory ↔ ∃ children, content = .directory children := by
  cases content with
  | directory children => exact ⟨fun _ => ⟨children, rfl⟩, fun _ => rfl⟩
  | file bytes => simp only [type, reduceCtorEq, exists_false, iff_false]; decide
  | symlink target => simp only [type, reduceCtorEq, exists_false, iff_false]; decide
  | device => simp only [type, reduceCtorEq, exists_false, iff_false]; decide

/-- A directory has the operations of the memory filesystem. -/
theorem Node.IsRam.ops_of_isDirectory {node : Node} (h : node.IsRam)
    (hdir : Mode.isDirectory node.mode = true) : node.ops = some .ram := by
  refine h.ops.resolve_right fun hdevice => ?_
  have htype := h.type
  rw [hdevice, beq_iff_eq.1 hdir] at htype
  exact absurd htype (by decide)

namespace World

/-! ## Reading a world -/

section

variable (w : World)

/-- The node is there. -/
def Live (n : NodeId) : Prop := w.nodes.has n = true

/-- What a node holds. -/
def content (n : NodeId) : Content := (w.node n).ram.content

/-- What a node lists. -/
def children (n : NodeId) : NameMap NodeId := (w.node n).payload.children

/-- The directory a node was last put in, which may be gone. -/
def parent (n : NodeId) : Option NodeId := (w.node n).ram.parent

/-- A directory lists a node under a name. -/
def Entry (dir : NodeId) (name : String) (n : NodeId) : Prop := (w.children dir).get? name = some n

/-- One step up: the directory a node was put in, or the node itself if it has none or that is
gone. -/
def up (n : NodeId) : NodeId := ((w.parent n).filter w.nodes.has).getD n

/-- A node's link to its directory leads to a directory that is there. -/
def Hangs (n dir : NodeId) : Prop := w.parent n = some dir ∧ w.Live dir

/-- A node is another one or lies on its way up. -/
def Above (a n : NodeId) : Prop := Relation.ReflTransGen w.Hangs n a

end

variable {w : World} {n d c : NodeId}

instance (n : NodeId) : Decidable (w.Live n) := inferInstanceAs (Decidable (_ = true))

instance (d : NodeId) (name : String) (n : NodeId) : Decidable (w.Entry d name n) :=
  inferInstanceAs (Decidable (_ = _))

theorem live_iff : w.Live n ↔ ∃ node, w.nodes.get? n = some node := Arena.has_iff

theorem Live.get? (h : w.Live n) : w.nodes.get? n = some (w.node n) := by
  obtain ⟨node, hnode⟩ := live_iff.1 h
  rw [World.node, hnode, Option.getD_some]

theorem Live.lt (h : w.Live n) : n < w.nodes.nextKey := Arena.lt_nextKey_of_has h

/-- A node that is gone reads as a blank. -/
theorem node_of_not_live (h : ¬w.Live n) : w.node n = default := by
  rw [Live, Arena.has, Bool.not_eq_true, Option.isSome_eq_false_iff, Option.isNone_iff_eq_none] at h
  rw [node, h, Option.getD_none]

theorem Entry.live {name : String} (h : w.Entry d name c) : w.Live d := by
  refine Decidable.byContradiction fun hdead => ?_
  rw [Entry, children, node_of_not_live hdead] at h
  cases h

theorem live_of_parent (h : w.parent n = some d) : w.Live n := by
  refine Decidable.byContradiction fun hdead => ?_
  rw [parent, node_of_not_live hdead] at h
  cases h

theorem live_of_mountRoot (h : (w.node n).mountRoot = some d) : w.Live n := by
  refine Decidable.byContradiction fun hdead => ?_
  rw [node_of_not_live hdead] at h
  cases h

theorem live_of_isDirectory (h : w.isDirectory n = true) : w.Live n := by
  refine Decidable.byContradiction fun hdead => ?_
  rw [isDirectory, node_of_not_live hdead] at h
  exact absurd h (by decide)

/-! ## Going up -/

theorem up_eq_of_hangs (h : w.Hangs n d) : w.up n = d := by
  obtain ⟨hparent, hlive⟩ := h
  have hhas : w.nodes.has d = true := hlive
  rw [up, hparent, Option.filter_some, if_pos hhas, Option.getD_some]

/-- A step up follows the link of the node, or stays if that leads nowhere. -/
theorem hangs_or_up_eq (w : World) (n : NodeId) :
    w.Hangs n (w.up n) ∨ w.up n = n ∧ ∀ d, w.parent n = some d → ¬w.Live d := by
  cases hparent : w.parent n with
  | none => exact .inr ⟨by rw [up, hparent]; rfl, nofun⟩
  | some d =>
    by_cases hlive : w.Live d
    · have hangs : w.Hangs n d := ⟨hparent, hlive⟩
      exact .inl (by rwa [up_eq_of_hangs hangs])
    · have hhas : ¬w.nodes.has d = true := hlive
      refine .inr ⟨by rw [up, hparent, Option.filter_some, if_neg hhas, Option.getD_none], ?_⟩
      rintro _ ⟨⟩
      exact hlive

theorem Live.up (h : w.Live n) : w.Live (w.up n) := by
  rcases w.hangs_or_up_eq n with hangs | ⟨hself, -⟩
  · exact hangs.2
  · rwa [hself]

theorem Live.iterate_up (h : w.Live n) (i : Nat) : w.Live (w.up^[i] n) := by
  induction i with
  | zero => exact h
  | succ i ih => rw [Function.iterate_succ_apply']; exact ih.up

theorem Above.exists_iterate {a : NodeId} (h : w.Above a n) : ∃ i, w.up^[i] n = a := by
  induction h with
  | refl => exact ⟨0, rfl⟩
  | tail _ hangs ih =>
    obtain ⟨i, rfl⟩ := ih
    exact ⟨i + 1, by rw [Function.iterate_succ_apply', up_eq_of_hangs hangs]⟩

/-- What is above a node is what a way up from it comes to. -/
theorem above_iff_exists_iterate {a : NodeId} : w.Above a n ↔ ∃ i, w.up^[i] n = a := by
  refine ⟨Above.exists_iterate, ?_⟩
  intro hfound
  obtain ⟨i, rfl⟩ := hfound
  induction i with
  | zero => exact .refl
  | succ i ih =>
    rw [Function.iterate_succ_apply']
    rcases w.hangs_or_up_eq (w.up^[i] n) with hangs | ⟨hself, -⟩
    · exact ih.tail hangs
    · rwa [hself]

theorem iterate_up_of_up_eq (h : w.up n = n) (i : Nat) : w.up^[i] n = n :=
  Function.iterate_fixed h i

/-- Where the links do not go round in circles, a way up that comes back to a node has stopped
there. -/
theorem up_eq_of_iterate_eq (hacc : Acc (fun d n => w.Hangs n d) n) {k : Nat}
    (h : w.up^[k + 1] n = n) : w.up n = n := by
  induction hacc generalizing k with
  | intro n _ ih =>
    rcases w.hangs_or_up_eq n with hangs | ⟨hself, -⟩
    · have hround : w.up^[k + 1] (w.up n) = w.up n := by
        rw [← Function.iterate_succ_apply, Function.iterate_succ_apply', h]
      have hstop : w.up (w.up n) = w.up n := ih _ hangs hround
      rw [Function.iterate_succ_apply, iterate_up_of_up_eq hstop] at h
      exact h
    · exact hself

/-- A way up without circles meets a node twice only where it has stopped. -/
theorem up_eq_of_iterate_eq_iterate (hacc : ∀ n, w.Live n → Acc (fun d n => w.Hangs n d) n)
    (hlive : w.Live n) {i j : Nat} (hlt : i < j) (h : w.up^[i] n = w.up^[j] n) :
    w.up (w.up^[i] n) = w.up^[i] n := by
  obtain ⟨k, rfl⟩ : ∃ k, j = (k + 1) + i := ⟨j - i - 1, by omega⟩
  refine up_eq_of_iterate_eq (hacc _ (hlive.iterate_up i)) (k := k) ?_
  rw [← Function.iterate_add_apply, h]

/-- What is met on a way up without circles is met within as many steps as there are nodes. -/
theorem exists_iterate_lt (hacc : ∀ n, w.Live n → Acc (fun d n => w.Hangs n d) n)
    (hlive : w.Live n) {a : NodeId} (h : ∃ i, w.up^[i] n = a) :
    ∃ i, i < w.nodes.size ∧ w.up^[i] n = a := by
  classical
  obtain ⟨i, hi, hfirst⟩ : ∃ i, w.up^[i] n = a ∧ ∀ j < i, w.up^[j] n ≠ a :=
    ⟨Nat.find h, Nat.find_spec h, fun j => Nat.find_min h⟩
  refine ⟨i, ?_, hi⟩
  have hinj : Set.InjOn (fun j => w.up^[j] n) (Finset.range (i + 1)) := by
    -- If an earlier node came back, the way would have stopped there, short of the first meeting.
    have hne : ∀ j k, j < k → k ≤ i → w.up^[j] n ≠ w.up^[k] n := by
      intro j k hjk hki heq
      have hstop := up_eq_of_iterate_eq_iterate hacc hlive hjk heq
      refine hfirst j (by omega) ?_
      obtain ⟨m, rfl⟩ : ∃ m, i = m + j := ⟨i - j, by omega⟩
      rw [← hi, Function.iterate_add_apply, iterate_up_of_up_eq hstop]
    intro j hj k hk heq
    simp only [Finset.coe_range, Set.mem_Iio] at hj hk
    rcases Nat.lt_trichotomy j k with hlt | rfl | hgt
    · exact absurd heq (hne j k hlt (by omega))
    · rfl
    · exact absurd heq.symm (hne k j hgt (by omega))
  have hmaps : Set.MapsTo (fun j => w.up^[j] n) (Finset.range (i + 1))
      (Finset.range w.nodes.size) :=
    fun j _ => Finset.mem_coe.2 (Finset.mem_range.2 (hlive.iterate_up j).lt)
  have hcard := Finset.card_le_card_of_injOn _ hmaps hinj
  rwa [Finset.card_range, Finset.card_range] at hcard

end World

/-! ## What the memory filesystem reads -/

namespace RamFs


variable {w : World} {n dir : NodeId}

theorem nodeOf_apply (h : (w.node n).IsRam) : nodeOf n w = { result := .ok (w.node n).ram } := by
  rw [nodeOf, Query.look_bind, h.payload]
  rfl

/-- The directory that holds a node is one step up. -/
theorem containerOf_apply (h : (w.node n).IsRam) :
    containerOf n w = { result := .ok (w.up n) } := by
  rw [containerOf, Query.bind_ok (nodeOf_apply h)]
  rfl

theorem childrenOf_apply (h : (w.node n).IsRam) :
    childrenOf n w =
      ⟨if w.isDirectory n then .ok (w.children n) else .error .notADirectory, []⟩ := by
  have htype : w.isDirectory n = true ↔
      ∃ children, (w.node n).ram.content = .directory children := by
    rw [World.isDirectory, Mode.isDirectory, h.type, beq_iff_eq, Content.type_eq_directory]
  rw [childrenOf, Query.bind_ok (nodeOf_apply h), World.children, h.children]
  cases hcontent : (w.node n).ram.content with
  | directory children =>
    rw [if_pos (htype.2 ⟨children, hcontent⟩)]
    rfl
  | file _ | symlink _ | device =>
    rw [if_neg fun hdir => by
      obtain ⟨children, hdir⟩ := htype.1 hdir
      rw [hcontent] at hdir
      cases hdir]
    rfl

/-- A name that is no dot is looked up among the children. -/
theorem lookup_result_eq_ok (h : (w.node dir).IsRam) {name : String} (hdot : name ≠ ".")
    (hdots : name ≠ "..") :
    (lookup dir name w).result = .ok n ↔ w.isDirectory dir = true ∧ w.Entry dir name n := by
  rw [lookup, if_neg hdot, if_neg hdots, Query.result_bind_eq_ok, childrenOf_apply h]
  by_cases hdir : w.isDirectory dir = true
  · simp only [hdir, if_true, true_and, Except.ok.injEq]
    constructor
    · intro hfound
      obtain ⟨_, rfl, hget⟩ := hfound
      exact Query.result_expect_eq_ok.1 hget
    · exact fun hget => ⟨_, rfl, Query.result_expect_eq_ok.2 hget⟩
  · simp [hdir]

/-- A way up is followed for so many steps. -/
theorem isAboveWithin_result (hram : ∀ n, w.Live n → (w.node n).IsRam) (a : NodeId) (steps : Nat)
    (hlive : w.Live n) :
    ∃ above, (isAboveWithin a steps n w).result = .ok above ∧
      (above = true ↔ ∃ i < steps, w.up^[i] n = a) := by
  induction steps generalizing n with
  | zero => exact ⟨false, rfl, by simp⟩
  | succ steps ih =>
    rw [isAboveWithin]
    by_cases hfound : n = a
    · rw [if_pos hfound]
      exact ⟨true, rfl, fun _ => ⟨0, Nat.zero_lt_succ _, hfound⟩, fun _ => rfl⟩
    rw [if_neg hfound, Query.bind_ok (containerOf_apply (hram n hlive))]
    by_cases hstop : w.up n = n
    · rw [if_pos hstop]
      refine ⟨false, rfl, ?_⟩
      simpa [World.iterate_up_of_up_eq hstop] using fun _ _ => hfound
    · rw [if_neg hstop]
      obtain ⟨above, hresult, habove⟩ := ih hlive.up
      refine ⟨above, hresult, habove.trans ⟨?_, ?_⟩⟩
      · intro hfound
        obtain ⟨i, hi, hmeet⟩ := hfound
        exact ⟨i + 1, Nat.succ_lt_succ hi, hmeet⟩
      · intro hfound
        obtain ⟨i, hi, hmeet⟩ := hfound
        cases i with
        | zero => exact absurd hmeet hfound
        | succ i => exact ⟨i, Nat.lt_of_succ_lt_succ hi, hmeet⟩

/-- Where no way up goes round in circles, the walk over ancestors is exact. -/
theorem isAbove_result (hram : ∀ n, w.Live n → (w.node n).IsRam)
    (hacc : ∀ n, w.Live n → Acc (fun d n => w.Hangs n d) n) (a : NodeId) (hlive : w.Live n) :
    ∃ above, (isAbove a n w).result = .ok above ∧ (above = true ↔ w.Above a n) := by
  rw [isAbove, Query.look_bind]
  obtain ⟨above, hresult, habove⟩ := isAboveWithin_result hram a (w.nodes.size + 1) hlive
  refine ⟨above, hresult, habove.trans ?_⟩
  rw [World.above_iff_exists_iterate]
  constructor
  · intro hfound
    obtain ⟨i, -, hmeet⟩ := hfound
    exact ⟨i, hmeet⟩
  · intro hmeet
    obtain ⟨i, hi, hmeet⟩ := World.exists_iterate_lt hacc hlive hmeet
    exact ⟨i, by omega, hmeet⟩

end RamFs

end VirtualFs
