/-
What keeps nodes alive. A node is to live as long as something that lives refers
to it and no longer (`World.Tidy`). Settling sweeps until that is so. What it
takes away after a single reference went is the one node that lost it, as long as
that node refers to nothing itself.
-/
import VirtualFs.Proofs.Edit

namespace VirtualFs

/-! ## Sweeps that take nothing -/

theorem length_filterMap_mapIdx {α : Type} (cells : List (Option α)) (p : Nat → Bool) :
    ((cells.mapIdx fun i cell => if p i then cell else none).filterMap id).length ≤
        (cells.filterMap id).length ∧
      (((cells.mapIdx fun i cell => if p i then cell else none).filterMap id).length =
        (cells.filterMap id).length → ∀ i thing, cells[i]? = some (some thing) → p i = true) := by
  induction cells generalizing p with
  | nil => exact ⟨Nat.le_refl _, fun _ i thing hget => by simp at hget⟩
  | cons cell rest ih =>
    obtain ⟨hle, hall⟩ := ih fun i => p (i + 1)
    rw [List.mapIdx_cons]
    cases cell with
    | none =>
      simp only [ite_self, List.filterMap_cons_none, id_eq]
      refine ⟨hle, fun heq i thing hget => ?_⟩
      cases i with
      | zero => cases hget
      | succ i => exact hall heq i thing hget
    | some kept =>
      by_cases hp : p 0 = true
      · simp only [hp, if_true, List.filterMap_cons_some (f := id) rfl, List.length_cons]
        refine ⟨Nat.succ_le_succ hle, fun heq i thing hget => ?_⟩
        cases i with
        | zero => exact hp
        | succ i => exact hall (Nat.succ.inj heq) i thing hget
      · simp only [hp, Bool.false_eq_true, if_false, List.filterMap_cons_none (f := id) rfl,
          List.filterMap_cons_some (f := id) rfl, List.length_cons]
        exact ⟨Nat.le_succ_of_le hle, fun heq => absurd heq (Nat.ne_of_lt (Nat.lt_succ_of_le hle))⟩

/-- A store that is reduced has no more things than before, and lost none if it has as many. -/
theorem Arena.length_toList_keep {α : Type} (a : Arena α) (p : Nat → Bool) :
    (a.keep p).toList.length ≤ a.toList.length ∧
      ((a.keep p).toList.length = a.toList.length → ∀ key, a.has key = true → p key = true) := by
  have hcells : (a.keep p).cells.toList =
      a.cells.toList.mapIdx fun key cell => if p key then cell else none := by
    simp [keep]
  rw [toList, toList, hcells]
  obtain ⟨hle, hall⟩ := length_filterMap_mapIdx a.cells.toList p
  refine ⟨hle, fun heq key hkey => ?_⟩
  obtain ⟨thing, hthing⟩ := has_iff.1 hkey
  rw [get?, Array.getD_eq_getD_getElem?] at hthing
  refine hall heq key thing ?_
  rw [Array.getElem?_toList]
  cases hcell : a.cells[key]? with
  | none => rw [hcell] at hthing; cases hthing
  | some cell => rw [hcell] at hthing; exact congrArg some hthing

theorem Arena.keep_eq_self {α : Type} {a : Arena α} {p : Nat → Bool}
    (h : ∀ key, a.has key = true → p key = true) : a.keep p = a := by
  rw [keep]
  cases a with
  | mk cells =>
    rw [mk.injEq]
    refine Array.ext (by simp) fun i hi hi' => ?_
    rw [Array.getElem_mapIdx]
    split
    · rfl
    · next hp =>
      cases hcell : cells[i] with
      | none => rfl
      | some thing =>
        refine absurd (h i (has_iff.2 ⟨thing, ?_⟩)) hp
        rw [get?, Array.getD_eq_getD_getElem?, Array.getElem?_eq_getElem hi', hcell,
          Option.getD_some]

namespace World

/-- Something that lives refers to the node. -/
inductive Refers (w : World) : NodeId → Prop where
  | root {v} : w.volumes.has v = true → Refers w (w.volume v).root
  | entry {d name c} : w.Entry d name c → Refers w c
  | mounted {p r} : (w.node p).mountRoot = some r → Refers w r
  | file {f file} : w.files.get? f = some file → Refers w file.node
  | cwd {c : ContextId} {context} : w.contexts[c]? = some context → Refers w context.cwd
  | pin {name n} : w.pins.get? name = some n → Refers w n

/-- Nothing lives that nothing refers to. -/
def Tidy (w : World) : Prop := ∀ n, w.Live n → w.Refers n

variable {w w' : World} {n c d : NodeId}

theorem Refers.mem (hn : w.Refers n) : n ∈ w.references := by
  cases hn with
  | root hv => exact root_mem_references hv
  | entry he => exact child_mem_references he
  | mounted hr =>
    refine mem_references_of_node (live_of_mountRoot hr) (List.mem_append.2 (.inr ?_))
    rw [hr]
    exact List.mem_singleton.2 rfl
  | file hf => exact file_mem_references hf
  | cwd hc => exact cwd_mem_references hc
  | pin hp => exact pin_mem_references hp

theorem mem_references : n ∈ w.references ↔ w.Refers n := by
  refine ⟨fun hn => ?_, Refers.mem⟩
  simp only [references, List.mem_append, List.mem_map, List.mem_flatMap, or_assoc] at hn
  rcases hn with ⟨volume, hvolume, rfl⟩ | ⟨node, hnode, hn⟩ | ⟨file, hfile, rfl⟩ |
    ⟨context, hcontext, rfl⟩ | hpin
  · obtain ⟨v, hv⟩ := Arena.mem_toList.1 hvolume
    have heq : w.volume v = volume := by rw [World.volume, hv, Option.getD_some]
    exact heq ▸ .root (Arena.has_iff.2 ⟨volume, hv⟩)
  · obtain ⟨d, hd⟩ := Arena.mem_toList.1 hnode
    have heq : w.node d = node := by rw [World.node, hd, Option.getD_some]
    subst heq
    rcases List.mem_append.1 hn with hchild | hroot
    · obtain ⟨⟨name, _⟩, hmem, rfl⟩ := List.mem_map.1 hchild
      exact .entry (NameMap.mem_entries.1 hmem)
    · exact .mounted (Option.mem_toList.1 hroot)
  · obtain ⟨f, hf⟩ := Arena.mem_toList.1 hfile
    exact .file hf
  · obtain ⟨c, hc⟩ := Array.mem_iff_getElem?.1 (Array.mem_toList_iff.1 hcontext)
    exact .cwd hc
  · obtain ⟨⟨name, _⟩, hmem, rfl⟩ := List.mem_map.1 hpin
    exact .pin (NameMap.mem_entries.1 hmem)

/-! ## Holding on -/

/-- What is referred to stays so if whatever held it from outside the trees is held still. -/
theorem Refers.held {files : Arena OpenFile} {contexts : Array Context} {tasks : Array Task}
    {pins : NameMap NodeId} (hn : w.Refers n)
    (hfile : ∀ f file, w.files.get? f = some file →
      ∃ f' file', files.get? f' = some file' ∧ file'.node = file.node)
    (hcwd : ∀ (c : ContextId) context, w.contexts[c]? = some context →
      ∃ (c' : ContextId) (context' : Context), contexts[c']? = some context' ∧
        context'.cwd = context.cwd)
    (hpin : ∀ name n, w.pins.get? name = some n → pins.get? name = some n) :
    ({ w with files, contexts, tasks, pins } : World).Refers n := by
  cases hn with
  | root hv => exact .root (w := { w with files, contexts, tasks, pins }) hv
  | entry he => exact .entry (w := { w with files, contexts, tasks, pins }) he
  | mounted hr => exact .mounted (w := { w with files, contexts, tasks, pins }) hr
  | file hf =>
    obtain ⟨f', file', hget, heq⟩ := hfile _ _ hf
    exact heq ▸ .file (w := { w with files, contexts, tasks, pins }) hget
  | cwd hc =>
    obtain ⟨c', context', hget, heq⟩ := hcwd _ _ hc
    exact heq ▸ .cwd (w := { w with files, contexts, tasks, pins }) hget
  | pin hp => exact .pin (w := { w with files, contexts, tasks, pins }) (hpin _ _ hp)

theorem Refers.setContext (hn : w.Refers n) (c : ContextId) {g : Context → Context}
    (hg : ∀ context, (g context).cwd = context.cwd) : (w.setContext c g).Refers n := by
  refine hn.held (fun f file hf => ⟨f, file, hf, rfl⟩) (fun i context hget => ?_) fun _ _ hp => hp
  by_cases hi : c = i
  · exact ⟨i, g context, by rw [Array.getElem?_modify, if_pos hi, hget]; rfl, hg context⟩
  · exact ⟨i, context, by rw [Array.getElem?_modify, if_neg hi, hget], rfl⟩

theorem Refers.setFile (hn : w.Refers n) (f : FileId) {g : OpenFile → OpenFile}
    (hg : ∀ file, (g file).node = file.node) : (w.setFile f g).Refers n := by
  refine hn.held (fun i file hget => ?_) (fun c context hc => ⟨c, context, hc, rfl⟩)
    fun _ _ hp => hp
  by_cases hi : f = i
  · exact ⟨i, g file, by rw [Arena.get?_modify, if_pos hi, hget]; rfl, hg file⟩
  · exact ⟨i, file, by rw [Arena.get?_modify, if_neg hi, hget], rfl⟩

theorem Refers.pushFile (hn : w.Refers n) (file : OpenFile) :
    ({ w with files := w.files.push file } : World).Refers n := by
  refine hn.held (fun i other hget => ⟨i, other, ?_, rfl⟩)
    (fun c context hc => ⟨c, context, hc, rfl⟩) fun _ _ hp => hp
  rw [Arena.get?_push, if_neg, hget]
  exact Nat.ne_of_lt (Arena.lt_nextKey_of_has (Arena.has_iff.2 ⟨other, hget⟩))

theorem Refers.pushContext (hn : w.Refers n) (context : Context) :
    ({ w with contexts := w.contexts.push context } : World).Refers n := by
  refine hn.held (fun f file hf => ⟨f, file, hf, rfl⟩) (fun i other hget => ⟨i, other, ?_, rfl⟩)
    fun _ _ hp => hp
  obtain ⟨hlt, rfl⟩ := Array.getElem?_eq_some_iff.1 hget
  rw [Array.getElem?_push_lt hlt]

theorem Refers.setTasks (hn : w.Refers n) (tasks : Array Task) :
    ({ w with tasks } : World).Refers n :=
  hn.held (fun f file hf => ⟨f, file, hf, rfl⟩) (fun c context hc => ⟨c, context, hc, rfl⟩)
    fun _ _ hp => hp

/-! ## Settling -/

/-- A world that has no fewer nodes once it is swept is tidy. -/
theorem tidy_of_liveNodes (h : w.sweep.liveNodes = w.liveNodes) : w.Tidy := by
  intro n hn
  have hmarked := (Arena.length_toList_keep w.nodes _).2 h n hn
  exact mem_references.1 ((getD_marks _ _ _).1 hmarked).2

theorem liveNodes_sweep_le (w : World) : w.sweep.liveNodes ≤ w.liveNodes :=
  (Arena.length_toList_keep w.nodes _).1

theorem liveNodes_le_size (w : World) : w.liveNodes ≤ w.nodes.size := by
  rw [liveNodes, Arena.toList, Arena.size, ← Array.length_toList]
  exact List.length_filterMap_le _ _

theorem tidy_settleFor {rounds : Nat} (h : w.liveNodes ≤ rounds) : (settleFor rounds w).Tidy := by
  induction rounds generalizing w with
  | zero =>
    -- There is no node.
    refine tidy_of_liveNodes (Nat.le_antisymm w.liveNodes_sweep_le ?_)
    rw [settleFor, Nat.le_zero.1 h]
    exact Nat.zero_le _
  | succ rounds ih =>
    rw [settleFor]
    split
    · next heq => exact tidy_of_liveNodes heq
    · next hne =>
      have hlt := Nat.lt_of_le_of_ne w.liveNodes_sweep_le hne
      exact ih (Nat.le_of_lt_succ (Nat.lt_of_lt_of_le hlt h))

/-- **Settling leaves nothing that nothing refers to.** -/
theorem tidy_settle (w : World) : w.settle.Tidy := tidy_settleFor w.liveNodes_le_size

theorem live_sweep_iff : w.sweep.Live n ↔ w.Live n ∧ w.Refers n := by
  rw [live_sweep, mem_references]

/-- There is nothing to take away from a tidy world. -/
theorem Tidy.sweep_eq (h : w.Tidy) : w.sweep = w := by
  have hnodes : w.sweep.nodes = w.nodes := by
    refine Arena.keep_eq_self fun key hkey => ?_
    have hlive : w.Live key := hkey
    exact (getD_marks _ _ _).2 ⟨hlive.lt, (h key hkey).mem⟩
  rw [sweep] at hnodes ⊢
  rw [World.mk.injEq]
  exact ⟨rfl, hnodes, rfl, rfl, rfl, rfl, rfl, rfl, rfl, rfl, rfl⟩

theorem Tidy.settleFor_eq (h : w.Tidy) (rounds : Nat) : settleFor rounds w = w := by
  cases rounds with
  | zero => rfl
  | succ rounds => rw [settleFor, h.sweep_eq, if_pos rfl]

section

variable (hrest : ∀ n, w.Live n → n ≠ c → w.Refers n) (hbare : ∀ a x, ¬w.Entry c a x)
  (hplain : (w.node c).mountRoot = none)

include hrest hbare hplain

/-- What is referred to is not referred to by the one node that may be about to go. -/
theorem Refers.sweep (hn : w.Refers n) : w.sweep.Refers n := by
  have hstays : ∀ {d}, w.Live d → d ≠ c → w.sweep.Live d := fun hd hne =>
    live_sweep_iff.2 ⟨hd, hrest _ hd hne⟩
  cases hn with
  | root hv => exact .root (w := w.sweep) hv
  | @entry d name _ he =>
    have hne : d ≠ c := by
      rintro rfl
      exact hbare _ _ he
    have he' : w.sweep.Entry d name n := by
      rw [Entry, World.children, node_sweep (hstays he.live hne)]
      exact he
    exact .entry he'
  | @mounted p _ hr =>
    have hne : p ≠ c := by
      rintro rfl
      cases hplain.symm.trans hr
    refine .mounted (p := p) ?_
    rw [node_sweep (hstays (live_of_mountRoot hr) hne)]
    exact hr
  | file hf => exact .file (w := w.sweep) hf
  | cwd hc => exact .cwd (w := w.sweep) hc
  | pin hp => exact .pin (w := w.sweep) hp

/-- **One sweep is enough** where only one node may be referred to by nothing, and refers to nothing
itself. -/
theorem settle_eq_sweep : w.settle = w.sweep := by
  have htidy : w.sweep.Tidy := fun n hn =>
    Refers.sweep hrest hbare hplain (live_sweep_iff.1 hn).2
  rw [settle]
  cases hsize : w.nodes.size with
  | zero =>
    have hnone : w.Tidy := fun n hn => absurd hn.lt (by
      rw [show w.nodes.nextKey = 0 from hsize]
      exact Nat.not_lt_zero n)
    rw [hnone.sweep_eq]
    rfl
  | succ rounds =>
    rw [settleFor]
    split
    · next heq => exact (tidy_of_liveNodes heq).sweep_eq.symm
    · exact htidy.settleFor_eq rounds

theorem live_settle : w.settle.Live n ↔ w.Live n ∧ (n = c → w.Refers c) := by
  rw [settle_eq_sweep hrest hbare hplain, live_sweep_iff]
  refine and_congr_right fun hn => ⟨fun hrefers heq => heq ▸ hrefers, fun hself => ?_⟩
  by_cases heq : n = c
  · exact heq ▸ hself heq
  · exact hrest n hn heq

/-- A node that lists nothing leaves no entry behind when it goes. -/
theorem entry_settle {name : String} {x : NodeId} : w.settle.Entry d name x ↔ w.Entry d name x := by
  constructor
  · intro he
    have hlive : w.settle.Live d := he.live
    rw [Entry, World.children, (node_settle hlive).2] at he
    exact he
  · intro he
    have hne : d ≠ c := by
      rintro rfl
      exact hbare _ _ he
    have hlive := (live_settle hrest hbare hplain).2 ⟨he.live, fun heq => absurd heq hne⟩
    rw [Entry, World.children, (node_settle hlive).2]
    exact he

end

end World

end VirtualFs
