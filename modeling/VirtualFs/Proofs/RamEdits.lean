/-
What the memory filesystem does to a world. Each of its operations is described
once: what it leaves when it succeeds (`Inserted`, `Removed`, `Renamed`,
`Touch`), and that it leaves the world as it was when it fails. Everything else
that is said about these operations is said about what they leave. Here it is
that this is a sequence of edits.
-/
import VirtualFs.Proofs.Arrival
import VirtualFs.Proofs.Atomic
import VirtualFs.Proofs.Preservation

namespace VirtualFs

open Relation (ReflTransGen)
open VirtualFs.Action (fails_pure fails_throw fails_change fails_bind fails_query_bind
  fails_demand_bind fails_ask_bind fails_world_bind fails_change_bind)
open VirtualFs.Action (leads_query_bind leads_demand_bind leads_bind leads_pure leads_throw
  leads_change leads_when)
open World (grown_withNode node_withNode alike_setChildren parent_setChildren children_setChildren
  alike_setParent parent_setParent children_setParent live_of_parent live_of_isDirectory)

/-! ## Sweeping up -/

theorem World.edits_settleFor (rounds : Nat) (w : World) : w.Edits (World.settleFor rounds w) := by
  induction rounds generalizing w with
  | zero => exact .refl
  | succ rounds ih =>
    rw [World.settleFor]
    split
    · exact .refl
    · exact .head .swept (ih w.sweep)

theorem World.edits_settle (w : World) : w.Edits w.settle := w.edits_settleFor _

/-! ## Directories and what they list -/

namespace RamFs

variable {w : World} (h : w.WellFormed) {n d : NodeId} {name : String}

include h

theorem containerOf_result (hn : w.Live n) : (containerOf n w).result = .ok (w.up n) := by
  rw [containerOf_apply (h.ram n hn)]

theorem childrenOf_result (hdir : w.isDirectory d = true) :
    (childrenOf d w).result = .ok (w.children d) := by
  rw [childrenOf_apply (h.ram d (live_of_isDirectory hdir)), if_pos hdir]

theorem of_childrenOf {children : NameMap NodeId} (hd : w.Live d)
    (hchildren : (childrenOf d w).result = .ok children) :
    w.isDirectory d = true ∧ children = w.children d := by
  rw [childrenOf_apply (h.ram d hd)] at hchildren
  dsimp only at hchildren
  split at hchildren
  · next hdir =>
    cases hchildren
    exact ⟨hdir, rfl⟩
  · cases hchildren

theorem not_entry_of_not_isDirectory (hdir : ¬w.isDirectory n = true) (a : String) (x : NodeId) :
    ¬w.Entry n a x :=
  fun he => hdir (h.isDirectory_of_entry he)

theorem not_entry_of_isEmpty (hn : w.Live n) (hempty : (isEmpty n w).result = .ok true)
    (a : String) (x : NodeId) : ¬w.Entry n a x := by
  obtain ⟨children, hchildren, hempty⟩ := Query.result_bind_eq_ok.1 hempty
  obtain ⟨-, rfl⟩ := of_childrenOf h hn hchildren
  intro he
  have hmem := NameMap.mem_entries.2 he
  rw [List.isEmpty_iff.1 (Except.ok.inj hempty)] at hmem
  cases hmem

/-- A directory is one in which a name is not found. -/
theorem isDirectory_of_lookup_notFound (hd : w.Live d) (hname : IsEntryName name)
    (hresult : (lookup d name w).result = .error .notFound) : w.isDirectory d = true := by
  rw [lookup, if_neg hname.ne_dot, if_neg hname.ne_dots, Query.result_bind,
    childrenOf_apply (h.ram d hd)] at hresult
  by_cases hdir : w.isDirectory d = true
  · exact hdir
  · simp only [hdir, Bool.false_eq_true, if_false, Except.bind] at hresult
    cases hresult

end RamFs

/-! ## Making nodes -/

/-- A node has been made, and a directory lists it under a name that was free. -/
inductive World.Inserted (w : World) (d : NodeId) (name : String) : NodeId → World → Prop where
  | mk {ino mode content ops} :
      w.isDirectory d = true → (∀ c, ¬w.Entry d name c) →
      (w.volume (w.node d).volume).nextIno = some ino → Mode.typeBits mode = content.type →
      content.children = .empty → ops = some .ram ∨ content = .device →
      Inserted w d name w.nodes.nextKey ((w.withNode d ino mode content ops).setChildren d
        ((w.children d).insert name w.nodes.nextKey))

namespace World.Inserted

variable {w w' : World} (h : w.WellFormed) {n d : NodeId} {name : String}
  (hinserted : w.Inserted d name n w')

include hinserted

theorem isDirectory : w.isDirectory d = true := by
  cases hinserted with
  | mk hdir => exact hdir

theorem free (c : NodeId) : ¬w.Entry d name c := by
  cases hinserted with
  | mk _ hfree => exact hfree c

theorem eq_nextKey : n = w.nodes.nextKey := by
  cases hinserted with
  | mk => rfl

theorem contexts_eq : w'.contexts = w.contexts := by
  cases hinserted with
  | mk => rfl

include h

/-- First the node is made, and hangs in the directory then; after that it is listed. -/
theorem made : ∃ ino mode content ops, let w₁ := w.withNode d ino mode content ops
    w.Edit w₁ ∧ w.Grown w₁ ∧ w₁.isDirectory d = true ∧ w₁.parent n = some d ∧
      (∀ d' a, ¬w₁.Entry d' a n) ∧ w₁.Live n ∧ (w₁.node n).volume = (w.node d).volume ∧
        w' = w₁.setChildren d ((w₁.children d).insert name n) := by
  cases hinserted with
  | @mk ino mode content ops hdir _ hino hmode hcontent hops =>
    have s : w.Grown (w.withNode d ino mode content ops) :=
      grown_withNode h hdir hmode hcontent hops
    have hsame := s.node_of_live (live_of_isDirectory hdir)
    have hnew := node_withNode w d ino mode content ops
    refine ⟨ino, mode, content, ops, .made hdir hino hmode hcontent hops, s, ?_, ?_,
      fun d' a he => ?_, (s.live _).2 (.inl rfl), by rw [hnew], ?_⟩
    · rwa [World.isDirectory, hsame]
    · rw [World.parent, hnew]
      rfl
    · exact Nat.lt_irrefl _ (h.linked.live d' a _ (s.entry he)).lt
    · rw [World.children, World.children, hsame]

theorem edits (hname : IsEntryName name) : w.Edits w' := by
  obtain ⟨ino, mode, content, ops, hmade, -, hdir, hparent, hunlisted, -, -, rfl⟩ :=
    hinserted.made h
  exact .head hmade (.single (.listed hdir hparent (hunlisted d) hname))

theorem volume_eq : (w'.node n).volume = (w.node d).volume := by
  obtain ⟨ino, mode, content, ops, hmade, -, hdir, -, -, -, hvolume, rfl⟩ := hinserted.made h
  exact ((alike_setChildren (hmade.wellFormed h) hdir _).volume n).trans hvolume

theorem live : w'.Live n := by
  obtain ⟨ino, mode, content, ops, hmade, -, hdir, -, -, hlive, -, rfl⟩ := hinserted.made h
  exact ((alike_setChildren (hmade.wellFormed h) hdir _).live n).2 hlive

end World.Inserted

/-- The nodes that are there stay there, on their volumes. -/
def World.Keeps (w w' : World) : Prop :=
  ∀ m, w.Live m → w'.Live m ∧ (w'.node m).volume = (w.node m).volume

namespace World

variable {w w' w'' : World}

theorem Keeps.refl (w : World) : w.Keeps w := fun _ hm => ⟨hm, rfl⟩

theorem Keeps.trans (h : w.Keeps w') (h' : w'.Keeps w'') : w.Keeps w'' := by
  intro m hm
  obtain ⟨hm', hvolume⟩ := h m hm
  obtain ⟨hm'', hvolume'⟩ := h' m hm'
  exact ⟨hm'', hvolume'.trans hvolume⟩

theorem Inserted.keeps (h : w.WellFormed) {n d : NodeId} {name : String}
    (hinserted : w.Inserted d name n w') : w.Keeps w' := by
  obtain ⟨ino, mode, content, ops, hmade, s, hdir, -, -, -, -, rfl⟩ := hinserted.made h
  have s' := alike_setChildren (hmade.wellFormed h) hdir
    (((w.withNode d ino mode content ops).children d).insert name n)
  exact fun m hm => ⟨(s'.live m).2 ((s.live m).2 (.inr hm)),
    (s'.volume m).trans (by rw [s.node_of_live hm])⟩

end World

theorem RamFs.insert_inserts {w : World} (h : w.WellFormed) {d : NodeId} {name : String}
    {v : VolumeKey} {mode : UInt32} {content : Content} {ops : Option OpsKind} (hd : w.Live d)
    (hv : v = (w.node d).volume) (hmode : Mode.typeBits mode = content.type)
    (hcontent : content.children = .empty)
    (hops : w.isDirectory d = true → ops = some .ram ∨ content = .device) :
    (insert v d name mode content ops).FailsTo w w fun n w' => w.Inserted d name n w' := by
  subst hv
  refine fails_query_bind fun _ _ => fails_query_bind fun children hchildren =>
    fails_demand_bind fun hfree => ?_
  obtain ⟨hdir, rfl⟩ := of_childrenOf h hd hchildren
  have hfree : ∀ c, ¬w.Entry d name c := fun c he => by
    rw [NameMap.contains, he] at hfree
    cases hfree
  refine fails_bind (P := fun n w' => ∃ ino, n = w.nodes.nextKey ∧
    (w.volume (w.node d).volume).nextIno = some ino ∧ w' = w.withNode d ino mode content ops) ?_ ?_
  · refine fails_query_bind fun ino hino => fails_world_bind (fails_change_bind (fails_pure ?_))
    rw [nextInoOf, Query.look_bind, Query.result_expect_eq_ok] at hino
    exact ⟨ino, rfl, hino, rfl⟩
  · rintro _ _ ⟨ino, rfl, hino, rfl⟩
    exact fails_change_bind (fails_pure ⟨hdir, hfree, hino, hmode, hcontent, hops hdir⟩)

/-- The new node has the mode and holds the content it was asked for with. -/
theorem RamFs.insert_makes {w : World} {d : NodeId} {name : String} {v : VolumeKey} {mode : UInt32}
    {content : Content} {ops : Option OpsKind} (hd : w.Live d) :
    (insert v d name mode content ops).FailsTo w w fun _ w' =>
      (w'.node w.nodes.nextKey).mode = mode ∧ w'.content w.nodes.nextKey = content := by
  refine fails_query_bind fun _ _ => fails_query_bind fun _ _ => fails_demand_bind fun _ => ?_
  refine fails_bind (P := fun _ w' => (w'.node w.nodes.nextKey).mode = mode ∧
    w'.content w.nodes.nextKey = content) ?_ fun n w' hmade => ?_
  · refine fails_query_bind fun _ _ => fails_world_bind (fails_change_bind (fails_pure ?_))
    rw [World.content, World.node_push rfl rfl, if_pos rfl]
    exact ⟨rfl, rfl⟩
  · refine fails_change_bind (fails_pure ?_)
    rw [World.content, World.node_setNode_of_ne _ (Nat.ne_of_gt hd.lt)]
    exact hmade

/-! ## Taking entries away -/

/-- An entry has been taken away, of a node that lists nothing. -/
inductive World.Removed (w : World) (d : NodeId) (name : String) : World → Prop where
  | mk {c} : w.Entry d name c → (∀ a x, ¬w.Entry c a x) →
      Removed w d name (w.setChildren d ((w.children d).erase name)).settle

theorem World.Removed.edits {w w' : World} (h : w.WellFormed) {d : NodeId} {name : String}
    (hremoved : w.Removed d name w') : w.Edits w' := by
  obtain ⟨hentry, -⟩ := hremoved
  exact .head (.unlisted (h.isDirectory_of_entry hentry)) (edits_settle _)

namespace RamFs

variable {w : World} (h : w.WellFormed) {n d : NodeId} {name : String}

include h

theorem unlink_removes (v : VolumeKey) (hd : w.Live d) (name : String) :
    (unlink v d name).FailsTo w w fun _ w' => w.Removed d name w' := by
  refine fails_query_bind fun _ _ => fails_query_bind fun children hchildren => ?_
  obtain ⟨-, rfl⟩ := of_childrenOf h hd hchildren
  refine fails_query_bind fun c hc => fails_ask_bind (fails_demand_bind fun hplain => ?_)
  have hbare := not_entry_of_not_isDirectory h (n := c) (by simpa using hplain)
  exact fails_change_bind (fails_change ⟨Query.result_expect_eq_ok.1 hc, hbare⟩)

theorem removeDirectory_removes (v : VolumeKey) (hd : w.Live d) (name : String) :
    (removeDirectory v d name).FailsTo w w fun _ w' => w.Removed d name w' := by
  refine fails_query_bind fun _ _ => fails_query_bind fun children hchildren => ?_
  obtain ⟨-, rfl⟩ := of_childrenOf h hd hchildren
  refine fails_query_bind fun c hc => fails_query_bind fun _ _ => fails_demand_bind fun _ =>
    fails_query_bind fun _ _ => fails_demand_bind fun _ => fails_query_bind fun empty hempty =>
    fails_demand_bind fun htrue => ?_
  subst htrue
  have hentry : w.Entry d name c := Query.result_expect_eq_ok.1 hc
  have hbare := not_entry_of_isEmpty h (h.linked.live _ _ _ hentry) hempty
  exact fails_change_bind (fails_change ⟨hentry, hbare⟩)

/-! ## Moving entries -/

omit h in
/-- Listing a node and turning it, in this order, is as good as the other way round. -/
theorem setParent_setChildren_comm (hne : d ≠ n) (children : NameMap NodeId) (e : NodeId) :
    (w.setChildren d children).setParent n e = (w.setParent n e).setChildren d children :=
  World.setNode_comm hne _ _

/-- A node that nothing lists is put into a directory that is not below it. -/
theorem edits_rehang {p : NodeId} (hn : w.parent n = some p) (hd : w.isDirectory d = true)
    (hvolume : (w.node n).volume = (w.node d).volume) (hfree : ∀ d' a, ¬w.Entry d' a n)
    (habove : ¬w.Above n d) (hname : IsEntryName name) :
    w.Edits ((w.setChildren d ((w.children d).insert name n)).setParent n d) := by
  have hlive := live_of_parent hn
  have hne : d ≠ n := by
    intro heq
    subst heq
    exact habove .refl
  have turned : World.Edit w (w.setParent n d) := .turned hn hd hvolume hfree habove
  have hchildren := children_setParent hlive d
  have hdir : (w.setParent n d).isDirectory d = true := by
    rw [(alike_setParent h hn d).isDirectory]
    exact hd
  have hparent : (w.setParent n d).parent n = some d := by
    rw [parent_setParent h hlive, if_pos rfl]
  have hunlisted : ∀ a, ¬(w.setParent n d).Entry d a n := fun a he => by
    rw [World.Entry, hchildren] at he
    exact hfree d a he
  rw [setParent_setChildren_comm hne, ← hchildren d]
  exact .head turned (.single (.listed hdir hparent hunlisted hname))

theorem edits_relinked {oldDir : NodeId} {oldName : String} (hentry : w.Entry oldDir oldName n)
    (hd : w.isDirectory d = true) (hvolume : (w.node n).volume = (w.node d).volume)
    (habove : ¬w.Above n d) (hname : IsEntryName name) :
    w.Edits (w.relinked n oldDir oldName d name) := by
  have hold := h.isDirectory_of_entry hentry
  have hedit : w.Edit (w.setChildren oldDir ((w.children oldDir).erase oldName)) := .unlisted hold
  have s := alike_setChildren h hold ((w.children oldDir).erase oldName)
  have hparent := parent_setChildren h hold ((w.children oldDir).erase oldName)
  refine .head hedit (edits_rehang (hedit.wellFormed h) (p := oldDir) ?_
    ((s.isDirectory d).trans hd) ?_ (fun e a he => ?_) ?_ hname)
  · rw [hparent]
    exact h.linked.parent _ _ _ hentry
  · rw [s.volume, s.volume]
    exact hvolume
  · -- The one entry the node had is the one that was taken away.
    rw [World.Entry, children_setChildren h hold] at he
    split at he
    · next heq =>
      rw [NameMap.get?_erase] at he
      split at he
      · cases he
      · next hne => exact hne (h.linked.name_inj oldDir a oldName n he hentry)
    · next hne => exact hne (h.entry_unique he hentry).1
  · have hhangs : (w.setChildren oldDir ((w.children oldDir).erase oldName)).Hangs = w.Hangs := by
      funext n d
      rw [World.Hangs, World.Hangs, hparent, s.live]
    rw [World.Above, hhangs]
    exact habove

/-- Two directories can be edited one after the other: the second is one still. -/
theorem relink_apply {oldDir : NodeId} (hold : w.isDirectory oldDir = true)
    (hd : w.isDirectory d = true) (oldName name : String) :
    relink n oldDir oldName d name w =
      { result := .ok (), world := w.relinked n oldDir oldName d name } := by
  have hedit : w.Edit (w.setChildren oldDir ((w.children oldDir).erase oldName)) := .unlisted hold
  have h' := hedit.wellFormed h
  have hd' : (w.setChildren oldDir ((w.children oldDir).erase oldName)).isDirectory d = true :=
    ((alike_setChildren h hold _).isDirectory d).trans hd
  have hchildren := childrenOf_apply (h.ram oldDir (live_of_isDirectory hold))
  have hchildren' := childrenOf_apply (h'.ram d (live_of_isDirectory hd'))
  rw [if_pos hold] at hchildren
  rw [if_pos hd'] at hchildren'
  have htaken : setChildren oldDir ((w.children oldDir).erase oldName) w =
      { result := .ok ()
        world := w.setChildren oldDir ((w.children oldDir).erase oldName) } := rfl
  rw [relink, Action.liftM_bind_ok (congrArg Finding.result hchildren), Action.bind_ok htaken,
    Action.liftM_bind_ok (congrArg Finding.result hchildren'), hchildren, hchildren']
  rfl

/-- A move takes place between two directories, and then nothing stands in its way. -/
theorem move_apply {oldDir : NodeId} (hold : w.isDirectory oldDir = true)
    (hd : w.isDirectory d = true) (oldName name : String) :
    move n oldDir oldName d name w =
      { result := .ok (), world := (w.relinked n oldDir oldName d name).settle } := by
  rw [move, Action.andFinally, relink_apply h hold hd]
  rfl

/-- A node that passed the check is not above the directory it is moved to. -/
theorem not_above_of_closesCycle (hd : w.isDirectory d = true)
    (hclear : (closesCycle n d w).result = .ok false) : ¬w.Above n d := by
  intro habove
  by_cases hdir : w.isDirectory n = true
  · rw [closesCycle, Query.look_bind, if_pos hdir] at hclear
    obtain ⟨above, hresult, hiff⟩ := isAbove_result h.ram h.linked.acc n (live_of_isDirectory hd)
    rw [hresult] at hclear
    cases hclear
    exact absurd (hiff.2 habove) (by simp)
  · -- Only a directory is above anything but itself.
    rcases ReflTransGen.cases_tail habove with rfl | ⟨m, -, hangs⟩
    · exact hdir hd
    · exact hdir (h.linked.isDirectory m n hangs)

/-- What is replaced lists nothing. -/
theorem not_entry_of_checkReplace {moved target : NodeId} (htarget : w.Live target)
    (hchecked : (checkReplace moved target w).result = .ok ()) (a : String) (x : NodeId) :
    ¬w.Entry target a x := by
  rw [checkReplace, Query.world_bind] at hchecked
  obtain ⟨_, -, hchecked⟩ := Query.result_bind_eq_ok.1 hchecked
  split at hchecked
  · obtain ⟨_, -, hchecked⟩ := Query.result_bind_eq_ok.1 hchecked
    obtain ⟨empty, hempty, hchecked⟩ := Query.result_bind_eq_ok.1 hchecked
    rw [Query.result_demand_eq_ok] at hchecked
    subst hchecked
    exact not_entry_of_isEmpty h htarget hempty a x
  · rw [Query.result_demand_eq_ok] at hchecked
    exact not_entry_of_not_isDirectory h (by simpa using hchecked) a x

end RamFs

/-- An entry has been moved to a directory of the same volume, which is not below what it leads to.
If it took the place of another one, that was of a node that lists nothing. Nothing has changed if
both were of the same node. -/
inductive World.Renamed (w : World) (oldDir : NodeId) (oldName : String) (d : NodeId)
    (name : String) : World → Prop where
  | same {n} : w.Entry oldDir oldName n → w.Entry d name n → Renamed w oldDir oldName d name w
  | moved {n} : w.Entry oldDir oldName n → w.isDirectory d = true →
      (w.node n).volume = (w.node d).volume → ¬w.Above n d → IsEntryName name →
      (∀ t, w.Entry d name t → ∀ a x, ¬w.Entry t a x) →
      Renamed w oldDir oldName d name (w.relinked n oldDir oldName d name).settle

theorem World.Renamed.source {w w' : World} {oldDir d : NodeId} {oldName name : String}
    (hrenamed : w.Renamed oldDir oldName d name w') : ∃ n, w.Entry oldDir oldName n := by
  cases hrenamed with
  | same hentry _ => exact ⟨_, hentry⟩
  | moved hentry => exact ⟨_, hentry⟩

theorem World.Renamed.edits {w w' : World} (h : w.WellFormed) {oldDir d : NodeId}
    {oldName name : String} (hrenamed : w.Renamed oldDir oldName d name w') : w.Edits w' := by
  cases hrenamed with
  | same => exact .refl
  | moved hentry hdir hvolume habove hname _ =>
    exact (RamFs.edits_relinked h hentry hdir hvolume habove hname).trans (edits_settle _)

theorem RamFs.rename_renames {w : World} (h : w.WellFormed) (v : VolumeKey) {oldDir d : NodeId}
    {oldName name : String} (hold : w.Live oldDir) (hd : w.Live d)
    (hvolume : (w.node oldDir).volume = (w.node d).volume) (hold_name : IsEntryName oldName)
    (hname : IsEntryName name) (mustBeDirectory : Bool) :
    (rename v oldDir oldName d name mustBeDirectory).FailsTo w w fun _ w' =>
      w.Renamed oldDir oldName d name w' := by
  refine fails_query_bind fun _ _ => fails_query_bind fun n hn => fails_world_bind <|
    fails_demand_bind fun _ => fails_demand_bind fun _ => fails_query_bind fun closes hcloses =>
    fails_demand_bind fun hclear => fails_query_bind fun found hfound => ?_
  obtain ⟨-, hentry⟩ :=
    (lookup_result_eq_ok (h.ram oldDir hold) hold_name.ne_dot hold_name.ne_dots).1 hn
  obtain rfl : closes = false := by simpa using hclear
  have hmove : w.isDirectory d = true → (∀ t, w.Entry d name t → ∀ a x, ¬w.Entry t a x) →
      (move n oldDir oldName d name).FailsTo w w fun _ w' => w.Renamed oldDir oldName d name w' :=
    fun hdir hbare => by
      rw [Action.FailsTo, move_apply h (h.isDirectory_of_entry hentry) hdir]
      exact ⟨fun _ he => (by cases he), fun _ _ =>
        .moved hentry hdir ((h.volume_of_entry hentry).trans hvolume)
          (not_above_of_closesCycle h hdir hcloses) hname hbare⟩
  have hlookup := fun t => lookup_result_eq_ok (n := t) (h.ram d hd) hname.ne_dot hname.ne_dots
  rw [Query.result_attempt, Except.ok.injEq] at hfound
  split
  · next target =>
    obtain ⟨hdir, htarget⟩ := (hlookup target).1 hfound
    split
    · next heq => exact fails_pure (.same hentry (heq ▸ htarget))
    · refine fails_query_bind fun _ hchecked => hmove hdir fun t ht => ?_
      obtain rfl : t = target := Option.some.inj (ht.symm.trans htarget)
      exact not_entry_of_checkReplace h (h.linked.live _ _ _ ht) hchecked
  · have hdir := isDirectory_of_lookup_notFound h hd hname hfound
    refine hmove hdir fun t ht => ?_
    rw [(hlookup t).2 ⟨hdir, ht⟩] at hfound
    cases hfound
  · exact fails_throw

/-! ## Touching nodes -/

/-- The data or the attributes of a node change. -/
inductive World.Touch : World → World → Prop where
  | mk {w n f} : w.Live n → (w.node n).Touched (f (w.node n)) → Touch w (w.setNode n f)

theorem World.edits_of_touches {w w' : World} (hsteps : ReflTransGen Touch w w') : w.Edits w' :=
  ReflTransGen.mono (fun _ _ ⟨hn, ht⟩ => .touched hn ht) _ _ hsteps

theorem World.wellFormed_of_touches {w w' : World} (h : w.WellFormed)
    (hsteps : ReflTransGen Touch w w') : w'.WellFormed :=
  World.Edits.wellFormed (edits_of_touches hsteps) h

namespace RamFs

variable {w : World} (h : w.WellFormed) {n : NodeId}

include h

/-- A change to what a node holds, of the same kind and with the same children. -/
theorem modifyNode_touches (hn : w.Live n) {f : RamNode → RamNode}
    (hparent : (f (w.node n).ram).parent = (w.node n).ram.parent)
    (htype : (f (w.node n).ram).content.type = (w.content n).type)
    (hchildren : (f (w.node n).ram).content.children = (w.content n).children)
    (hdevice : w.content n = .device → (f (w.node n).ram).content = .device) :
    (modifyNode n f).Leads World.Touch w fun _ w' => w'.Live n := by
  have hram := h.ram n hn
  refine leads_change (.single (.mk hn ?_)) (World.live_setNode.2 hn)
  show (w.node n).Touched ((w.node n).mapRam f)
  rw [hram.mapRam]
  refine ⟨rfl, rfl, rfl, rfl, rfl, rfl, ?_, hparent,
    ⟨rfl, hram.driver, hram.type.trans htype.symm, hram.ops.imp_right hdevice⟩⟩
  rw [Payload.children_ram, hchildren, hram.children]
  rfl

theorem setBytes_touches (hn : w.Live n) {old : ByteArray} (hold : w.content n = .file old)
    (bytes : ByteArray) : (setBytes n bytes).Leads World.Touch w fun _ w' => w'.Live n := by
  refine modifyNode_touches h hn rfl ?_ ?_ fun hdevice => ?_
  · rw [hold]
    rfl
  · rw [hold]
    rfl
  · rw [hold] at hdevice
    cases hdevice

theorem of_nodeOf {ram : RamNode} (hn : w.Live n) (hram : (nodeOf n w).result = .ok ram) :
    ram.content = w.content n := by
  rw [nodeOf_apply (h.ram n hn)] at hram
  cases hram
  rfl

theorem truncate_touches (hn : w.Live n) :
    (truncate n).Leads World.Touch w fun _ w' => w'.Live n := by
  refine leads_query_bind fun ram hram => ?_
  have hcontent := of_nodeOf h hn hram
  split
  · next old heq => exact setBytes_touches h hn (hcontent.symm.trans heq) _
  · exact leads_pure hn

theorem openFile_touches (hn : w.Live n) (flags : OpenFlags) :
    (openFile n flags).Leads World.Touch w fun file w' => file.node = n ∧ w'.Live n :=
  leads_bind (leads_when (fun _ => truncate_touches h hn) fun _ => hn) fun _ _ _ hn =>
    leads_pure ⟨rfl, hn⟩

theorem write_touches (hn : w.Live n) (position : Nat) (data : ByteArray) :
    (write n position data).LeadsOnly World.Touch w := by
  refine leads_query_bind fun ram hram => ?_
  have hcontent := of_nodeOf h hn hram
  split
  · next old heq =>
    split
    · exact leads_pure trivial
    · have hset := setBytes_touches h hn (hcontent.symm.trans heq)
      exact leads_demand_bind fun _ => leads_bind (hset _) fun _ _ _ _ => leads_pure trivial
  · exact leads_query_bind fun _ _ => leads_demand_bind fun _ => leads_throw

theorem setSize_touches (hn : w.Live n) (size : Nat) :
    (setSize n size).Leads World.Touch w fun _ w' => w'.Live n := by
  refine leads_demand_bind fun _ => leads_query_bind fun ram hram => ?_
  have hcontent := of_nodeOf h hn hram
  split
  · next old heq => exact setBytes_touches h hn (hcontent.symm.trans heq) _
  · exact leads_throw
  · exact leads_throw
  · exact leads_throw

theorem setPermissions_touches (hn : w.Live n) (perms : UInt32) :
    (Action.change (·.setPermissions n perms) : Act Unit).Leads World.Touch w
      fun _ w' => w'.Live n := by
  have hram := h.ram n hn
  refine leads_change (.single (.mk hn ?_)) (World.live_setNode.2 hn)
  have htype := Mode.typeBits_make (w.node n).mode perms
  exact ⟨rfl, rfl, rfl, rfl, htype, rfl, rfl, rfl,
    ⟨hram.payload, hram.driver, htype.trans hram.type, hram.ops⟩⟩

theorem writeStatus_touches (hn : w.Live n) (status : Status) (mask : StatusMask) :
    (writeStatus n status mask).LeadsOnly World.Touch w := by
  refine leads_query_bind fun _ _ => ?_
  have hsize : (Action.when mask.size (setSize n status.size)).Leads World.Touch w
      fun _ w' => w'.Live n :=
    leads_when (fun _ => setSize_touches h hn _) fun _ => hn
  refine leads_bind hsize fun _ w₁ hsteps₁ hn₁ => ?_
  have h₁ := World.wellFormed_of_touches h hsteps₁
  have hmode : (Action.when mask.mode (Action.change (·.setPermissions n status.mode)) :
      Act Unit).Leads World.Touch w₁ fun _ w' => w'.Live n :=
    leads_when (fun _ => setPermissions_touches h₁ hn₁ _) fun _ => hn₁
  refine leads_bind hmode fun _ w₂ hsteps₂ hn₂ => ?_
  exact (modifyNode_touches (World.wellFormed_of_touches h₁ hsteps₂) hn₂ rfl rfl rfl id).only

end RamFs

/-! ## What is asked of the memory filesystem -/

/-- What a request leaves, which may put an entry into a directory. -/
inductive World.Served (w : World) : Option NodeId → World → Prop where
  | inserted {d name n w'} : IsEntryName name → w.Inserted d name n w' → Served w (some d) w'
  | removed {d name w'} : w.Removed d name w' → Served w none w'
  | renamed {oldDir oldName d name w'} :
      w.Renamed oldDir oldName d name w' → Served w (some d) w'
  | touched {target w'} : ReflTransGen Touch w w' → Served w target w'

theorem World.Served.edits {w w' : World} (h : w.WellFormed) {target : Option NodeId}
    (hserved : w.Served target w') : w.Edits w' := by
  cases hserved with
  | inserted hname hinserted => exact hinserted.edits h hname
  | removed hremoved => exact hremoved.edits h
  | renamed hrenamed => exact hrenamed.edits h
  | touched hsteps => exact edits_of_touches hsteps

end VirtualFs
