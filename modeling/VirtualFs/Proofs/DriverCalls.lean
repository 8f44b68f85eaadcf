/-
What reaches a driver. The library calls a driver with the volume that a
directory belongs to, and never asks it to write where that may not be written,
nor under a name that no entry may have; it looks names up in directories
alone, and never ".." in the root of a volume (`DriverCall.Proper`). Each call
of a driver is on the trace, so that this is said of the trace a computation
leaves (`Query.Seeks`, `Action.Asks`).

Looking names up, the one thing that could go wrong is the directory a volume
is mounted on: ".." of the volume's root goes on from there, so it must be no
root itself (`World.Apart`).
-/
import VirtualFs.Proofs.Silence
import VirtualFs.Proofs.WellFormed

namespace VirtualFs

open Query (look)

/-! ## Calls as they should be -/

/-- A name under which an entry may be made, moved or taken away. -/
structure IsPlainName (name : String) : Prop where
  ne_empty : name ≠ ""
  ne_dot : name ≠ "."
  ne_dots : name ≠ ".."
  whole : '/' ∉ name.toList
  size : name.utf8ByteSize ≤ 255

theorem IsEntryName.plain {name : String} (h : IsEntryName name) : IsPlainName name where
  ne_empty := h.ne_empty
  ne_dot := h.ne_dot
  ne_dots := h.ne_dots
  whole := h.whole
  size := by
    have hchecked := h.checked
    rw [checkName, if_neg h.not_dot] at hchecked
    by_contra hlong
    rw [if_pos (show nameMax < name.utf8ByteSize from Nat.lt_of_not_le hlong)] at hchecked
    cases hchecked

/-- The volume that a node belongs to, which may be written to. -/
structure World.Grants (w : World) (volume : VolumeKey) (n : NodeId) : Prop where
  belongs : w.volumeOf n = some volume
  writable : (w.volume volume).flags.isReadOnly = false

/-- A call to a driver as it should be, in the world it is made in. -/
def DriverCall.Proper (w : World) : DriverCall → Prop
  | mount _ | sync _ => True
  | locate volume parent name =>
    w.isDirectory parent = true ∧ w.volumeOf parent = some volume ∧ name ≠ "" ∧ name ≠ "." ∧
      (name = ".." → w.sameIdentity parent (w.volume volume).root = false)
  | createFile volume parent name | createDirectory volume parent name
  | createSymlink volume parent name | unlink volume parent name
  | removeDirectory volume parent name => w.Grants volume parent ∧ IsPlainName name
  | rename volume oldParent oldName newParent newName =>
    w.Grants volume oldParent ∧ (w.node oldParent).volumeId = (w.volume volume).id ∧
      (w.node newParent).volumeId = (w.volume volume).id ∧ IsPlainName oldName ∧ IsPlainName newName

/-- If a driver is called, it is as it should be. -/
def Event.Proper (w : World) : Event → Prop
  | .asked _ call => call.Proper w
  | _ => True

/-- If a driver is called, it is to look a name up, as it should be. -/
def Event.Seeks (w : World) : Event → Prop
  | .asked _ (.locate volume parent name) => (DriverCall.locate volume parent name).Proper w
  | .asked .. => False
  | _ => True

theorem Event.Seeks.proper {w : World} {event : Event} (h : event.Seeks w) : event.Proper w := by
  cases event with
  | asked kind call =>
    cases call with
    | locate => exact h
    | _ => exact h.elim
  | _ => trivial

theorem Event.seeks_of_not_asked {w : World} {event : Event} (h : event.isAsked = false) :
    event.Seeks w := by
  cases event with
  | asked => cases h
  | _ => trivial

theorem Event.proper_of_not_asked {w : World} {event : Event} (h : event.isAsked = false) :
    event.Proper w :=
  (Event.seeks_of_not_asked h).proper

/-- What calls no driver calls each as it should be. -/
theorem Action.Emits.of_silent {α : Type} {x : Act α} {w : World} (h : x.Silent) :
    x.Emits (Event.Proper w) :=
  fun v event hevent => Event.proper_of_not_asked (h v event hevent)

/-- Drivers are called to look names up alone, in the world that is looked at. -/
def Query.Seeks {α : Type} (x : Query α) (w : World) : Prop := ∀ event ∈ (x w).trace, event.Seeks w

/-- Drivers are called as they should be in the world that the action starts in. -/
def Action.Asks {α : Type} (x : Act α) (w : World) : Prop := ∀ event ∈ (x w).trace, event.Proper w

namespace Query.Seeks

variable {α β : Type} {w : World}

theorem of_silent {x : Query α} (h : x.Silent) : x.Seeks w :=
  fun event hevent => Event.seeks_of_not_asked (h w event hevent)

theorem note {event : Event} (h : event.Seeks w) : (note event).Seeks w := by
  intro other hother
  obtain rfl : other = event := by simpa using hother
  exact h

theorem bind {x : Query α} {f : α → Query β} (hx : x.Seeks w)
    (hf : ∀ a, (x w).result = .ok a → (f a).Seeks w) : (x >>= f).Seeks w := by
  intro event hevent
  cases hresult : (x w).result with
  | error e =>
    rw [trace_bind_error hresult] at hevent
    exact hx event hevent
  | ok a =>
    rw [trace_bind_ok hresult] at hevent
    rcases List.mem_append.1 hevent with hevent | hevent
    · exact hx event hevent
    · exact hf a hresult event hevent

/-- After what calls no driver. -/
theorem after {x : Query α} {f : α → Query β} (hx : x.Silent)
    (hf : ∀ a, (x w).result = .ok a → (f a).Seeks w) : (x >>= f).Seeks w :=
  bind (of_silent hx) hf

theorem ite {p : Prop} [Decidable p] {x y : Query α} (hx : x.Seeks w) (hy : y.Seeks w) :
    (if p then x else y).Seeks w := by
  split
  · exact hx
  · exact hy

theorem attempt {x : Query α} (hx : x.Seeks w) : (attempt x).Seeks w := hx

theorem andFinally {x : Query α} {last : Query Unit} (hx : x.Seeks w) (hlast : last.Seeks w) :
    (x.andFinally last).Seeks w :=
  hx.attempt.bind fun _ _ => hlast.bind fun _ _ => of_silent (.ofResult _)

end Query.Seeks

namespace Action.Asks

variable {α β : Type} {w : World}

theorem of_silent {x : Act α} (h : x.Silent) : x.Asks w :=
  fun event hevent => Event.proper_of_not_asked (h w event hevent)

theorem query {q : Query α} (h : q.Seeks w) : (liftM q : Act α).Asks w :=
  fun event hevent => (h event hevent).proper

theorem query_bind {q : Query α} {f : α → Act β} (hq : q.Seeks w)
    (hf : ∀ a, (q w).result = .ok a → (f a).Asks w) : ((liftM q : Act α) >>= f).Asks w := by
  intro event hevent
  cases hresult : (q w).result with
  | error e =>
    rw [liftM_bind_error hresult] at hevent
    exact (hq event hevent).proper
  | ok a =>
    rw [liftM_bind_ok hresult] at hevent
    rcases List.mem_append.1 hevent with hevent | hevent
    · exact (hq event hevent).proper
    · exact hf a hresult event hevent

/-- After a query that calls no driver. -/
theorem query_after {q : Query α} {f : α → Act β} (hq : q.Silent)
    (hf : ∀ a, (q w).result = .ok a → (f a).Asks w) : ((liftM q : Act α) >>= f).Asks w :=
  query_bind (.of_silent hq) hf

theorem world_bind {f : World → Act β} (hf : (f w).Asks w) :
    (Action.world >>= f : Act β).Asks w := hf

/-- What comes after the world has changed calls no driver. -/
theorem bind_silent {x : Act α} {f : α → Act β} (hx : x.Asks w) (hf : ∀ a, (f a).Silent) :
    (x >>= f).Asks w := by
  intro event hevent
  rw [Asks] at hx
  rcases hrun : x w with ⟨e | a, w', t⟩ <;> rw [hrun] at hx
  · rw [bind_error hrun] at hevent
    exact hx event hevent
  · rw [bind_ok hrun] at hevent
    rcases List.mem_append.1 hevent with hevent | hevent
    · exact hx event hevent
    · exact Event.proper_of_not_asked (hf a w' event hevent)

theorem only {x : Act α} (hx : x.Asks w) : x.only.Asks w := hx.bind_silent fun _ => .pure _

/-- A driver is called, and does what it does. -/
theorem call {kind : DriverKind} {call : DriverCall} (hcall : call.Proper w) {x : Act α}
    (hx : x.Silent) : (do Action.note (.asked kind call); x : Act α).Asks w := by
  intro event hevent
  rcases List.mem_cons.1 hevent with rfl | hevent
  · exact hcall
  · exact Event.proper_of_not_asked (hx w event hevent)

theorem orUndo {x : Act α} {undo : Act Unit} (hx : x.Asks w) (hundo : undo.Silent) :
    (x.orUndo undo).Asks w := by
  intro event hevent
  rw [Asks] at hx
  rw [Action.orUndo] at hevent
  rcases hrun : x w with ⟨e | a, w', t⟩ <;> rw [hrun] at hevent hx
  · rcases List.mem_append.1 hevent with hevent | hevent
    · exact hx event hevent
    · exact Event.proper_of_not_asked (hundo w' event hevent)
  · exact hx event hevent

end Action.Asks

/-! ## Looking names up -/

/-- A directory that carries a volume is no root. -/
def World.Apart (w : World) : Prop := ∀ n r, (w.node n).mountRoot = some r →
  w.sameIdentity n (w.volume (w.node n).volume).root = false

theorem lookupDirectory_silent (parent : NodeId) (name : String) :
    (lookupDirectory parent name).Silent := by
  refine .ite (.bind (volumeOf_silent parent) fun v => .bind .world fun w => ?_) (.pure _)
  exact .ite (.ite (.pure _) (.map (.expect _ _))) (.pure _)

/-- ".." is looked up in no root. -/
theorem lookupDirectory_apart {w : World} (hw : w.Apart) {parent dir : NodeId}
    (h : (lookupDirectory parent ".." w).result = .ok (some dir)) :
    w.sameIdentity dir (w.volume (w.node dir).volume).root = false := by
  rw [lookupDirectory, if_pos rfl] at h
  obtain ⟨v, hv, h⟩ := Query.result_bind_eq_ok.1 h
  obtain ⟨-, rfl⟩ := World.volumeOf_eq_some.1 (World.volumeOf_eq_ok.1 hv)
  rw [Query.world_bind] at h
  split at h
  · split at h
    · cases h
    · rw [← bind_pure_comp] at h
      obtain ⟨point, hpoint, h⟩ := Query.result_bind_eq_ok.1 h
      obtain rfl : point = dir := Option.some.inj (Except.ok.inj h)
      have hmounted := (Option.filter_eq_some_iff.1 (Query.result_expect_eq_ok.1 hpoint)).2
      rw [Bool.and_eq_true, beq_iff_eq] at hmounted
      exact hw _ _ hmounted.2
  · next hroot =>
    obtain rfl : parent = dir := Option.some.inj (Except.ok.inj h)
    exact Bool.not_eq_true _ ▸ hroot

section

variable [b : Backends] {w : World} (hb : b.Silent) (hw : w.Apart)

include hb hw

theorem resolveName_seeks {follow : Follow} (hfollow : ∀ dir n, (follow dir n).Seeks w)
    (parent : NodeId) (name : String) (flags : LookupMode) :
    (resolveName follow parent name flags).Seeks w := by
  rw [resolveName]
  split
  · exact .of_silent (.pure _)
  next hempty =>
  split
  · exact .of_silent (.bind (.look _) fun _ => .bind (.demand _ _) fun _ => .pure _)
  next hdot =>
  refine .after (lookupDirectory_silent parent name) fun found hfound => ?_
  cases found with
  | none => exact .of_silent (.pure _)
  | some dir =>
    refine .after (.look _) fun isDirectory hlook => .after (.demand _ _) fun _ hdemand =>
      .after (volumeOf_silent dir) fun v hv => .after (.look _) fun d _ => ?_
    obtain rfl : w.isDirectory dir = isDirectory := Except.ok.inj hlook
    have hbelongs := World.volumeOf_eq_ok.1 hv
    have hcall : (DriverCall.locate v dir name).Proper w := by
      refine ⟨Query.result_demand_eq_ok.1 hdemand, hbelongs, hempty, hdot, fun hdots => ?_⟩
      subst hdots
      rw [(World.volumeOf_eq_some.1 hbelongs).2]
      exact lookupDirectory_apart hw hfound
    have hlocate : (d.locate v dir name).Seeks w :=
      .bind (.note hcall) fun _ _ => .of_silent ((hb.driver d).locate v dir name)
    refine .bind hlocate fun n _ => .after .world fun _ _ => .after (.note rfl) fun _ _ => ?_
    exact .ite (hfollow _ _) (.of_silent (.pure _))

theorem walk_seeks {follow : Follow} (hfollow : ∀ dir n, (follow dir n).Seeks w) (start : NodeId)
    (names : List String) : (walk follow start names).Seeks w := by
  induction names generalizing start with
  | nil => exact .of_silent (.pure _)
  | cons name names ih =>
    rw [walk, List.foldlM_cons]
    exact .bind (resolveName_seeks hb hw hfollow start name _) fun next _ => ih next

theorem parentOfPath_seeks {follow : Follow} (hfollow : ∀ dir n, (follow dir n).Seeks w)
    (start : NodeId) (path : String) : (parentOfPath follow start path).Seeks w :=
  .after (.look _) fun _ _ => .bind (walk_seeks hb hw hfollow _ _) fun _ _ => .of_silent (.pure _)

theorem followChain_seeks {follow : Follow} (hfollow : ∀ dir n, (follow dir n).Seeks w)
    (depth : UInt32) (hops : Nat) (dir n : NodeId) :
    (followChain follow depth hops dir n).Seeks w := by
  induction hops generalizing dir n with
  | zero =>
    refine .of_silent (.bind (.look _) fun _ => .ite (.bind (.look _) fun _ => ?_) (.pure _))
    exact .bind (.note rfl) fun _ => .throw _
  | succ hops ih =>
    refine .after (.look _) fun _ _ => .ite (.after (linkTarget_silent hb n depth) fun target _ =>
      .bind (parentOfPath_seeks hb hw hfollow dir target) fun found _ => ?_) (.of_silent (.pure _))
    exact .bind (.ite (.of_silent (.pure _)) (resolveName_seeks hb hw hfollow _ _ _)) fun next _ =>
      ih _ next

theorem followLinks_seeks (left : Nat) (depth : UInt32) (dir n : NodeId) :
    (followLinks left depth dir n).Seeks w := by
  induction left generalizing depth dir n with
  | zero =>
    refine .of_silent (.bind (.look _) fun _ => .ite (.bind (.look _) fun _ => ?_) (.pure _))
    exact .bind (.note rfl) fun _ => .throw _
  | succ left ih =>
    refine .after (.look _) fun _ _ => .ite (.after (.look _) fun hops _ => ?_)
      (.of_silent (.pure _))
    exact followChain_seeks hb hw (ih (depth + 1)) (depth + 1) hops dir n

theorem followFor_seeks (t : TaskId) (dir n : NodeId) : (followFor t dir n).Seeks w :=
  .after .world fun _ _ => followLinks_seeks hb hw _ _ dir n

theorem resolveParent_seeks (t : TaskId) (start : Option NodeId) (path : String) :
    (resolveParent t start path).Seeks w :=
  .after (.look _) fun _ _ => parentOfPath_seeks hb hw (followFor_seeks hb hw t) _ path

theorem resolveIn_seeks (t : TaskId) (parent : NodeId) (name : String) (flags : LookupMode) :
    (resolveIn t parent name flags).Seeks w :=
  resolveName_seeks hb hw (followFor_seeks hb hw t) parent name flags

theorem resolve_seeks (t : TaskId) (start : Option NodeId) (path : String) (flags : LookupMode) :
    (resolve t start path flags).Seeks w :=
  .bind (resolveParent_seeks hb hw t start path) fun found _ =>
    resolveIn_seeks hb hw t found.1 found.2 flags

theorem resolveTarget_seeks (t : TaskId) (base : Option Handle) (path : String) :
    (resolveTarget t base path).Seeks w :=
  .after (startNode_silent t base) fun start _ => resolveParent_seeks hb hw t start path

theorem placeOf_seeks (t : TaskId) (base : Option Handle) (path : String) :
    (placeOf t base path).Seeks w :=
  .bind (resolveTarget_seeks hb hw t base path) fun found _ => .of_silent
    (.bind (.ofResult _) fun _ => .bind (volumeForWriting_silent found.1) fun _ =>
      .bind (.look _) fun _ => .pure _)

theorem resolveMountPoint_seeks (t : TaskId) (path : String) :
    (resolveMountPoint t path).Seeks w :=
  .bind (resolve_seeks hb hw t none path .full) fun p _ => .of_silent
    (.bind (.look _) fun _ => .bind (.demand _ _) fun _ => .bind (.look _) fun _ =>
      .bind (.demand _ _) fun _ => .bind (volumeOf_silent p) fun _ => .bind (.look _) fun _ =>
        .bind (.demand _ _) fun _ => .pure _)

/-! ## Going up -/

theorem leadsTo_seeks (t : TaskId) (parent child : NodeId) (entry : DirEntry) :
    (leadsTo t parent child entry).Seeks w :=
  .after .world fun _ _ => .ite (.of_silent (.pure _))
    (.bind (resolveIn_seeks hb hw t parent entry.name .plain) fun _ _ => .of_silent (.look _))

omit hw in
theorem findEntry_seeks (o : OpsKind) (volume : VolumeKey) (dir : NodeId)
    {passes : DirEntry → Query Bool} (hpasses : ∀ entry, (passes entry).Seeks w)
    (count index : Nat) : (findEntry o volume dir passes count index).Seeks w := by
  induction count generalizing index with
  | zero => exact .of_silent (.pure _)
  | succ count ih =>
    refine .after ((hb.ops o).entry volume dir index) fun found _ => ?_
    cases found with
    | none => exact .of_silent (.pure _)
    | some entry =>
      exact .ite (ih _) (.bind (hpasses entry) fun _ _ => .ite (.of_silent (.pure _)) (ih _))

theorem searchEntry_seeks (t : TaskId) (o : OpsKind) (volume : VolumeKey) (parent child : NodeId) :
    (searchEntry t o volume parent child).Seeks w := by
  refine .after (.look _) fun bound _ => .bind (findEntry_seeks hb o volume parent
    (leadsTo_seeks hb hw t parent child) bound 0) fun found _ => .of_silent ?_
  cases found with
  | some name => exact .pure _
  | none => exact .bind .world fun _ => .bind (.note rfl) fun _ => .throw _

theorem entryName_seeks (t : TaskId) (parent child : NodeId) :
    (entryName t parent child).Seeks w := by
  have hlisting : (openListing parent).Silent :=
    .bind (opsOf_silent parent) fun o => .bind (volumeOf_silent parent) fun v =>
      .bind (.look _) fun _ => .bind (.demand _ _) fun _ => OpsKind.openDirectory_silent hb o v _ _
  exact .after (opsOf_silent parent) fun o _ => .after (volumeOf_silent parent) fun v _ =>
    .after hlisting fun listing _ => .andFinally (searchEntry_seeks hb hw t o v parent child)
      (.of_silent (closeFile_silent hb none listing))

theorem climb_seeks (t : TaskId) (room : Nat) (dir : NodeId) (below : String) :
    (climb t room dir below).Seeks w := by
  induction room using Nat.strong_induction_on generalizing dir below with
  | _ room ih =>
    rw [climb]
    refine .bind (resolveIn_seeks hb hw t dir ".." .crossOnly) fun parent _ =>
      .bind (entryName_seeks hb hw t parent dir) fun name _ => ?_
    split
    · refine .after (.look _) fun atRoot _ => ?_
      split
      · exact .of_silent (.pure _)
      · exact ih _ (by omega) parent _
    · exact .of_silent (.throw _)

theorem absolutePath_seeks (t : TaskId) (dir : NodeId) (capacity : Nat) :
    (absolutePath t dir capacity).Seeks w := by
  refine .after .world fun w' _ => ?_
  dsimp only
  split
  · exact .of_silent (.bind (.demand _ _) fun _ => .pure _)
  · exact climb_seeks hb hw t _ dir ""

end

end VirtualFs
