/-
What lookups fail for. In a world of memory volumes there are four causes: a
name is missing, something on the way is no directory, links go on for too long,
or the text of one is too long to be read. Nothing else stops a walk, through
whatever links and mounts it leads.
-/
import VirtualFs.Proofs.Transparency

namespace VirtualFs

/-- The causes that lookups fail for. -/
def Error.EndsLookup (e : Error) : Prop :=
  e = .notFound ∨ e = .notADirectory ∨ e = .loop ∨ e = .nameTooLong

instance : DecidablePred Error.EndsLookup := fun e =>
  inferInstanceAs (Decidable (e = .notFound ∨ e = .notADirectory ∨ e = .loop ∨ e = .nameTooLong))

namespace Query

variable {α β : Type} {w : World} {P : Error → Prop}

/-- What the query fails for, if it fails, satisfies `P`. -/
def Blames (x : Query α) (w : World) (P : Error → Prop) : Prop := ∀ e, (x w).result = .error e → P e

namespace Blames

theorem ok {x : Query α} {a : α} (h : (x w).result = .ok a) : x.Blames w P := by
  intro e he
  rw [h] at he
  cases he

theorem pure (a : α) : (pure a : Query α).Blames w P := ok rfl

theorem throw {e : Error} (h : P e) : (throw e : Query α).Blames w P := by
  intro e' he'
  cases he'
  exact h

theorem mono {Q : Error → Prop} {x : Query α} (h : x.Blames w P) (hPQ : ∀ e, P e → Q e) :
    x.Blames w Q := fun e he => hPQ e (h e he)

theorem demand {p : Prop} [Decidable p] {e : Error} (h : P e) : (demand p e).Blames w P := by
  rw [Query.demand]
  split
  · exact pure ()
  · exact throw h

theorem expect {value : Option α} {e : Error} (h : P e) : (expect value e).Blames w P := by
  cases value with
  | none => exact throw h
  | some a => exact pure a

theorem bind {x : Query α} {f : α → Query β} (hx : x.Blames w P)
    (hf : ∀ a, (x w).result = .ok a → (f a).Blames w P) : (x >>= f).Blames w P := by
  intro e he
  rw [result_bind] at he
  cases hresult : (x w).result with
  | error e' =>
    rw [hresult] at he
    cases he
    exact hx e hresult
  | ok a =>
    rw [hresult] at he
    exact hf a hresult e he

theorem look_bind {g : World → α} {f : α → Query β} (hf : (f (g w)).Blames w P) :
    (look g >>= f).Blames w P := by
  intro e he
  rw [Query.look_bind] at he
  exact hf e he

theorem world_bind {f : World → Query β} (hf : (f w).Blames w P) : (world >>= f).Blames w P := by
  intro e he
  rw [Query.world_bind] at he
  exact hf e he

end Blames

end Query

/-! ## Links -/

theorem Content.type_eq_symlink {content : Content} :
    content.type = Mode.symlink ↔ ∃ target, content = .symlink target := by
  cases content with
  | symlink target => exact ⟨fun _ => ⟨target, rfl⟩, fun _ => rfl⟩
  | directory children => simp only [type, reduceCtorEq, exists_false, iff_false]; decide
  | file bytes => simp only [type, reduceCtorEq, exists_false, iff_false]; decide
  | device => simp only [type, reduceCtorEq, exists_false, iff_false]; decide

namespace World

variable {w : World} {n : NodeId} {target : String}

theorem live_of_isSymlink (hlink : w.isSymlink n = true) : w.Live n := by
  by_contra hdead
  rw [isSymlink, node_of_not_live hdead] at hlink
  exact absurd hlink (by decide)

namespace WellFormed

variable (h : w.WellFormed)

include h

/-- A link has a text. -/
theorem content_of_isSymlink (hlink : w.isSymlink n = true) :
    ∃ target, (w.node n).ram.content = .symlink target := by
  have htype := (h.ram n (live_of_isSymlink hlink)).type
  exact Content.type_eq_symlink.1 (htype.symm.trans (beq_iff_eq.1 hlink))

/-- A link is read unless its text is too long. -/
theorem linkTarget_result (hn : w.Live n) (htarget : (w.node n).ram.content = .symlink target)
    (depth : UInt32) : (linkTarget n depth w).result =
      if target.utf8ByteSize ≤ w.limits.linkLength then .ok target else .error .nameTooLong := by
  have hram := h.ram n hn
  have hops : (opsOf n w).result = .ok .ram := World.opsOf_eq_ok.2
    (hram.ops.resolve_right fun hdevice => by rw [htarget] at hdevice; cases hdevice)
  have hread : (OpsKind.ram.readLink (w.node n).volume n depth w).result = .ok target := by
    refine Query.result_bind_eq_ok.2 ⟨(), rfl, Query.result_bind_eq_ok.2 ⟨(w.node n).ram, ?_, ?_⟩⟩
    · rw [RamFs.nodeOf_apply hram]
    · rw [htarget]
      rfl
  obtain ⟨status, hstatus, hsize⟩ : ∃ status,
      (OpsKind.ram.status (w.node n).volume n w).result = .ok status ∧
        status.size = target.utf8ByteSize := by
    refine ⟨_, Query.result_bind_eq_ok.2 ⟨_, by rw [RamFs.nodeOf_apply hram],
      Query.result_bind_eq_ok.2 ⟨w, rfl, rfl⟩⟩, ?_⟩
    rw [htarget]
    rfl
  rw [linkTarget, Query.result_bind, hops, Except.bind, Query.result_bind,
    h.volumeOf_result hn, Except.bind, Query.result_bind, hstatus, Except.bind,
    Query.look_bind, Query.result_bind, Query.result_demand, hsize]
  split
  · exact hread
  · rfl

end WellFormed

end World

/-! ## Walks -/

section

variable {w : World} (h : w.WellFormed)

theorem volumeOf_blames (n : NodeId) : (volumeOf n).Blames w Error.EndsLookup :=
  .look_bind (.expect (by decide))

theorem lookupDirectory_blames (parent : NodeId) (name : String) :
    (lookupDirectory parent name).Blames w Error.EndsLookup := by
  rw [lookupDirectory]
  split
  · refine (volumeOf_blames parent).bind fun v _ => .world_bind ?_
    split
    · split
      · exact .pure _
      · exact .bind (.expect (by decide)) fun _ _ => .pure _
    · exact .pure _
  · exact .pure _

include h

/-- A directory of the memory filesystem finds a name, or it does not. -/
theorem RamFs.lookup_blames {dir : NodeId} (hdir : w.isDirectory dir = true) (name : String) :
    (lookup dir name).Blames w Error.EndsLookup := by
  have hram := h.ram dir (World.live_of_isDirectory hdir)
  rw [lookup]
  split
  · exact .pure _
  split
  · exact .ok (by rw [RamFs.containerOf_apply hram])
  · exact .bind (.ok (by rw [RamFs.childrenOf_apply hram, if_pos hdir])) fun _ _ =>
      .expect (by decide)

theorem lookIn_blames (parent : NodeId) (name : String) (crossing : Bool) :
    (lookIn parent name crossing).Blames w Error.EndsLookup := by
  rw [lookIn]
  split
  · exact .pure _
  split
  · exact .look_bind (.bind (.demand (by decide)) fun _ _ => .pure _)
  refine (lookupDirectory_blames parent name).bind fun dir _ => ?_
  cases dir with
  | none => exact .pure _
  | some dir =>
    refine .look_bind (.bind (.demand (by decide)) fun _ hdemand => ?_)
    have hdir : w.isDirectory dir = true := Query.result_demand_eq_ok.1 hdemand
    refine (volumeOf_blames dir).bind fun v _ => .look_bind (.bind ?_ fun found _ =>
      .world_bind (.bind (.ok rfl) fun _ _ => .pure _))
    rw [(h.ram dir (World.live_of_isDirectory hdir)).driver]
    exact .bind (.ok rfl) fun _ _ => RamFs.lookup_blames h hdir name

theorem linkTarget_blames {n : NodeId} (hlink : w.isSymlink n = true) (depth : UInt32) :
    (linkTarget n depth).Blames w Error.EndsLookup := by
  obtain ⟨target, htarget⟩ := h.content_of_isSymlink hlink
  intro e he
  rw [h.linkTarget_result (World.live_of_isSymlink hlink) htarget] at he
  split at he
  · cases he
  · cases he
    decide

/-- A treatment of links that fails only as lookups do. -/
def Follow.Blames (follow : Follow) (w : World) : Prop :=
  ∀ dir n, (follow dir n).Blames w Error.EndsLookup

section

variable {follow : Follow} (hfollow : follow.Blames w)

include hfollow

theorem resolveName_blames (parent : NodeId) (name : String) (flags : LookupMode) :
    (resolveName follow parent name flags).Blames w Error.EndsLookup := by
  rw [resolveName_eq_lookIn]
  refine (lookIn_blames h parent name _).bind fun sight _ => ?_
  cases sight with
  | here n => exact .pure _
  | entry dir n =>
    dsimp only
    split
    · exact hfollow dir n
    · exact .pure _

theorem walk_blames (start : NodeId) (names : List String) :
    (walk follow start names).Blames w Error.EndsLookup := by
  induction names generalizing start with
  | nil => exact .pure _
  | cons name rest ih =>
    rw [walk, List.foldlM_cons]
    exact (resolveName_blames h hfollow start name .full).bind fun next _ => ih next

theorem parentOfPath_blames (start : NodeId) (path : String) :
    (parentOfPath follow start path).Blames w Error.EndsLookup :=
  .look_bind ((walk_blames h hfollow _ _).bind fun _ _ => .pure _)

theorem resolveTargetEnd_blames (dir : NodeId) (name : String) :
    (resolveTargetEnd follow dir name).Blames w Error.EndsLookup := by
  rw [resolveTargetEnd]
  split
  · exact .pure _
  · exact resolveName_blames h hfollow dir name .crossOnly

theorem followChain_blames (depth : UInt32) (hops : Nat) :
    (followChain follow depth hops).Blames w := by
  induction hops with
  | zero =>
    intro dir n
    refine .look_bind ?_
    split
    · exact .look_bind (.bind (.ok rfl) fun _ _ => .throw (by decide))
    · exact .pure _
  | succ hops ih =>
    intro dir n
    refine .look_bind ?_
    split
    · next hlink =>
      exact (linkTarget_blames h hlink depth).bind fun target _ =>
        (parentOfPath_blames h hfollow dir target).bind fun found _ =>
          (resolveTargetEnd_blames h hfollow found.1 found.2).bind fun next _ => ih found.1 next
    · exact .pure _

end

theorem followLinks_blames (left : Nat) (depth : UInt32) : (followLinks left depth).Blames w := by
  induction left generalizing depth with
  | zero =>
    intro dir n
    refine .look_bind ?_
    split
    · exact .look_bind (.bind (.ok rfl) fun _ _ => .throw (by decide))
    · exact .pure _
  | succ left ih =>
    intro dir n
    refine .look_bind ?_
    split
    · exact .look_bind (followChain_blames h (ih _) _ _ dir n)
    · exact .pure _

theorem followFor_blames (t : TaskId) : (followFor t).Blames w :=
  fun dir n => .world_bind (followLinks_blames h _ _ dir n)

theorem resolveIn_blames (t : TaskId) (parent : NodeId) (name : String) (flags : LookupMode) :
    (resolveIn t parent name flags).Blames w Error.EndsLookup :=
  resolveName_blames h (followFor_blames h t) parent name flags

theorem resolveParent_blames (t : TaskId) (start : Option NodeId) (path : String) :
    (resolveParent t start path).Blames w Error.EndsLookup :=
  .look_bind (parentOfPath_blames h (followFor_blames h t) _ path)

/-- **Lookups fail for four causes.** -/
theorem resolve_blames (t : TaskId) (start : Option NodeId) (path : String) (flags : LookupMode) :
    (resolve t start path flags).Blames w Error.EndsLookup :=
  (resolveParent_blames h t start path).bind fun found _ =>
    resolveIn_blames h t found.1 found.2 flags

/-- A path that starts at a handle may fail for the handle too. -/
theorem resolveTarget_blames (t : TaskId) (base : Option Handle) (path : String) :
    (resolveTarget t base path).Blames w fun e => e = .badHandle ∨ e.EndsLookup := by
  refine .bind ?_ fun start _ => (resolveParent_blames h t start path).mono fun _ => .inr
  cases base with
  | none => exact .pure _
  | some base =>
    have hbelongs : ∀ c, (belongs c base).Blames w fun e => e = .badHandle ∨ e.EndsLookup :=
      fun c => .look_bind (.demand (by decide))
    refine .bind ?_ fun file _ => .look_bind (.bind (.demand (by decide)) fun _ _ => .pure _)
    refine .bind (.look_bind ((hbelongs _).bind fun _ _ => .look_bind (.expect (by decide))))
      fun _ _ => .ok rfl

end

end VirtualFs
