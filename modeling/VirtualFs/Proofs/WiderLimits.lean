/-
Wider limits. The bounds on links are there to end a walk that would go on
for too long, and for nothing else: what a walk finds before a bound stops it,
it finds under every wider bound too, and so is every failure for another
cause.

Two walks are compared here, in one world under two sets of limits. They do
the same work with different counts of what is left, so the one with more left
never ends earlier (`Query.Outlasts`).
-/
import VirtualFs.Boot
import VirtualFs.Namespace
import VirtualFs.Proofs.Unwinding
import VirtualFs.Standard

namespace VirtualFs

open Query (demand expect look)

/-- Not the failure of a bound on links. -/
def Uncut {α : Type} (r : Except Error α) : Prop := r ≠ .error .loop ∧ r ≠ .error .nameTooLong

instance {α : Type} (r : Except Error α) : Decidable (Uncut r) :=
  match r with
  | .ok _ => isTrue ⟨nofun, nofun⟩
  | .error e =>
    if h : e ≠ .loop ∧ e ≠ .nameTooLong then
      isTrue ⟨fun he => h.1 (Except.error.inj he), fun he => h.2 (Except.error.inj he)⟩
    else isFalse fun huncut => h ⟨fun he => huncut.1 (by rw [he]), fun he => huncut.2 (by rw [he])⟩

theorem uncut_ok {α : Type} (a : α) : Uncut (.ok a : Except Error α) := ⟨nofun, nofun⟩

/-- The limits on links are no narrower. -/
structure Limits.Within (narrow wide : Limits) : Prop where
  depth : narrow.linkDepth ≤ wide.linkDepth
  chain : narrow.linkChain ≤ wide.linkChain
  length : narrow.linkLength ≤ wide.linkLength

theorem Limits.Within.refl (limits : Limits) : limits.Within limits :=
  ⟨UInt32.le_refl _, UInt32.le_refl _, Nat.le_refl _⟩

instance (narrow wide : Limits) : Decidable (narrow.Within wide) :=
  decidable_of_iff (narrow.linkDepth ≤ wide.linkDepth ∧ narrow.linkChain ≤ wide.linkChain ∧
      narrow.linkLength ≤ wide.linkLength)
    ⟨fun ⟨hdepth, hchain, hlength⟩ => ⟨hdepth, hchain, hlength⟩,
      fun h => ⟨h.depth, h.chain, h.length⟩⟩

theorem Uncut.of_error {α β : Type} {e : Error} (h : Uncut (.error e : Except Error α)) :
    Uncut (.error e : Except Error β) :=
  ⟨fun he => h.1 (by rw [Except.error.inj he]), fun he => h.2 (by rw [Except.error.inj he])⟩

namespace Query

variable {α β : Type} {w : World} {limits : Limits}

/-! ## Queries that no limit bears on -/

/-- Ends alike whatever the limits are. -/
def Unlimited (x : Query α) : Prop := ∀ w limits, (x { w with limits }).result = (x w).result

namespace Unlimited

theorem pure (a : α) : (pure a : Query α).Unlimited := fun _ _ => rfl

theorem throw (e : Error) : (throw e : Query α).Unlimited := fun _ _ => rfl

theorem note (event : Event) : (note event).Unlimited := fun _ _ => rfl

theorem look {f : World → α} (h : ∀ w limits, f { w with limits } = f w) : (look f).Unlimited :=
  fun w limits => congrArg Except.ok (h w limits)

theorem demand (p : Prop) [Decidable p] (e : Error) : (demand p e).Unlimited := by
  rw [Query.demand]
  split
  · exact pure ()
  · exact throw e

theorem expect (value : Option α) (e : Error) : (expect value e).Unlimited := by
  cases value with
  | none => exact throw e
  | some a => exact pure a

theorem ofResult (r : Except Error α) : (ofResult r).Unlimited := by
  cases r with
  | ok a => exact pure a
  | error e => exact throw e

theorem bind {x : Query α} {f : α → Query β} (hx : x.Unlimited) (hf : ∀ a, (f a).Unlimited) :
    (x >>= f).Unlimited := by
  intro w limits
  rw [result_bind, result_bind, hx w limits]
  cases (x w).result with
  | error e => rfl
  | ok a => exact hf a w limits

theorem world_bind {f : World → Query β} (hf : ∀ w, (f w).Unlimited)
    (hsame : ∀ w limits, f { w with limits } = f w) : (world >>= f).Unlimited := by
  intro w limits
  rw [Query.world_bind, Query.world_bind, hsame]
  exact hf w w limits

end Unlimited

/-! ## Outlasting -/

/-- Under some limits `y` ends as `x` does in `w`, unless it is a bound that stops `x`. -/
def Outlasts (w : World) (limits : Limits) (y x : Query α) : Prop :=
  Uncut (x w).result → (y { w with limits }).result = (x w).result

theorem Unlimited.outlasts {x : Query α} (h : x.Unlimited) : Outlasts w limits x x :=
  fun _ => h w limits

namespace Outlasts

theorem bind {x y : Query α} {f g : α → Query β} (hx : Outlasts w limits y x)
    (hf : ∀ a, Outlasts w limits (g a) (f a)) : Outlasts w limits (y >>= g) (x >>= f) := by
  intro huncut
  rw [result_bind] at huncut ⊢
  rw [result_bind]
  cases hresult : (x w).result with
  | error e =>
    rw [hresult] at huncut
    rw [hx (hresult ▸ Uncut.of_error huncut), hresult]
    rfl
  | ok a =>
    rw [hresult] at huncut
    rw [hx (hresult ▸ uncut_ok a), hresult]
    exact hf a huncut

theorem unlimited_bind {x : Query α} {f g : α → Query β} (hx : x.Unlimited)
    (hf : ∀ a, Outlasts w limits (g a) (f a)) : Outlasts w limits (x >>= g) (x >>= f) :=
  hx.outlasts.bind hf

/-- Two treatments of links that leave alone what is no link. -/
theorem of_no_link {n : NodeId} {x y : Query NodeId} (hlink : w.isSymlink n = false)
    (hx : ∀ {w : World}, w.isSymlink n = false → x w = ⟨.ok n, []⟩)
    (hy : ∀ {w : World}, w.isSymlink n = false → y w = ⟨.ok n, []⟩) : Outlasts w limits y x := by
  intro _
  rw [hx hlink, hy (w := { w with limits }) hlink]

end Outlasts

end Query

open Query (Unlimited Outlasts)

/-! ## Looking without limits -/

theorem volumeOf_unlimited (n : NodeId) : (volumeOf n).Unlimited :=
  .bind (.look fun _ _ => rfl) fun _ => .expect _ _

theorem opsOf_unlimited (n : NodeId) : (opsOf n).Unlimited :=
  .bind (.look fun _ _ => rfl) fun _ => .expect _ _

theorem RamFs.nodeOf_unlimited (n : NodeId) : (RamFs.nodeOf n).Unlimited := by
  refine .bind (.look fun _ _ => rfl) fun payload => ?_
  cases payload
  · exact .pure _
  · exact .throw _

theorem RamFs.containerOf_unlimited (dir : NodeId) : (RamFs.containerOf dir).Unlimited :=
  .bind (RamFs.nodeOf_unlimited dir) fun _ => .look fun _ _ => rfl

theorem RamFs.childrenOf_unlimited (dir : NodeId) : (RamFs.childrenOf dir).Unlimited := by
  refine .bind (RamFs.nodeOf_unlimited dir) fun node => ?_
  cases node.content <;> first | exact .pure _ | exact .throw _

theorem RamFs.lookup_unlimited (dir : NodeId) (name : String) :
    (RamFs.lookup dir name).Unlimited := by
  unfold RamFs.lookup
  split
  · exact .pure _
  split
  · exact RamFs.containerOf_unlimited dir
  · exact .bind (RamFs.childrenOf_unlimited dir) fun _ => .expect _ _

theorem Scripted.childrenOf_unlimited (dir : NodeId) : (Scripted.childrenOf dir).Unlimited := by
  refine .bind (.look fun _ _ => rfl) fun payload => ?_
  split
  · exact .pure _
  · exact .throw _

theorem Scripted.lookup_unlimited (v : VolumeKey) (parent : NodeId) (name : String) :
    (Scripted.lookup v parent name).Unlimited := by
  refine .bind (Scripted.childrenOf_unlimited parent) fun children => ?_
  split
  · exact .look fun _ _ => rfl
  · exact .expect _ _

theorem locate_unlimited (driver : DriverKind) (v : VolumeKey) (parent : NodeId) (name : String) :
    (driver.locate v parent name).Unlimited := by
  refine .bind (.note _) fun _ => ?_
  cases driver with
  | ram => exact RamFs.lookup_unlimited parent name
  | scripted fs => exact Scripted.lookup_unlimited v parent name

theorem lookupDirectory_unlimited (parent : NodeId) (name : String) :
    (lookupDirectory parent name).Unlimited := by
  unfold lookupDirectory
  split
  · refine .bind (volumeOf_unlimited parent) fun v => .world_bind (fun w => ?_) fun _ _ => rfl
    split
    · split
      · exact .pure _
      · exact .bind (.expect _ _) fun _ => .pure _
    · exact .pure _
  · exact .pure _

/-- No limit bears on a look at one name. -/
theorem lookIn_unlimited (parent : NodeId) (name : String) (crossing : Bool) :
    (lookIn parent name crossing).Unlimited := by
  unfold lookIn
  split
  · exact .pure _
  split
  · exact .bind (.look fun _ _ => rfl) fun _ => .bind (.demand _ _) fun _ => .pure _
  refine .bind (lookupDirectory_unlimited parent name) fun dir => ?_
  cases dir with
  | none => exact .pure _
  | some dir =>
    refine .bind (.look fun _ _ => rfl) fun _ => .bind (.demand _ _) fun _ =>
      .bind (volumeOf_unlimited dir) fun v => .bind (.look fun _ _ => rfl) fun driver =>
        .bind (locate_unlimited driver v dir name) fun found => ?_
    exact .world_bind (fun w => .bind (.note _) fun _ => .pure _) fun _ _ => rfl

theorem status_unlimited (ops : OpsKind) (v : VolumeKey) (n : NodeId) :
    (ops.status v n).Unlimited := by
  have hdefault : (Scripted.bareOps.status v n).Unlimited :=
    .bind (.look fun _ _ => rfl) fun _ => .bind (.demand _ _) fun _ => .look fun _ _ => rfl
  cases ops with
  | ram =>
    exact .bind (RamFs.nodeOf_unlimited n) fun _ => .world_bind (fun _ => .pure _) fun _ _ => rfl
  | bare => exact hdefault
  | scripted meter script =>
    refine .bind (.ofResult _) fun _ => ?_
    cases script.size with
    | none => exact hdefault
    | some size => exact .bind (.look fun _ _ => rfl) fun _ => .pure _

/-- A link reads alike at every depth. -/
theorem readLink_outlasts {w : World} {limits : Limits} (ops : OpsKind) (v : VolumeKey) (n : NodeId)
    (depth depth' : UInt32) :
    Outlasts w limits (ops.readLink v n depth') (ops.readLink v n depth) := by
  have hread : ((Backends.ops ops).readLink v n).Unlimited := by
    cases ops with
    | ram =>
      refine .bind (RamFs.nodeOf_unlimited n) fun node => ?_
      cases node.content <;> first | exact .pure _ | exact .throw _
    | bare => exact .throw _
    | scripted meter script => exact .bind (.ofResult _) fun _ => .pure _
  intro _
  exact hread w limits

/-! ## Walks with more left -/

/-- A treatment of links that outlasts another. -/
def Follow.Outlasts (w : World) (limits : Limits) (g f : Follow) : Prop :=
  ∀ dir n, Query.Outlasts w limits (g dir n) (f dir n)

section

variable {w : World} {limits : Limits} {f g : Follow}

theorem resolveName_outlasts (hfollow : g.Outlasts w limits f) (parent : NodeId) (name : String)
    (flags : LookupMode) :
    Outlasts w limits (resolveName g parent name flags) (resolveName f parent name flags) := by
  rw [resolveName_eq_lookIn, resolveName_eq_lookIn]
  refine .unlimited_bind (lookIn_unlimited parent name _) fun sight => ?_
  cases sight with
  | here n => exact (Unlimited.pure n).outlasts
  | entry dir n =>
    dsimp only
    split
    · exact hfollow dir n
    · exact (Unlimited.pure n).outlasts

theorem walk_outlasts (hfollow : g.Outlasts w limits f) (start : NodeId) (names : List String) :
    Outlasts w limits (walk g start names) (walk f start names) := by
  induction names generalizing start with
  | nil => exact (Unlimited.pure start).outlasts
  | cons name rest ih =>
    rw [walk, walk, List.foldlM_cons, List.foldlM_cons]
    exact (resolveName_outlasts hfollow start name .full).bind ih

theorem parentOfPath_outlasts (hfollow : g.Outlasts w limits f) (start : NodeId) (path : String) :
    Outlasts w limits (parentOfPath g start path) (parentOfPath f start path) :=
  .unlimited_bind (.look fun _ _ => rfl) fun start' =>
    (walk_outlasts hfollow start' _).bind fun _ => (Unlimited.pure _).outlasts

theorem resolveTargetEnd_outlasts (hfollow : g.Outlasts w limits f) (dir : NodeId)
    (name : String) :
    Outlasts w limits (resolveTargetEnd g dir name) (resolveTargetEnd f dir name) := by
  rw [resolveTargetEnd, resolveTargetEnd]
  split
  · exact (Unlimited.pure dir).outlasts
  · exact resolveName_outlasts hfollow dir name .crossOnly

/-- A longer target may be read. -/
theorem linkTarget_outlasts (hlength : w.limits.linkLength ≤ limits.linkLength) (n : NodeId)
    (depth depth' : UInt32) : Outlasts w limits (linkTarget n depth') (linkTarget n depth) := by
  refine .unlimited_bind (opsOf_unlimited n) fun ops => .unlimited_bind (volumeOf_unlimited n)
    fun v => .unlimited_bind (status_unlimited ops v n) fun status => ?_
  have hread : Outlasts w limits (ops.readLink v n depth') (ops.readLink v n depth) :=
    readLink_outlasts ops v n depth depth'
  rw [Outlasts, Query.look_bind, Query.look_bind]
  by_cases hfits : status.size ≤ w.limits.linkLength
  · rw [demand, demand, if_pos hfits, if_pos (Nat.le_trans hfits hlength)]
    exact hread
  · rw [demand, if_neg hfits]
    exact fun huncut => absurd rfl huncut.2

/-- A chain that may be longer. -/
theorem followChain_outlasts (hfollow : g.Outlasts w limits f)
    (hlength : w.limits.linkLength ≤ limits.linkLength) (depth depth' : UInt32) {hops hops' : Nat}
    (hhops : hops ≤ hops') :
    Follow.Outlasts w limits (followChain g depth' hops') (followChain f depth hops) := by
  induction hops generalizing hops' with
  | zero =>
    intro dir n
    cases hlink : w.isSymlink n with
    | false => exact .of_no_link hlink (followChain_of_no_link · 0) (followChain_of_no_link · hops')
    | true =>
      intro huncut
      rw [followChain_zero hlink] at huncut
      exact absurd rfl huncut.1
  | succ hops ih =>
    obtain ⟨hops', rfl⟩ := Nat.exists_eq_add_of_le' (Nat.le_of_add_left_le hhops)
    intro dir n
    cases hlink : w.isSymlink n with
    | false =>
      exact .of_no_link hlink (followChain_of_no_link · _) (followChain_of_no_link · _)
    | true =>
      rw [Outlasts, followChain_of_link hlink, followChain_of_link (w := { w with limits }) hlink]
      exact (linkTarget_outlasts hlength n depth depth').bind fun target =>
        (parentOfPath_outlasts hfollow dir target).bind fun found =>
          (resolveTargetEnd_outlasts hfollow found.1 found.2).bind fun next =>
            ih (Nat.le_of_succ_le_succ hhops) found.1 next

/-- Links that may nest deeper. -/
theorem followLinks_outlasts (hwider : w.limits.Within limits) (depth depth' : UInt32)
    {left left' : Nat} (hleft : left ≤ left') :
    Follow.Outlasts w limits (followLinks left' depth') (followLinks left depth) := by
  induction left generalizing left' depth depth' with
  | zero =>
    intro dir n
    cases hlink : w.isSymlink n with
    | false => exact .of_no_link hlink (followLinks_of_no_link · 0) (followLinks_of_no_link · left')
    | true =>
      intro huncut
      rw [followLinks_zero hlink] at huncut
      exact absurd rfl huncut.1
  | succ left ih =>
    obtain ⟨left', rfl⟩ := Nat.exists_eq_add_of_le' (Nat.le_of_add_left_le hleft)
    intro dir n
    cases hlink : w.isSymlink n with
    | false => exact .of_no_link hlink (followLinks_of_no_link · _) (followLinks_of_no_link · _)
    | true =>
      rw [Outlasts, followLinks_succ hlink, followLinks_succ (w := { w with limits }) hlink]
      exact followChain_outlasts (ih _ _ (Nat.le_of_succ_le_succ hleft)) hwider.length _ _
        (UInt32.le_iff_toNat_le.1 hwider.chain) dir n

/-- Under a wider bound a task has no fewer nestings left, whatever its depth. -/
theorem nestingsLeft_mono {limit limit' : UInt32} (h : limit ≤ limit') (depth : UInt32) :
    nestingsLeft limit depth ≤ nestingsLeft limit' depth := by
  have hnat := UInt32.le_iff_toNat_le.1 h
  rw [nestingsLeft, nestingsLeft]
  split <;> omega

theorem followFor_outlasts (hwider : w.limits.Within limits) (t : TaskId) :
    Follow.Outlasts w limits (followFor t) (followFor t) := by
  intro dir n
  rw [Outlasts, followFor, Query.world_bind, Query.world_bind]
  exact followLinks_outlasts hwider _ _ (nestingsLeft_mono hwider.depth _) dir n

theorem resolve_outlasts (hwider : w.limits.Within limits) (t : TaskId) (start : Option NodeId)
    (path : String) (flags : LookupMode) :
    Outlasts w limits (resolve t start path flags) (resolve t start path flags) := by
  have hfollow := followFor_outlasts hwider t
  refine Outlasts.bind ?_ fun found => resolveName_outlasts hfollow found.1 found.2 flags
  exact .unlimited_bind (.look fun _ _ => rfl) fun cwd =>
    parentOfPath_outlasts hfollow (start.getD cwd) path

end

/-- **Limits on links only cut off.** Whatever a path resolves to, and whatever it fails for but a
limit on links, it still does when the limits are widened. This holds of every task, at any depth
of nesting, from every start and for every treatment of the last name. -/
theorem resolve_widened (w : World) (limits : Limits) (hwider : w.limits.Within limits) (t : TaskId)
    (start : Option NodeId) (path : String) (flags : LookupMode)
    (huncut : Uncut (resolve t start path flags w).result) :
    (resolve t start path flags { w with limits }).result =
      (resolve t start path flags w).result :=
  resolve_outlasts hwider t start path flags huncut

/-- A fresh instance whose limits are just enough for one link of one byte. -/
def World.oneLink : World :=
  (makeSymlink 0 none "top" "/"
    (World.fresh { linkDepth := 1, linkChain := 1, linkLength := 1 })).world

theorem resolve_widened_oneLink :
    World.oneLink.limits.Within {} ∧
      Uncut (resolve 0 none "/top/top" .full World.oneLink).result ∧
      (resolve 0 none "/top/top" .full { World.oneLink with limits := {} }).result =
        .ok World.oneLink.rootNode := by
  refine ⟨by decide +kernel, by decide +kernel, ?_⟩
  rw [resolve_widened World.oneLink {} (by decide +kernel) 0 none "/top/top" .full
    (by decide +kernel)]
  rfl

end VirtualFs
