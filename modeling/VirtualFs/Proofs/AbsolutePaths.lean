/-
What a base does for an absolute path. The walk starts at the root whatever the
base is, but the base is looked up all the same, and before the walk. So among
the bases that a relative path could start from it makes no difference which
one is given; with any other handle the call fails, although it would have had
no use for it.

Calls differ in what they look at before the base: an open needs a number, a
link its target, and a rename the place of the old name.
-/
import VirtualFs.Proofs.FailedOperations
import VirtualFs.Proofs.NumberedOpens
import VirtualFs.Proofs.StreamRuns

namespace VirtualFs

open VirtualFs.Action (ended_bind ended_query ended_query_bind
  ended_query_bind_error)

theorem Numbering.found_eq_error {n : Numbering} {c : ContextId} {h : Handle} {e : Error}
    (he : n.found c h = .error e) : e = .badHandle := by
  rw [found] at he
  split at he
  · cases he
  · exact (Except.error.inj he).symm

/-- A number that is reserved stands for nothing. -/
theorem Numbering.found_of_set_reserved {n : Numbering} {c c' : ContextId} {h : Handle} {i : Nat}
    {f : FileId} (hfound : (n.set c i .reserved).found c' h = .ok f) : n.found c' h = .ok f := by
  have hslot := slot_of_found hfound
  have hother : ¬(c' = c ∧ h.slot = i) := by
    intro heq
    rw [set_slot, if_pos heq] at hslot
    cases hslot
  have hkept : (n.set c i .reserved).slot c' h.slot = n.slot c' h.slot := by
    rw [set_slot, if_neg hother]
  rw [← hfound, found, found, find, find, hkept, set_kernel]

/-! ## Walks from the root -/

/-- A path that starts with a slash. -/
def IsAbsolute (path : String) : Prop := path.toList.head? = some '/'

theorem IsAbsolute.route {path : String} (h : IsAbsolute path) :
    (Route.ofPath path).absolute = true := by
  rw [Route.ofPath, h]
  rfl

/-- Slashes that are dropped from the end are not the first one. -/
theorem IsAbsolute.stripSlashes {path : String} (h : IsAbsolute path) :
    IsAbsolute (VirtualFs.stripSlashes path).1 := by
  rw [IsAbsolute, VirtualFs.stripSlashes]
  have hprefix : (path.toList.reverse.dropWhile (· == '/')).reverse <+: path.toList := by
    rw [← List.reverse_suffix, List.reverse_reverse]
    exact List.dropWhile_suffix _
  generalize (path.toList.reverse.dropWhile (· == '/')).reverse = kept at hprefix
  rw [IsAbsolute] at h
  cases kept with
  | nil =>
    rw [if_pos List.isEmpty_nil, String.toList_ofList, List.head?_take, if_neg one_ne_zero, h]
  | cons c kept =>
    obtain ⟨dropped, heq⟩ := hprefix
    rw [if_neg (by simp), String.toList_ofList, ← h, ← heq, List.cons_append, List.head?_cons,
      List.head?_cons]

section

variable [Backends]

/-- Where an absolute path is started from makes no difference. -/
theorem resolveParent_absolute {path : String} (h : IsAbsolute path) (t : TaskId)
    (start : Option NodeId) : resolveParent t start path = resolveParent t none path := by
  funext w
  rw [resolveParent, resolveParent, Query.look_bind, Query.look_bind, parentOfPath, parentOfPath,
    Query.look_bind, Query.look_bind, Route.start, Route.start, if_pos h.route, if_pos h.route]

theorem resolve_absolute {path : String} (h : IsAbsolute path) (t : TaskId) (start : Option NodeId)
    (flags : LookupMode) : resolve t start path flags = resolve t none path flags := by
  rw [resolve, resolve, resolveParent_absolute h t start]

end

/-! ## Bases -/

/-- A base that a relative path could start from: none, or the handle of a directory. -/
def World.FitBase (w : World) (t : TaskId) : Option Handle → Prop
  | none => True
  | some h => ∃ f, (fileOf t h w).result = .ok f ∧ w.isDirectory (w.file f).node = true

/-- A call comes out with a base as it does without one, if the base is fit. If it is not, the call
changes nothing and fails, for that or for what it would have failed for without the base. -/
structure World.Heeds {α : Type} (w : World) (t : TaskId) (base : Option Handle)
    (x : Option Handle → Act α) : Prop where
  fit : w.FitBase t base → (x base).ended w = (x none).ended w
  unfit : ¬w.FitBase t base → ∃ e, (x base).ended w = (.error e, w) ∧
    (e = .badHandle ∨ e = .notADirectory ∨ (x none).ended w = (.error e, w))

section

variable {w : World} {t : TaskId} {base : Option Handle} {α β : Type}

theorem result_startNode (h : Handle) : (startNode t (some h) w).result =
    (fileOf t h w).result.bind fun f => if w.isDirectory (w.file f).node = true then
      .ok (some (w.file f).node) else .error .notADirectory := by
  rw [startNode, openFileOf, Query.result_bind, Query.result_bind]
  cases (fileOf t h w).result with
  | error e => rfl
  | ok f =>
    rw [Except.bind, Except.bind, Query.result_look, Except.bind, Query.look_bind,
      Query.result_bind, Query.result_demand]
    split <;> rfl

theorem startNode_ok (hfit : w.FitBase t base) :
    ∃ start, (startNode t base w).result = .ok start := by
  cases base with
  | none => exact ⟨none, rfl⟩
  | some h =>
    obtain ⟨f, hf, hdir⟩ := hfit
    rw [result_startNode, hf, Except.bind, if_pos hdir]
    exact ⟨_, rfl⟩

theorem startNode_error (hunfit : ¬w.FitBase t base) :
    ∃ e, (startNode t base w).result = .error e ∧ (e = .badHandle ∨ e = .notADirectory) := by
  cases base with
  | none => exact absurd trivial hunfit
  | some h =>
    rw [result_startNode]
    cases hf : (fileOf t h w).result with
    | error e =>
      rw [result_fileOf] at hf
      exact ⟨e, rfl, .inl (Numbering.found_eq_error hf)⟩
    | ok f =>
      rw [Except.bind, if_neg fun hdir => hunfit ⟨f, hf, hdir⟩]
      exact ⟨.notADirectory, rfl, .inr rfl⟩

/-- A query that looks the base up before anything else, and then has no use for it. -/
def Query.Checks (q : Option Handle → Query α) (t : TaskId) (base : Option Handle) (w : World) :
    Prop :=
  (q base w).result = (startNode t base w).result.bind fun _ => (q none w).result

theorem checks_startNode {k : Option NodeId → Query α} (hk : ∀ start, k start = k none) :
    Query.Checks (fun base => startNode t base >>= k) t base w := by
  have hnone : (startNode t none w).result = .ok none := rfl
  rw [Query.Checks, Query.result_bind, Query.result_bind, hnone]
  congr 1
  funext start
  rw [hk start]
  rfl

theorem Query.Checks.bind {q : Option Handle → Query α} (hq : Query.Checks q t base w)
    (f : α → Query β) : Query.Checks (fun base => q base >>= f) t base w := by
  rw [Query.Checks, Query.result_bind, Query.result_bind, hq]
  cases (startNode t base w).result <;> rfl

theorem World.Heeds.congr {x y : Option Handle → Act α} (hx : w.Heeds t base x)
    (hsame : ∀ base, (y base).ended w = (x base).ended w) : w.Heeds t base y := by
  refine ⟨fun hfit => ?_, fun hunfit => ?_⟩
  · rw [hsame, hsame]
    exact hx.fit hfit
  · rw [hsame, hsame]
    exact hx.unfit hunfit

/-- What comes after the base has been looked up has no use for it. -/
theorem Query.Checks.heeds {q : Option Handle → Query α} (hq : Query.Checks q t base w)
    (f : α → Act β) : w.Heeds t base fun base => (liftM (q base) : Act α) >>= f where
  fit hfit := by
    obtain ⟨start, hstart⟩ := startNode_ok hfit
    have hsame : (q base w).result = (q none w).result := by rw [hq, hstart]; rfl
    cases hnone : (q none w).result with
    | error e => rw [ended_query_bind_error hnone, ended_query_bind_error (hsame.trans hnone)]
    | ok a => rw [ended_query_bind hnone, ended_query_bind (hsame.trans hnone)]
  unfit hunfit := by
    obtain ⟨e, hstart, he⟩ := startNode_error hunfit
    have herror : (q base w).result = .error e := by rw [hq, hstart]; rfl
    exact ⟨e, ended_query_bind_error herror, he.imp_right .inl⟩

/-- What is looked at before the base has its say before the base. -/
theorem heeds_query_bind {q : Query α} {x : α → Option Handle → Act β}
    (hx : ∀ a, (q w).result = .ok a → w.Heeds t base (x a)) :
    w.Heeds t base fun base => (liftM q : Act α) >>= (x · base) := by
  cases hq : (q w).result with
  | error e =>
    exact ⟨fun _ => by rw [ended_query_bind_error hq, ended_query_bind_error hq],
      fun _ => ⟨e, ended_query_bind_error hq, .inr (.inr (ended_query_bind_error hq))⟩⟩
  | ok a => exact (hx a hq).congr fun _ => ended_query_bind hq

theorem Query.Checks.heeds_query {q : Option Handle → Query α} (hq : Query.Checks q t base w) :
    w.Heeds t base fun base => (liftM (q base) : Act α) :=
  (hq.heeds pure).congr fun base => by rw [bind_pure]

theorem resolveTarget_checks {path : String} (hpath : IsAbsolute path) :
    Query.Checks (resolveTarget t · path) t base w :=
  checks_startNode fun start => resolveParent_absolute hpath t start

theorem placeOf_checks {path : String} (hpath : IsAbsolute path) :
    Query.Checks (placeOf t · path) t base w :=
  (resolveTarget_checks hpath).bind _

end

/-! ## Opening -/

theorem ended_pathOpening_eq (w : World) (t : TaskId) (base : Option Handle) (path : String)
    (flags : OpenFlags) (mode : UInt32) : (pathOpening t base path flags mode).ended w =
      ((liftM (resolveTarget t base path) : Act (NodeId × String)) >>= fun found =>
        openName t found.1 found.2 flags mode).ended w := by
  rw [pathOpening, ended_bind _ fun _ => _, ended_bind (liftM (resolveTarget t base path))]
  have htarget : (resolveTarget t base path w).result = (startNode t base w).result.bind
    fun start => (resolveParent t start path w).result := Query.result_bind _ _ w
  cases hstart : (startNode t base w).result with
  | error e =>
    rw [hstart] at htarget
    rw [ended_query hstart, ended_query htarget]
    rfl
  | ok start =>
    rw [hstart] at htarget
    rw [ended_query hstart]
    dsimp only
    rw [ended_bind, ended_query rfl, ended_query htarget]
    rfl

/-- An open counts by how it ends once a number is reserved. -/
theorem ended_openInto_congr {w : World} {c : ContextId} {opening opening' : Act OpenFile}
    (h : opening.ended (w.reserving c) = opening'.ended (w.reserving c)) :
    (openInto c opening).ended w = (openInto c opening').ended w := by
  rcases hallocate : (allocateHandle c).ended w with ⟨e | handle, w₁⟩
  · rw [openInto, openInto, ended_withReserved_error _ hallocate,
      ended_withReserved_error _ hallocate]
  · obtain rfl : w.reserving c = w₁ := (Prod.mk.inj hallocate).2
    rw [openInto, openInto, ended_withReserved _ hallocate, ended_withReserved _ hallocate,
      ended_bind, ended_bind, h]

section

variable {w : World} (hw : w.Orderly) {t : TaskId} {base : Option Handle}

include hw

/-- Reserving a number makes no base fit, nor unfit. -/
theorem fitBase_reserving (c : ContextId) :
    (w.reserving c).FitBase t base ↔ w.FitBase t base := by
  cases base with
  | none => exact Iff.rfl
  | some h =>
    have hfound : ∀ f, (fileOf t h (w.reserving c)).result = .ok f ↔
        (fileOf t h w).result = .ok f := by
      refine fun f => ⟨fun hf => ?_, hw.fileOf_reserving c⟩
      rw [result_fileOf] at hf ⊢
      rw [World.reserving, (allocateHandle_renders hw c).numbering, Numbering.give] at hf
      cases hleast : w.numbering.least c with
      | none =>
        rw [hleast] at hf
        exact hf
      | some i =>
        rw [hleast] at hf
        exact Numbering.found_of_set_reserved hf
    have hnodes := (World.retabled_reserving w c).nodes
    simp only [World.FitBase, hfound, World.file, World.reserving_files, World.isDirectory,
      World.node, hnodes]

/-- An open looks its base up when it has a number. -/
theorem openPath_heeds (h : w.WellFormed) {flags : OpenFlags}
    (hnumbers : w.Numberable (w.contextOf t flags.forKernel)) {path : String}
    (hpath : IsAbsolute path) (mode : UInt32) :
    w.Heeds t base fun base => openPath t base path flags mode := by
  have hopening : (w.reserving (w.contextOf t flags.forKernel)).Heeds t base fun base =>
      pathOpening t base path flags mode :=
    ((resolveTarget_checks hpath).heeds fun found => openName t found.1 found.2 flags mode).congr
      fun _ => ended_pathOpening_eq _ t _ path flags mode
  have hfails : ∀ {base e}, (openPath t base path flags mode w).result = .error e →
      (openPath t base path flags mode).ended w = (.error e, w) := fun herror =>
    Prod.ext herror ((openPath_fails h hnumbers _ path mode).1 _ herror)
  have hresult : ∀ base, (openPath t base path flags mode w).result =
      ((openInto (w.contextOf t flags.forKernel)
        (pathOpening t base path flags mode)).ended w).1 := fun base =>
    congrArg Prod.fst (ended_openPath t base path flags mode)
  constructor
  · intro hfit
    rw [ended_openPath, ended_openPath]
    exact ended_openInto_congr (hopening.fit ((fitBase_reserving hw _).2 hfit))
  · intro hunfit
    rcases hallocate : (allocateHandle (w.contextOf t flags.forKernel)).ended w with
      ⟨e | handle, w₁⟩
    · have hfull : ∀ base, (openPath t base path flags mode w).result = .error e := fun base => by
        rw [hresult, openInto, ended_withReserved_error _ hallocate]
      exact ⟨e, hfails (hfull base), .inr (.inr (hfails (hfull none)))⟩
    · obtain rfl : w.reserving (w.contextOf t flags.forKernel) = w₁ := (Prod.mk.inj hallocate).2
      have hended : ∀ {base e w₂}, (pathOpening t base path flags mode).ended
          (w.reserving (w.contextOf t flags.forKernel)) = (.error e, w₂) →
          (openPath t base path flags mode w).result = .error e := fun {base e w₂} herror => by
        rw [hresult, openInto, ended_withReserved _ hallocate, ended_bind, herror]
      obtain ⟨e, herror, hcause⟩ :=
        hopening.unfit fun hfit => hunfit ((fitBase_reserving hw _).1 hfit)
      exact ⟨e, hfails (hended herror), hcause.imp_right (.imp_right fun hnone =>
        hfails (hended hnone))⟩

end

/-! ## Calls -/

/-- A call that takes a base, and what else it takes. -/
inductive BasedCall where
  | openPath (t : TaskId) (flags : OpenFlags) (mode : UInt32)
  | makeDirectory (t : TaskId) (mode : UInt32)
  | removeDirectory (t : TaskId)
  | unlink (t : TaskId)
  | makeSymlink (t : TaskId) (target : String)
  | readLink (t : TaskId)
  /-- With the base of the old path. -/
  | renameFrom (t : TaskId) (newBase : Option Handle) (newPath : String)
  /-- With the base of the new path. -/
  | renameTo (t : TaskId) (oldBase : Option Handle) (oldPath : String)
  | status (t : TaskId)
  | linkStatus (t : TaskId)
  | access (t : TaskId) (mode : UInt32)

namespace BasedCall

/-- The task that calls. -/
def task : BasedCall → TaskId
  | openPath t _ _ | makeDirectory t _ | removeDirectory t | unlink t | makeSymlink t _
  | readLink t | renameFrom t _ _ | renameTo t _ _ | status t | linkStatus t | access t _ => t

/-- What the call answers. -/
abbrev Answer : BasedCall → Type
  | openPath .. => Handle
  | readLink _ => String
  | status _ | linkStatus _ => Status
  | _ => Unit

/-- What the call does, with a base and a path. -/
def act [Backends] : (call : BasedCall) → Option Handle → String → Act call.Answer
  | openPath t flags mode, base, path => VirtualFs.openPath t base path flags mode
  | makeDirectory t mode, base, path => VirtualFs.makeDirectory t base path mode
  | removeDirectory t, base, path => VirtualFs.removeDirectory t base path
  | unlink t, base, path => VirtualFs.unlink t base path
  | makeSymlink t target, base, path => VirtualFs.makeSymlink t base path target
  | readLink t, base, path => liftM (VirtualFs.readLink t base path)
  | renameFrom t newBase newPath, base, path => VirtualFs.rename t base path newBase newPath
  | renameTo t oldBase oldPath, base, path => VirtualFs.rename t oldBase oldPath base path
  | status t, base, path => liftM (VirtualFs.status t base path)
  | linkStatus t, base, path => liftM (VirtualFs.linkStatus t base path)
  | access t mode, base, path => liftM (VirtualFs.access t base path mode)

end BasedCall

/-- **An absolute path does not need its base, and fails without a fit one.** In a world that
operations lead to, a call with an absolute path comes out with the same result and leaves the same
world whichever fit base it is given, or none. With a handle that stands for nothing, or for no
directory, it fails. -/
theorem absolute_path_heeds_base {w : World} (hw : w.Reachable) (hnumbers : ∀ c, w.Numberable c)
    (call : BasedCall) (base : Option Handle) {path : String} (hpath : IsAbsolute path) :
    w.Heeds call.task base (call.act · path) := by
  cases call with
  | openPath t flags mode =>
    exact openPath_heeds hw.kept.orderly hw.wellFormed (hnumbers _) hpath mode
  | makeDirectory | removeDirectory => exact (placeOf_checks hpath.stripSlashes).heeds _
  | unlink => exact (placeOf_checks hpath).heeds _
  | makeSymlink t target =>
    exact heeds_query_bind fun _ _ => heeds_query_bind fun _ _ => heeds_query_bind fun _ _ =>
      (placeOf_checks hpath).heeds _
  | renameFrom t newBase newPath => exact (resolveTarget_checks hpath.stripSlashes).heeds _
  | renameTo t oldBase oldPath =>
    exact heeds_query_bind fun _ _ => (resolveTarget_checks hpath.stripSlashes).heeds _
  | readLink t =>
    refine (checks_startNode fun start => ?_).heeds_query
    rw [resolve_absolute hpath]
  | status t =>
    refine (checks_startNode fun start => ?_).heeds_query
    rw [resolve_absolute hpath]
  | linkStatus t =>
    refine (checks_startNode fun start => ?_).heeds_query
    rw [resolve_absolute hpath]
  | access t mode =>
    refine (checks_startNode fun start => ?_).heeds_query
    rw [resolve_absolute hpath]

/-- An instance with a file and a directory open, under the numbers 0 and 1. -/
def openBases : World :=
  Operation.runAll
    [.addTask 0, .openPath 0 none "/f" ⟨0x41⟩ 0o644, .openPath 0 none "/dev" ⟨0⟩ 0]
    (World.fresh {})

theorem absolute_path_heeds_base_of_openBases :
    let w := openBases
    let made (base : Option Handle) := (makeDirectory 0 base "/a" 0o755).ended w
    (w.Reachable ∧ (∀ c, w.Numberable c) ∧ IsAbsolute "/a") ∧
      made (some (.ofSlot 1 true)) = made none ∧
      ∃ e, made (some (.ofSlot 0 true)) = (.error e, w) := by
  intro w made
  have hw : w.Reachable := ⟨_, World.steps_runAll _ _⟩
  have hnumbers : ∀ c, w.Numberable c := hw.numberable (by decide +kernel)
  have hpath : IsAbsolute "/a" := by
    rw [IsAbsolute]
    decide +kernel
  have hheeds := fun base =>
    absolute_path_heeds_base hw hnumbers (.makeDirectory 0 0o755) base hpath
  refine ⟨⟨hw, hnumbers, hpath⟩, (hheeds _).fit ⟨1, by decide +kernel, by decide +kernel⟩, ?_⟩
  obtain ⟨e, hfailed, -⟩ := (hheeds (some (.ofSlot 0 true))).unfit fun hfit => by
    obtain ⟨f, hf, hdir⟩ := hfit
    have hzero : (fileOf 0 (.ofSlot 0 true) w).result = .ok 0 := by decide +kernel
    obtain rfl : 0 = f := Except.ok.inj (hzero.symm.trans hf)
    exact absurd hdir (by decide +kernel)
  exact ⟨e, hfailed⟩

/-- The handle of a file, or a number that was never given out, bars a path that needs neither. -/
theorem unfit_base_bars_absolute_path :
    let w := openBases
    w.Reachable ∧ IsAbsolute "/a" ∧ (makeDirectory 0 none "/a" 0o755 w).result = .ok () ∧
      (makeDirectory 0 (some (.ofSlot 0 true)) "/a" 0o755 w).result = .error .notADirectory ∧
      (makeDirectory 0 (some (.ofSlot 7 true)) "/a" 0o755 w).result = .error .badHandle := by
  refine ⟨⟨_, World.steps_runAll _ _⟩, ?_, by decide +kernel, by decide +kernel, by decide +kernel⟩
  rw [IsAbsolute]
  decide +kernel

end VirtualFs
