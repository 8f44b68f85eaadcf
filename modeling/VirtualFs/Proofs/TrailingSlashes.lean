/-
Slashes at the end of a path. What is before them is resolved to the end, with
mounts crossed and links followed, whatever the caller asks for the last name.
That is all they do: the empty name behind them is looked up in whatever the
rest leads to, while the name "." there is only looked up in a directory, and
only a rename and a change of directory insist on one themselves.
-/
import VirtualFs.Proofs.Decomposition
import VirtualFs.Proofs.Openings
import VirtualFs.Proofs.StreamOpens

namespace VirtualFs

open Query (demand look)

/-! ## The part before the slashes -/

/-- A path that ends in a slash without the slashes at its end; "/" if there is nothing else. -/
def beforeSlashes (path : String) : String := (stripSlashes (path ++ "/")).1

/-- A text without the slashes at its end. -/
def stripped (text : List Char) : List Char := (text.reverse.dropWhile (· == '/')).reverse

theorem eq_stripped_append (text : List Char) :
    ∃ k, text = stripped text ++ List.replicate k '/' := by
  refine ⟨(text.reverse.takeWhile (· == '/')).length, ?_⟩
  have hslashes : text.reverse.takeWhile (· == '/') =
      List.replicate (text.reverse.takeWhile (· == '/')).length '/' := by
    refine List.eq_replicate_iff.2 ⟨rfl, fun c hc => ?_⟩
    simpa using List.all_eq_true.1 List.all_takeWhile c hc
  rw [stripped, ← List.reverse_replicate, ← hslashes, ← List.reverse_append,
    List.takeWhile_append_dropWhile, List.reverse_reverse]

theorem toList_beforeSlashes (path : String) : (beforeSlashes path).toList =
    if stripped path.toList = [] then ['/'] else stripped path.toList := by
  have hkept : stripped (path ++ "/").toList = stripped path.toList := by
    simp [stripped, String.toList_append]
  obtain ⟨k, hk⟩ := eq_stripped_append path.toList
  rw [stripped] at hkept
  rw [beforeSlashes, stripSlashes]
  simp only [hkept, List.isEmpty_iff]
  split
  · next hnone =>
    rw [hnone, List.nil_append] at hk
    rw [String.toList_ofList, String.toList_append, hk]
    cases k <;> rfl
  · rw [String.toList_ofList]

namespace Route

/-- Slashes at the end hold no name. -/
theorem ofPieces_pieces_stripped (text : List Char) :
    ofPieces (pieces (stripped text)) = ofPieces (pieces text) := by
  obtain ⟨k, hk⟩ := eq_stripped_append text
  generalize stripped text = kept at hk
  subst hk
  cases k with
  | zero => rw [List.replicate_zero, List.append_nil]
  | succ k =>
    have hcut := pieces_append_slashes kept [] k
    rw [List.append_nil] at hcut
    rw [hcut]
    simp [ofPieces, pieces]

theorem absolute_beforeSlashes (path : String) :
    (ofPath (beforeSlashes path)).absolute = (ofPath (path ++ "/")).absolute := by
  obtain ⟨k, hk⟩ := eq_stripped_append path.toList
  simp only [ofPath, toList_beforeSlashes, String.toList_append]
  generalize stripped path.toList = kept at hk ⊢
  rw [hk]
  cases kept with
  | nil => cases k <;> rfl
  | cons c rest => simp

theorem names_beforeSlashes (path : String) :
    (ofPath (beforeSlashes path)).names = (ofPath path).names := by
  rw [names_ofPath, names_ofPath, toList_beforeSlashes, ← ofPieces_pieces_stripped path.toList]
  split
  · next hnone =>
    rw [hnone]
    rfl
  · rfl

/-- What is before a slash is passed through whole. -/
theorem ofPath_slash (path name : String) (hname : '/' ∉ name.toList) :
    ofPath (path ++ "/" ++ name) =
      { absolute := (ofPath (path ++ "/")).absolute, dirs := (ofPath path).names, name } := by
  have hcut := pieces_append_slash path.toList name.toList
  rw [pieces_of_notMem hname] at hcut
  rw [names_ofPath]
  simp only [ofPath, String.toList_append, List.append_assoc]
  rw [show "/".toList ++ name.toList = '/' :: name.toList from rfl, hcut]
  cases path.toList <;> simp [ofPieces]

end Route

/-! ## Paths with a slash at their end -/

section

variable [Backends]

/-- The name behind a slash is looked up in what the rest leads to. -/
theorem resolveParent_slash (t : TaskId) (start : Option NodeId) (path name : String)
    (hname : '/' ∉ name.toList) :
    resolveParent t start (path ++ "/" ++ name) = (do
      let n ← resolve t start (beforeSlashes path) .full
      pure (n, name)) := by
  rw [resolve_full, Route.names_beforeSlashes]
  simp only [resolveParent, parentOfPath, Route.ofPath_slash path name hname, Route.start,
    Route.absolute_beforeSlashes, bind_assoc]

theorem resolve_slash (t : TaskId) (start : Option NodeId) (path name : String)
    (hname : '/' ∉ name.toList) (flags : LookupMode) :
    resolve t start (path ++ "/" ++ name) flags = (do
      let n ← resolve t start (beforeSlashes path) .full
      resolveIn t n name flags) := by
  rw [resolve, resolveParent_slash t start path name hname]
  simp only [bind_assoc, pure_bind]

/-- Behind a slash the empty name stands for whatever the rest leads to. -/
theorem resolve_empty_slash (t : TaskId) (start : Option NodeId) (path : String)
    (flags : LookupMode) :
    resolve t start (path ++ "/") flags = resolve t start (beforeSlashes path) .full := by
  have hslash := resolve_slash t start path "" (by simp) flags
  rw [String.append_empty] at hslash
  rw [hslash]
  simp [resolveIn, resolveName]

/-- Behind a slash "." stands for the directory that the rest leads to. -/
theorem resolve_dot_slash (t : TaskId) (start : Option NodeId) (path : String)
    (flags : LookupMode) :
    resolve t start (path ++ "/" ++ ".") flags = (do
      let n ← resolve t start (beforeSlashes path) .full
      demand (← look (·.isDirectory n)) .notADirectory
      pure n) := by
  rw [resolve_slash t start path "." (by decide) flags]
  simp [resolveIn, resolveName]

/-! ## Calls with such paths -/

theorem status_slash (t : TaskId) (base : Option Handle) (path : String) :
    status t base (path ++ "/") = status t base (beforeSlashes path) := by
  simp only [status, resolve_empty_slash]

/-- A link in front of a slash is followed even for its own status. -/
theorem linkStatus_slash (t : TaskId) (base : Option Handle) (path : String) :
    linkStatus t base (path ++ "/") = status t base (beforeSlashes path) := by
  simp only [linkStatus, status, resolve_empty_slash]

theorem access_slash (t : TaskId) (base : Option Handle) (path : String) (mode : UInt32) :
    access t base (path ++ "/") mode = access t base (beforeSlashes path) mode := by
  simp only [access, resolve_empty_slash]

theorem changeDirectory_slash (t : TaskId) (path : String) :
    changeDirectory t (path ++ "/") = changeDirectory t (beforeSlashes path) := by
  simp only [changeDirectory, resolve_empty_slash]

/-- Opens what a path leads to when every link on it is followed. Nothing is made. -/
def openLed (t : TaskId) (base : Option Handle) (path : String) (flags : OpenFlags) :
    Act OpenFile := do
  let start ← startNode t base
  let n ← resolve t start path .full
  demand (!(flags.creates && flags.exclusive)) .alreadyExists
  openFound n flags

theorem openName_empty (t : TaskId) (n : NodeId) (flags : OpenFlags) (mode : UInt32) :
    openName t n "" flags mode = (do
      demand (!(flags.creates && flags.exclusive)) .alreadyExists
      openFound n flags) := by
  have hfound : ∀ lookup, Query.attempt (resolveIn t n "" lookup) = pure (.ok n) := fun _ => by
    rw [resolveIn, resolveName, if_pos rfl]
    rfl
  simp only [openName, hfound]
  rfl

theorem pathOpening_slash (t : TaskId) (base : Option Handle) (path : String) (flags : OpenFlags)
    (mode : UInt32) : pathOpening t base (path ++ "/") flags mode =
      openLed t base (beforeSlashes path) flags := by
  have hparent : ∀ start, resolveParent t start (path ++ "/") = (do
      let n ← resolve t start (beforeSlashes path) .full
      pure (n, "")) := fun start => by
    have hslash := resolveParent_slash t start path "" (by simp)
    rwa [String.append_empty] at hslash
  have hpure : ∀ found : NodeId × String,
      (liftM (pure found : Query (NodeId × String)) : Act (NodeId × String)) = pure found :=
    fun _ => rfl
  simp only [pathOpening, openLed, hparent, Action.liftM_bind, hpure, bind_assoc, pure_bind,
    openName_empty]

end

theorem ended_openPath_slash (w : World) (t : TaskId) (base : Option Handle) (path : String)
    (flags : OpenFlags) (mode : UInt32) :
    (openPath t base (path ++ "/") flags mode).ended w =
      (openInto (w.contextOf t flags.forKernel)
        (openLed t base (beforeSlashes path) flags)).ended w := by
  rw [ended_openPath, pathOpening_slash]

/-! ## What is demanded -/

section

variable {w : World} {t : TaskId} {start : Option NodeId} {path : String} {flags : LookupMode}

/-- A lookup of a path with a slash at its end finds a directory if it finds anything, and fails for
the want of one where the rest of the path leads to anything else. -/
structure World.DemandsDirectory (w : World) (t : TaskId) (start : Option NodeId) (path : String)
    (flags : LookupMode) : Prop where
  directory : ∀ n, (resolve t start (path ++ "/") flags w).result = .ok n → w.isDirectory n = true
  refused : ∀ n, (resolve t start (beforeSlashes path) .full w).result = .ok n →
    w.isDirectory n = false → (resolve t start (path ++ "/") flags w).result = .error .notADirectory

theorem demandsDirectory_iff : w.DemandsDirectory t start path flags ↔
    ∀ n, (resolve t start (beforeSlashes path) .full w).result = .ok n →
      w.isDirectory n = true := by
  constructor
  · intro hdemands n hn
    rw [← resolve_empty_slash t start path flags] at hn
    exact hdemands.directory n hn
  · intro hdir
    refine ⟨fun n hn => ?_, fun n hn hplain => ?_⟩
    · rw [resolve_empty_slash] at hn
      exact hdir n hn
    · rw [hdir n hn] at hplain
      cases hplain

/-- A "." behind the slash does demand a directory. -/
theorem result_dot_slash (w : World) (t : TaskId) (start : Option NodeId) (path : String)
    (flags : LookupMode) : (resolve t start (path ++ "/" ++ ".") flags w).result =
      (resolve t start (beforeSlashes path) .full w).result.bind fun n =>
        if w.isDirectory n then .ok n else .error .notADirectory := by
  rw [resolve_dot_slash, Query.result_bind]
  congr 1
  funext n
  rw [Query.look_bind, Query.result_bind, Query.result_demand]
  split <;> rfl

theorem demandsDirectory_iff_dot : w.DemandsDirectory t start path flags ↔
    (resolve t start (path ++ "/") flags w).result =
      (resolve t start (path ++ "/" ++ ".") flags w).result := by
  rw [demandsDirectory_iff, resolve_empty_slash, result_dot_slash]
  cases (resolve t start (beforeSlashes path) .full w).result with
  | error e => exact ⟨fun _ => rfl, fun _ n hn => by cases hn⟩
  | ok n =>
    simp only [Except.ok.injEq, forall_eq', Except.bind]
    cases w.isDirectory n <;> simp

/-- A change of directory insists on one itself. -/
theorem changeDirectory_slash_refused {n : NodeId}
    (hn : (resolve t none (beforeSlashes path) .full w).result = .ok n)
    (hplain : w.isDirectory n = false) :
    (changeDirectory t (path ++ "/") w).result = .error .notADirectory := by
  rw [changeDirectory_slash, changeDirectory, Action.liftM_bind_ok hn, enterDirectory,
    Action.liftM_bind_ok rfl, Action.liftM_bind_error (e := .notADirectory)]
  rw [Query.result_demand, if_neg]
  simp [hplain]

end

/-- **A slash at the end of a path demands nothing.** The path leads where the part before the slash
leads when it is resolved to the end, whatever the caller asks for the last name. So a directory is
what it leads to only where there is one anyway, and short of that a "." behind the slash would be
refused. Calls see what they would see if they followed every link of the path without the slash:
only a change of directory insists on a directory, and an open makes no file but opens one that is
there. -/
theorem trailing_slash_demands_nothing (w : World) (t : TaskId) (path : String) :
    (∀ start flags,
      resolve t start (path ++ "/") flags = resolve t start (beforeSlashes path) .full ∧
        (w.DemandsDirectory t start path flags ↔
          ∀ n, (resolve t start (beforeSlashes path) .full w).result = .ok n →
            w.isDirectory n = true) ∧
        (w.DemandsDirectory t start path flags ↔
          (resolve t start (path ++ "/") flags w).result =
            (resolve t start (path ++ "/" ++ ".") flags w).result)) ∧
      (∀ base,
        status t base (path ++ "/") = status t base (beforeSlashes path) ∧
        linkStatus t base (path ++ "/") = status t base (beforeSlashes path) ∧
        ∀ mode, access t base (path ++ "/") mode = access t base (beforeSlashes path) mode) ∧
      (∀ base flags mode, (openPath t base (path ++ "/") flags mode).ended w =
        (openInto (w.contextOf t flags.forKernel)
          (openLed t base (beforeSlashes path) flags)).ended w) ∧
      ∀ n, (resolve t none (beforeSlashes path) .full w).result = .ok n →
        w.isDirectory n = false →
          (changeDirectory t (path ++ "/") w).result = .error .notADirectory :=
  ⟨fun start flags =>
      ⟨resolve_empty_slash t start path flags, demandsDirectory_iff, demandsDirectory_iff_dot⟩,
    fun base => ⟨status_slash t base path, linkStatus_slash t base path, access_slash t base path⟩,
    fun base flags mode => ended_openPath_slash w t base path flags mode,
    fun _ => changeDirectory_slash_refused⟩

/-- A file and a link to it. -/
def fileAndLink : World :=
  Operation.runAll
    [.addTask 0, .openPath 0 none "/f" ⟨0x41⟩ 0o644, .makeSymlink 0 none "/l" "f"]
    (World.fresh {})

/-- A file is found and opened behind a slash, even where the link to it was asked for; "." behind
the slash is refused. -/
theorem trailing_slash_leads_to_file :
    let w := fileAndLink
    w.Reachable ∧ w.isDirectory 2 = false ∧
      (resolve 0 none "/f/" .full w).result = .ok 2 ∧
      (resolve 0 none "/l/" .plain w).result = .ok 2 ∧
      (resolve 0 none "/f/." .full w).result = .error .notADirectory ∧
      (openPath 0 none "/f/" ⟨0⟩ 0 w).result = .ok (.ofSlot 1 true) ∧
      ¬w.DemandsDirectory 0 none "/f" .full := by
  intro w
  have hplain : w.isDirectory 2 = false := by decide +kernel
  have hfile : (resolve 0 none "/f/" .full w).result = .ok 2 := by decide +kernel
  refine ⟨⟨_, World.steps_runAll _ _⟩, hplain, hfile, by decide +kernel, by decide +kernel,
    by decide +kernel, fun hdemands => ?_⟩
  have hdir := hdemands.directory 2 hfile
  rw [hplain] at hdir
  cases hdir

end VirtualFs
