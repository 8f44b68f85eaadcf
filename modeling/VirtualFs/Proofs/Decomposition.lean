/-
Cutting a path at its slashes does not change what it names. The text before
a run of slashes is a path of its own: resolving the whole is resolving that
part to the end, and then the rest from where it led. So a path may be
resolved one name at a time, and nothing but the slashes matters for where
it is cut.
-/
import VirtualFs.Action.Lemmas
import VirtualFs.Standard

namespace VirtualFs

open Query (look)

/-! ## Texts cut at slashes -/

theorem pieces_append_slash (front back : List Char) :
    pieces (front ++ '/' :: back) = pieces front ++ pieces back := by
  induction front with
  | nil => simp [pieces]
  | cons c rest ih =>
    rw [List.cons_append, pieces, pieces, ih]
    by_cases hc : c = '/'
    · simp [hc]
    · rw [if_neg hc, if_neg hc]
      obtain ⟨piece, more, hrest⟩ := List.exists_cons_of_ne_nil (pieces_ne_nil rest)
      simp [hrest]

/-- Slashes in a row enclose empty pieces. -/
theorem pieces_append_slashes (front back : List Char) (k : Nat) :
    pieces (front ++ List.replicate (k + 1) '/' ++ back) =
      pieces front ++ List.replicate k [] ++ pieces back := by
  induction k generalizing front with
  | zero => simp [pieces_append_slash]
  | succ k ih =>
    have hone : pieces (front ++ ['/']) = pieces front ++ [[]] := pieces_append_slash front []
    rw [List.replicate_succ, List.append_cons front, ih, hone]
    simp [List.replicate_succ]

theorem pieces_of_notMem {text : List Char} (h : '/' ∉ text) : pieces text = [text] := by
  induction text with
  | nil => rfl
  | cons c rest ih =>
    obtain ⟨hc, hrest⟩ : '/' ≠ c ∧ '/' ∉ rest := by simpa using h
    rw [pieces, if_neg hc.symm, ih hrest]

/-- So many slashes. -/
def slashes (k : Nat) : String := String.ofList (List.replicate k '/')

namespace Route

/-- The names among pieces: an empty piece is none. -/
def ofPieces (parts : List (List Char)) : List String :=
  (parts.filter fun part => !part.isEmpty).map String.ofList

/-- Every name of a route, the last one too if there is one. -/
def names (r : Route) : List String := r.dirs ++ if r.name = "" then [] else [r.name]

theorem ofPieces_append (front back : List (List Char)) :
    ofPieces (front ++ back) = ofPieces front ++ ofPieces back := by simp [ofPieces]

theorem names_ofPath (path : String) : (ofPath path).names = ofPieces (pieces path.toList) := by
  obtain ⟨front, last, hsplit⟩ : ∃ front last, pieces path.toList = front ++ [last] :=
    ⟨_, _, (List.dropLast_concat_getLast (pieces_ne_nil path.toList)).symm⟩
  simp only [names, ofPath, hsplit, ofPieces_append]
  by_cases hlast : last = []
  · simp [hlast, ofPieces]
  · simp [hlast, ofPieces]

/-- What is before a run of slashes is passed through whole, and what is after it says how the route
ends. -/
theorem ofPath_append (front back : String) (k : Nat) (hfront : front ≠ "") :
    ofPath (front ++ slashes (k + 1) ++ back) =
      { absolute := (ofPath front).absolute
        dirs := (ofPath front).names ++ (ofPath back).dirs
        name := (ofPath back).name } := by
  have hback := pieces_ne_nil back.toList
  obtain ⟨c, rest, hcons⟩ : ∃ c rest, front.toList = c :: rest :=
    List.exists_cons_of_ne_nil (by simpa using hfront)
  obtain ⟨last, hlast⟩ := Option.isSome_iff_exists.1 (List.getLast?_isSome.2 hback)
  rw [names_ofPath]
  simp only [ofPath, slashes, String.toList_append, String.toList_ofList, pieces_append_slashes]
  congr 1
  · simp [hcons]
  · rw [List.dropLast_append_of_ne_nil hback]
    simp [ofPieces]
  · simp [List.getLastD_eq_getLast?, hlast]

/-- A name without a slash is a path of its own. -/
theorem ofPath_of_notMem {name : String} (h : '/' ∉ name.toList) :
    ofPath name = { absolute := false, dirs := [], name } := by
  have hhead : name.toList.head? ≠ some '/' := fun he => h (List.mem_of_mem_head? he)
  simp [ofPath, pieces_of_notMem h, hhead]

/-- The names a route passes through are cut at every slash. -/
theorem slash_notMem_of_mem_dirs {path name : String} (h : name ∈ (ofPath path).dirs) :
    '/' ∉ name.toList := by
  simp only [ofPath, List.mem_map, List.mem_filter] at h
  obtain ⟨part, ⟨hpart, _⟩, rfl⟩ := h
  rw [String.toList_ofList]
  exact slash_notMem_of_mem_pieces (List.dropLast_subset _ hpart)

theorem slash_notMem_name (path : String) : '/' ∉ (ofPath path).name.toList := by
  have hlast : (pieces path.toList).getLastD [] ∈ pieces path.toList := by
    rw [List.getLastD_eq_getLast?, List.getLast?_eq_some_getLast (pieces_ne_nil _)]
    exact List.getLast_mem _
  simpa [ofPath] using slash_notMem_of_mem_pieces hlast

end Route

/-! ## Walks cut at slashes -/

variable [Backends]

theorem walk_append (follow : Follow) (start : NodeId) (front back : List String) :
    walk follow start (front ++ back) =
      (walk follow start front >>= fun dir => walk follow dir back) := by
  simp [walk, List.foldlM_append]

/-- Passing through every name of a route is passing through all but the last, and then looking the
last one up to the end. -/
theorem walk_names (follow : Follow) (start : NodeId) (route : Route) :
    walk follow start route.names =
      (walk follow start route.dirs >>= fun dir => resolveName follow dir route.name .full) := by
  by_cases h : route.name = ""
  · simp [Route.names, h, resolveName]
  · simp [Route.names, h, walk]

theorem resolve_full (t : TaskId) (start : Option NodeId) (path : String) :
    resolve t start path .full = (do
      let cwd ← look (·.cwd t)
      let dir ← look ((Route.ofPath path).start · (start.getD cwd))
      walk (followFor t) dir (Route.ofPath path).names) := by
  simp [resolve, resolveParent, parentOfPath, walk_names, resolveIn]

/-- A path that is not absolute goes on from its start. -/
theorem resolve_of_relative (t : TaskId) (dir : NodeId) (path : String) (flags : LookupMode)
    (h : path.toList.head? ≠ some '/') :
    resolve t (some dir) path flags = (do
      let last ← walk (followFor t) dir (Route.ofPath path).dirs
      resolveIn t last (Route.ofPath path).name flags) := by
  funext w
  simp only [resolve, resolveParent, parentOfPath, Route.start, Route.ofPath, bind_assoc, pure_bind,
    Query.look_bind]
  simp [h]

/-- A single name, as a path, is looked up in its start. -/
theorem resolve_of_notMem (t : TaskId) (dir : NodeId) (name : String) (flags : LookupMode)
    (h : '/' ∉ name.toList) : resolve t (some dir) name flags = resolveIn t dir name flags := by
  have hhead : name.toList.head? ≠ some '/' := fun he => h (List.mem_of_mem_head? he)
  rw [resolve_of_relative t dir name flags hhead, Route.ofPath_of_notMem h]
  simp [walk]

/-- Passing through names is resolving each as a path from where the ones before it led. -/
theorem walk_eq_foldlM_resolve (t : TaskId) (start : NodeId) (names : List String)
    (h : ∀ name ∈ names, '/' ∉ name.toList) :
    walk (followFor t) start names =
      names.foldlM (fun dir name => resolve t (some dir) name .full) start := by
  induction names generalizing start with
  | nil => rfl
  | cons name rest ih =>
    rw [walk, List.foldlM_cons, List.foldlM_cons,
      resolve_of_notMem t start name .full (h name (by simp))]
    congr 1
    funext dir
    exact ih dir fun other hother => h other (by simp [hother])

/-- **Decomposition.** A path with a run of slashes in it leads where the part before the slashes,
resolved to the end, and then the part behind them lead, and fails as the first of the two that
fails. Hence every path is resolved by resolving its names one after the other, each as a path of
its own; only the last is treated as the caller says. -/
theorem resolve_decomposition (t : TaskId) (start : Option NodeId) (flags : LookupMode) :
    (∀ (front back : String) (k : Nat), front ≠ "" → back.toList.head? ≠ some '/' → 1 ≤ k →
      resolve t start (front ++ slashes k ++ back) flags = (do
        let dir ← resolve t start front .full
        resolve t (some dir) back flags)) ∧
    ∀ path : String,
      resolve t start path flags = (do
        let cwd ← look (·.cwd t)
        let first ← look ((Route.ofPath path).start · (start.getD cwd))
        let dir ← (Route.ofPath path).dirs.foldlM
          (fun dir name => resolve t (some dir) name .full) first
        resolve t (some dir) (Route.ofPath path).name flags) := by
  refine ⟨fun front back k hfront hback hk => ?_, fun path => ?_⟩
  · obtain ⟨k, rfl⟩ : ∃ j, k = j + 1 := ⟨k - 1, by omega⟩
    have hroute := Route.ofPath_append front back k hfront
    simp only [resolve_of_relative t _ back flags hback, resolve_full]
    rw [resolve]
    simp only [resolveParent, parentOfPath, hroute, Route.start, walk_append, bind_assoc, pure_bind]
  · simp only [resolve_of_notMem t _ _ flags (Route.slash_notMem_name path),
      ← walk_eq_foldlM_resolve t _ _ fun _ => Route.slash_notMem_of_mem_dirs]
    simp only [resolve, resolveParent, parentOfPath, bind_assoc, pure_bind]

theorem resolve_decomposition_of_dots :
    ("a/..//b" ≠ "" ∧ "./c/".toList.head? ≠ some '/' ∧ 1 ≤ 2) ∧
      resolve 0 none ("a/..//b" ++ slashes 2 ++ "./c/") .crossOnly = (do
        let dir ← resolve 0 none "a/..//b" .full
        resolve 0 (some dir) "./c/" .crossOnly) :=
  ⟨by decide, (resolve_decomposition 0 none .crossOnly).1 _ _ 2 (by decide) (by decide) (by decide)⟩

end VirtualFs
