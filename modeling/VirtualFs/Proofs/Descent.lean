/-
Going down by name. A node is visible under a list of names if they lead to
it from the root of everything, each to a child of the directory before it
or to what is mounted on that child. The names that lead to a directory, put
behind slashes, are a path that resolves to it.
-/
import VirtualFs.Proofs.Arrival
import VirtualFs.Proofs.Unwinding

namespace VirtualFs


/-! ## Names behind slashes -/

/-- Names, each behind a slash. -/
def joinNames : List String → String
  | [] => ""
  | name :: rest => "/" ++ name ++ joinNames rest

/-- The absolute path that passes through names. -/
def absoluteText (names : List String) : String := if names = [] then "/" else joinNames names

theorem joinNames_append (front back : List String) :
    joinNames (front ++ back) = joinNames front ++ joinNames back := by
  induction front with
  | nil => simp [joinNames]
  | cons name rest ih => simp [joinNames, ih, String.append_assoc]

@[simp] theorem joinNames_singleton (name : String) : joinNames [name] = "/" ++ name := by
  simp [joinNames]

theorem utf8ByteSize_slash_append (name : String) :
    ("/" ++ name).utf8ByteSize = name.utf8ByteSize + 1 := by
  rw [String.utf8ByteSize_append, Nat.add_comm]
  rfl

theorem utf8ByteSize_joinNames_snoc (names : List String) (name : String) :
    (joinNames (names ++ [name])).utf8ByteSize =
      (joinNames names).utf8ByteSize + (name.utf8ByteSize + 1) := by
  rw [joinNames_append, joinNames_singleton, String.utf8ByteSize_append, utf8ByteSize_slash_append]

theorem head?_absoluteText (names : List String) :
    (absoluteText names).toList.head? = some '/' := by
  cases names with
  | nil => rfl
  | cons name rest => simp [absoluteText, joinNames]

/-- Cutting names at the slashes before them gives them back. -/
theorem names_joinNames {names : List String} (h : ∀ name ∈ names, IsEntryName name) :
    (Route.ofPath (joinNames names)).names = names := by
  rw [Route.names_ofPath]
  induction names using List.reverseRecOn with
  | nil => rfl
  | append_singleton front name ih =>
    have hname := h name (by simp)
    have hpiece : pieces name.toList = [name.toList] := pieces_of_notMem hname.whole
    rw [joinNames_append, joinNames_singleton, String.toList_append, String.toList_append]
    rw [show "/".toList ++ name.toList = '/' :: name.toList from rfl, pieces_append_slash,
      Route.ofPieces_append, ih fun other hmem => h other (by simp [hmem]), hpiece]
    simp [Route.ofPieces, hname.ne_empty]

theorem names_absoluteText {names : List String} (h : ∀ name ∈ names, IsEntryName name) :
    (Route.ofPath (absoluteText names)).names = names := by
  rw [absoluteText]
  split
  · next heq =>
    rw [heq]
    decide
  · exact names_joinNames h

/-- An absolute path is walked from the root of everything. -/
theorem resolve_absoluteText [Backends] (t : TaskId) (start : Option NodeId) {names : List String}
    (h : ∀ name ∈ names, IsEntryName name) (w : World) :
    resolve t start (absoluteText names) .full w = walk (followFor t) w.rootNode names w := by
  have habsolute : (Route.ofPath (absoluteText names)).absolute = true := by
    rw [Route.ofPath]
    simp [head?_absoluteText]
  rw [resolve_full, Query.look_bind, Query.look_bind, Route.start, if_pos habsolute,
    names_absoluteText h]

/-! ## Looking up what is listed -/

namespace World

/-- Names that lead to a node from the root of everything. -/
inductive Visible (w : World) : List String → NodeId → Prop where
  | root : Visible w [] w.rootNode
  | child {names d name c} :
      Visible w names d → w.Entry d name c → Visible w (names ++ [name]) (w.cross c)

variable {w : World} (h : w.WellFormed) {d c : NodeId} {name : String}

theorem isSymlink_of_isDirectory (hd : w.isDirectory d = true) : w.isSymlink d = false := by
  rw [isDirectory, Mode.isDirectory, beq_iff_eq] at hd
  rw [isSymlink, Mode.isSymlink, hd]
  decide

/-- What is no link stands for itself, at any depth. -/
theorem followFor_of_no_link (t : TaskId) (dir : NodeId) (hlink : w.isSymlink d = false) :
    (followFor t dir d w).result = .ok d := by
  rw [followFor, Query.world_bind, followLinks_of_no_link hlink]

theorem followFor_of_isDirectory (t : TaskId) (dir : NodeId) (hd : w.isDirectory d = true) :
    (followFor t dir d w).result = .ok d :=
  followFor_of_no_link t dir (isSymlink_of_isDirectory hd)

include h

theorem Visible.live {names : List String} (hv : w.Visible names d) : w.Live d := by
  cases hv with
  | root => exact h.live_root
  | child hv he => exact h.live_cross (h.linked.live _ _ _ he)

/-- Nothing is mounted on what is visible. -/
theorem Visible.cross_eq {names : List String} (hv : w.Visible names d) : w.cross d = d := by
  cases hv with
  | root => exact h.cross_root
  | child hv he => exact h.cross_cross _

theorem Visible.isEntryName {names : List String} (hv : w.Visible names d) :
    ∀ name ∈ names, IsEntryName name := by
  induction hv with
  | root => simp
  | child hv he ih =>
    intro name hname
    rcases List.mem_append.1 hname with hname | hname
    · exact ih name hname
    · rw [List.mem_singleton.1 hname]
      exact h.linked.name _ _ _ he

theorem locate_entry (he : w.Entry d name c) (v : VolumeKey) :
    ((w.node d).driver.locate v d name w).result = .ok c := by
  have hram := h.ram d he.live
  have hname := h.linked.name d name c he
  have hfound := (RamFs.lookup_result_eq_ok hram hname.ne_dot hname.ne_dots).2
    ⟨h.isDirectory_of_entry he, he⟩
  rw [hram.driver]
  exact Query.result_bind_eq_ok.2 ⟨(), rfl, hfound⟩

/-- A directory finds under ".." what is one step up from it. -/
theorem locate_dots (hd : w.Live d) (v : VolumeKey) :
    ((w.node d).driver.locate v d ".." w).result = .ok (w.up d) := by
  have hup : (RamFs.lookup d ".." w).result = .ok (w.up d) := by
    rw [RamFs.lookup, if_neg (by decide), if_pos rfl, RamFs.containerOf_apply (h.ram d hd)]
  rw [(h.ram d hd).driver]
  exact Query.result_bind_eq_ok.2 ⟨(), rfl, hup⟩

/-- What a directory finds under any other name it lists under that name. -/
theorem entry_of_locate (hd : w.Live d) {v : VolumeKey} (hdot : name ≠ ".") (hdots : name ≠ "..")
    (hc : ((w.node d).driver.locate v d name w).result = .ok c) : w.Entry d name c := by
  rw [(h.ram d hd).driver] at hc
  obtain ⟨_, -, hfound⟩ := Query.result_bind_eq_ok.1 hc
  exact ((RamFs.lookup_result_eq_ok (h.ram d hd) hdot hdots).1 hfound).2

/-- Looking a listed name up finds what is listed. -/
theorem lookIn_entry (he : w.Entry d name c) (crossing : Bool) :
    (lookIn d name crossing w).result = .ok (.entry d (if crossing then w.cross c else c)) := by
  have hname := h.linked.name d name c he
  have hdirectory : lookupDirectory d name = pure (some d) := by
    rw [lookupDirectory, if_neg hname.ne_dots]
  rw [lookIn, if_neg hname.ne_empty, if_neg hname.ne_dot, hdirectory, pure_bind]
  simp only [Query.look_bind, Query.result_bind, Query.result_demand, h.isDirectory_of_entry he,
    h.volumeOf_result he.live, locate_entry h he, if_true, Except.bind]
  rfl

/-- What a name that is none of the dots is looked up to be is listed under it. -/
theorem entry_of_lookIn (hd : w.Live d) {crossing : Bool} {sight : Sight} (hempty : name ≠ "")
    (hdot : name ≠ ".") (hdots : name ≠ "..")
    (hsight : (lookIn d name crossing w).result = .ok sight) :
    ∃ c, w.Entry d name c ∧ sight = .entry d (if crossing then w.cross c else c) := by
  have hdirectory : lookupDirectory d name = pure (some d) := by rw [lookupDirectory, if_neg hdots]
  rw [lookIn, if_neg hempty, if_neg hdot, hdirectory, pure_bind] at hsight
  simp only [Query.look_bind] at hsight
  obtain ⟨_, -, hsight⟩ := Query.result_bind_eq_ok.1 hsight
  obtain ⟨v, -, hsight⟩ := Query.result_bind_eq_ok.1 hsight
  simp only [Query.look_bind] at hsight
  obtain ⟨c, hc, hsight⟩ := Query.result_bind_eq_ok.1 hsight
  simp only [Query.world_bind] at hsight
  obtain ⟨_, -, hsight⟩ := Query.result_bind_eq_ok.1 hsight
  exact ⟨c, entry_of_locate h hd hdot hdots hc, (Except.ok.inj hsight).symm⟩

/-- A listed directory is reached by its name, and what is mounted on it in its place. -/
theorem resolveName_entry (t : TaskId) (he : w.Entry d name c)
    (hc : w.isDirectory (w.cross c) = true) :
    (resolveName (followFor t) d name .full w).result = .ok (w.cross c) := by
  rw [resolveName_eq_lookIn]
  exact Query.result_bind_eq_ok.2 ⟨_, lookIn_entry h he true, followFor_of_isDirectory t d hc⟩

theorem resolveIn_entry_plain (t : TaskId) (he : w.Entry d name c) :
    (resolveIn t d name .plain w).result = .ok c := by
  rw [resolveIn, resolveName_eq_lookIn]
  exact Query.result_bind_eq_ok.2 ⟨_, lookIn_entry h he false, rfl⟩

/-- The names of a visible directory lead to it. -/
theorem walk_visible (t : TaskId) {names : List String} (hv : w.Visible names d)
    (hd : w.isDirectory d = true) :
    (walk (followFor t) w.rootNode names w).result = .ok d := by
  induction hv with
  | root => rfl
  | child hv he ih =>
    rw [walk_append]
    refine Query.result_bind_eq_ok.2 ⟨_, ih (h.isDirectory_of_entry he), ?_⟩
    simpa [walk] using resolveName_entry h t he hd

theorem resolve_visible (t : TaskId) (start : Option NodeId) {names : List String}
    (hv : w.Visible names d) (hd : w.isDirectory d = true) :
    (resolve t start (absoluteText names) .full w).result = .ok d := by
  rw [resolve_absoluteText t start (hv.isEntryName h)]
  exact walk_visible h t hv hd

/-- Nothing listed leads to the root of everything. -/
theorem cross_ne_rootNode (he : w.Entry d name c) : w.cross c ≠ w.rootNode := by
  intro hroot
  have hv := h.rooted.rootVolume
  cases hmount : (w.node c).mountRoot with
  | none =>
    rw [cross, hmount, Option.getD_none] at hroot
    exact h.not_entry_root hv (hroot ▸ he)
  | some r =>
    rw [WellFormed.cross_of_mountRoot hmount] at hroot
    obtain ⟨v, hhas, hr, hpoint⟩ := h.mounted.covered c r hmount
    obtain rfl : v = w.rootVolume := by
      rw [← h.rooted.volume v hhas, hr, hroot, h.volume_rootNode]
    rw [h.mounted.root] at hpoint
    cases hpoint

omit h in
theorem Visible.eq_rootNode (hv : w.Visible [] d) : d = w.rootNode := by
  generalize hnone : [] = names at hv
  cases hv with
  | root => rfl
  | child => simp at hnone

/-- The root of everything is visible under no names but its own, which are none. -/
theorem Visible.eq_nil {names : List String} (hv : w.Visible names w.rootNode) : names = [] := by
  generalize hroot : w.rootNode = r at hv
  cases hv with
  | root => rfl
  | child hv he => exact absurd hroot.symm (cross_ne_rootNode h he)

end World

end VirtualFs
