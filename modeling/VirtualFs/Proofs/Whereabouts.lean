/-
Rebuilding a directory's path is the inverse of resolving it. A step of the
climb goes up through ".." and finds, in the directory it arrives at, the
entry that leads back down. The entry is known by its number where both are
on one volume, and by what is mounted on it where they are not; either way
what it finds stands for the directory the step came from, and where there
is something to find it finds that.
-/
import VirtualFs.Location
import VirtualFs.Proofs.Descent
import VirtualFs.Proofs.Reachable

namespace VirtualFs


/-! ## Reading a listing -/

namespace RamFs

variable {w : World} {dir : NodeId} (hram : (w.node dir).IsRam) (hdir : w.isDirectory dir = true)

include hram hdir

/-- After the directory itself and its parent come the children. -/
theorem nthEntry_child (index : Nat) :
    (nthEntry dir (index + 2) w).result =
      .ok ((w.children dir).entries[index]?.map fun e =>
        entryFor w (w.node dir).volumeId e.1 e.2) := by
  have hchildren : (childrenOf dir w).result = .ok (w.children dir) := by
    rw [childrenOf_apply hram, if_pos hdir]
  rw [nthEntry, Query.world_bind]
  exact Query.result_bind_eq_ok.2 ⟨_, hchildren, rfl⟩

variable {passes : DirEntry → Query Bool} {p : NodeId → Bool}
  (hname : ∀ name c, w.Entry dir name c → IsEntryName name)
  (hpasses : ∀ name c, w.Entry dir name c →
    (passes (entryFor w (w.node dir).volumeId name c) w).result = .ok (p c))

include hname hpasses

/-- A search from some child on finds the first one that passes, given a round for each child and
one to see that there are no more. -/
theorem findEntry_children (v : VolumeKey) {front rest : List (String × NodeId)}
    (hentries : (w.children dir).entries = front ++ rest) {rounds : Nat}
    (hrounds : rest.length < rounds) :
    (findEntry .ram v dir passes rounds (front.length + 2) w).result =
      .ok ((rest.find? fun e => p e.2).map Prod.fst) := by
  induction rest generalizing front rounds with
  | nil =>
    obtain ⟨rounds, rfl⟩ := Nat.exists_eq_add_one_of_ne_zero (Nat.ne_zero_of_lt hrounds)
    have hnone := nthEntry_child hram hdir front.length
    rw [hentries, List.append_nil, List.getElem?_length, Option.map_none] at hnone
    exact Query.result_bind_eq_ok.2 ⟨none, hnone, rfl⟩
  | cons e rest ih =>
    obtain ⟨name, c⟩ := e
    obtain ⟨rounds, rfl⟩ := Nat.exists_eq_add_one_of_ne_zero (Nat.ne_zero_of_lt hrounds)
    have hsplit : (w.children dir).entries = (front ++ [(name, c)]) ++ rest := by simp [hentries]
    have hentry : w.Entry dir name c := NameMap.mem_entries.1 (by simp [hentries])
    have hsome := nthEntry_child hram hdir front.length
    rw [hentries, List.getElem?_append_right (Nat.le_refl _), Nat.sub_self, List.getElem?_cons_zero,
      Option.map_some] at hsome
    refine Query.result_bind_eq_ok.2 ⟨_, hsome, ?_⟩
    dsimp only
    split
    · next hdots => exact absurd (.inr hdots) (hname name c hentry).not_dot
    · refine Query.result_bind_eq_ok.2 ⟨_, hpasses name c hentry, ?_⟩
      cases hp : p c with
      | true =>
        rw [List.find?_cons_of_pos (by exact hp)]
        rfl
      | false =>
        rw [List.find?_cons_of_neg (by simp [hp])]
        have hrest := ih hsplit (Nat.lt_of_succ_lt_succ hrounds)
        rwa [List.length_append, List.length_singleton, Nat.add_right_comm] at hrest

/-- A search finds the first child that passes. More rounds than `entryBound` gives it do not find
anything else. -/
theorem findEntry_result (v : VolumeKey) {rounds : Nat} (hrounds : entryBound w dir ≤ rounds) :
    (findEntry .ram v dir passes rounds 0 w).result =
      .ok (((w.children dir).entries.find? fun e => p e.2).map Prod.fst) := by
  rw [entryBound, ← World.children, NameMap.size] at hrounds
  obtain ⟨rounds, rfl⟩ : ∃ more, rounds = more + 2 := ⟨rounds - 2, by omega⟩
  have hchildren : (w.children dir).entries.length < rounds := by omega
  have hrest := findEntry_children hram hdir hname hpasses v (List.nil_append _).symm hchildren
  refine Query.result_bind_eq_ok.2 ⟨_, rfl, ?_⟩
  refine Query.result_bind_eq_ok.2 ⟨some (entryFor w (w.node dir).volumeId ".." (w.up dir)), ?_, ?_⟩
  · rw [OpsKind.entry]
    show (nthEntry dir 1 w).result = _
    rw [nthEntry, Query.world_bind]
    exact Query.result_bind_eq_ok.2 ⟨_, by rw [containerOf_apply hram], rfl⟩
  · exact hrest

end RamFs

/-! ## The entry that leads down -/

namespace World

/-- Whether an entry of `parent` leads to `child`, as it is read off the world. -/
def leadsTo (w : World) (parent child c : NodeId) : Bool :=
  if (w.node child).volumeId = (w.node parent).volumeId then (w.node c).ino == (w.node child).ino
  else (w.node c).mountRoot.any fun root => w.sameIdentity root child

/-- The name of the first entry of `parent` that leads to `child`. -/
def nameOf (w : World) (parent child : NodeId) : Option String :=
  ((w.children parent).entries.find? fun e => w.leadsTo parent child e.2).map Prod.fst

variable {w : World} (h : w.WellFormed) {parent child n c c' r : NodeId} {name name' : String}

include h

/-- What leads to a child stands for it. -/
theorem cross_eq_of_leadsTo (hchild : w.Live child) (he : w.Entry parent name c)
    (hleads : w.leadsTo parent child c = true) : w.cross c = w.cross child := by
  rw [leadsTo] at hleads
  split at hleads
  · next hvolume =>
    have hc := h.linked.live _ _ _ he
    have hsame := (h.volume_eq_iff hc hchild).2 ((h.volumeId_of_entry he).trans hvolume.symm)
    rw [h.numbered.ino_inj c child hc hchild hsame (beq_iff_eq.1 hleads)]
  · obtain ⟨r, hr, hsame⟩ := (Option.any_eq_true _ _).1 hleads
    obtain rfl := (h.sameIdentity_iff (h.live_mountRoot hr) hchild).1 hsame
    rw [← WellFormed.cross_of_mountRoot hr, h.cross_cross]

/-- Of the entries of a directory one leads to what is seen at an entry, and that is the entry
itself. -/
theorem leadsTo_cross_iff (he : w.Entry parent name c) (he' : w.Entry parent name' c') :
    w.leadsTo parent (w.cross c) c' = true ↔ c' = c := by
  rw [leadsTo]
  cases hr : (w.node c).mountRoot with
  | none =>
    have hself : w.cross c = c := by rw [cross, hr, Option.getD_none]
    rw [hself, if_pos (h.volumeId_of_entry he), beq_iff_eq]
    have hvolume := (h.volume_of_entry he').trans (h.volume_of_entry he).symm
    refine ⟨h.numbered.ino_inj c' c (h.linked.live _ _ _ he') (h.linked.live _ _ _ he) hvolume, ?_⟩
    intro heq
    subst heq
    rfl
  | some r =>
    have hlt := h.volumeId_lt_of_mountRoot hr
    rw [h.volumeId_of_entry he] at hlt
    rw [WellFormed.cross_of_mountRoot hr, if_neg (Nat.ne_of_gt hlt), Option.any_eq_true]
    constructor
    · intro hfound
      obtain ⟨r', hr', hsame⟩ := hfound
      rw [h.sameIdentity_iff (h.live_mountRoot hr') (h.live_mountRoot hr)] at hsame
      exact h.mountRoot_inj (hsame ▸ hr') hr
    · intro heq
      subst heq
      exact ⟨r, hr, (h.sameIdentity_iff (h.live_mountRoot hr) (h.live_mountRoot hr)).2 rfl⟩

omit h in
/-- What is found is listed and leads to what was looked for. -/
theorem entry_of_nameOf (hname : w.nameOf parent child = some name) :
    ∃ c, w.Entry parent name c ∧ w.leadsTo parent child c = true := by
  obtain ⟨e, hfind, rfl⟩ := Option.map_eq_some_iff.1 hname
  have hleads : w.leadsTo parent child e.2 = true :=
    List.find?_some (p := fun e : String × NodeId => w.leadsTo parent child e.2) hfind
  exact ⟨e.2, NameMap.mem_entries.1 (List.mem_of_find?_eq_some hfind), hleads⟩

/-- What a directory lists is found there under its name. -/
theorem nameOf_cross (he : w.Entry parent name c) : w.nameOf parent (w.cross c) = some name := by
  cases hname : w.nameOf parent (w.cross c) with
  | none =>
    rw [nameOf, Option.map_eq_none_iff, List.find?_eq_none] at hname
    exact absurd ((leadsTo_cross_iff h he he).2 rfl) (hname (name, c) (NameMap.mem_entries.2 he))
  | some other =>
    obtain ⟨c', he', hleads⟩ := entry_of_nameOf hname
    obtain rfl := (leadsTo_cross_iff h he he').1 hleads
    rw [(h.entry_unique he' he).2]

/-! ## Searching for a directory in its parent -/

theorem leadsTo_result (t : TaskId) (he : w.Entry parent name c) :
    (VirtualFs.leadsTo t parent child (RamFs.entryFor w (w.node parent).volumeId name c) w).result =
      .ok (w.leadsTo parent child c) := by
  rw [VirtualFs.leadsTo, Query.world_bind, leadsTo]
  split
  · rfl
  · exact Query.result_bind_eq_ok.2 ⟨c, resolveIn_entry_plain h t he, rfl⟩

/-- The search ends by what is listed and not by its bound. -/
theorem findEntry_leadsTo (t : TaskId) (hparent : w.isDirectory parent = true) (v : VolumeKey)
    {rounds : Nat} (hrounds : entryBound w parent ≤ rounds) :
    (findEntry .ram v parent (VirtualFs.leadsTo t parent child) rounds 0 w).result =
      .ok (w.nameOf parent child) :=
  RamFs.findEntry_result (h.ram parent (live_of_isDirectory hparent)) hparent
    (fun _ _ he => h.linked.name _ _ _ he) (fun _ _ he => leadsTo_result h t he) v hrounds

theorem searchEntry_result (t : TaskId) (hparent : w.isDirectory parent = true) (v : VolumeKey) :
    (searchEntry t .ram v parent child w).result =
      (w.nameOf parent child).elim (.error .notFound) .ok := by
  rw [searchEntry, Query.look_bind, Query.result_bind,
    findEntry_leadsTo h t hparent v (Nat.le_refl _), Except.bind]
  cases w.nameOf parent child with
  | none => rfl
  | some name => rfl

theorem opsOf_result (hn : w.isDirectory n = true) : (opsOf n w).result = .ok .ram :=
  opsOf_eq_ok.2 ((h.ram n (live_of_isDirectory hn)).ops_of_isDirectory hn)

theorem openListing_result (hn : w.isDirectory n = true) :
    ∃ listing, (openListing n w).result = .ok listing := by
  refine ⟨.directory n ⟨OpenFlags.directoryBit⟩, ?_⟩
  rw [openListing]
  refine Query.result_bind_eq_ok.2 ⟨_, opsOf_result h hn, ?_⟩
  refine Query.result_bind_eq_ok.2 ⟨_, h.volumeOf_result (live_of_isDirectory hn), ?_⟩
  rw [Query.look_bind]
  refine Query.result_bind_eq_ok.2 ⟨(), Query.result_demand_eq_ok.2 hn, ?_⟩
  rfl

/-- A directory is found in its parent under the name of the entry that leads to it. -/
theorem entryName_result (t : TaskId) (hparent : w.isDirectory parent = true) (child : NodeId) :
    (entryName t parent child w).result =
      (w.nameOf parent child).elim (.error .notFound) .ok := by
  obtain ⟨listing, hlisting⟩ := openListing_result h hparent
  rw [entryName, Query.result_bind, opsOf_result h hparent, Except.bind, Query.result_bind,
    h.volumeOf_result (live_of_isDirectory hparent), Except.bind, Query.result_bind, hlisting,
    Except.bind, Query.result_andFinally (closeFile_result none listing)]
  exact searchEntry_result h t hparent _

omit h in
theorem isDirectory_of_entryName {t : TaskId}
    (hname : (entryName t parent child w).result = .ok name) :
    w.isDirectory parent = true := by
  obtain ⟨ops, -, hname⟩ := Query.result_bind_eq_ok.1 hname
  obtain ⟨v, -, hname⟩ := Query.result_bind_eq_ok.1 hname
  obtain ⟨listing, hlisting, -⟩ := Query.result_bind_eq_ok.1 hname
  obtain ⟨ops, -, hlisting⟩ := Query.result_bind_eq_ok.1 hlisting
  obtain ⟨v, -, hlisting⟩ := Query.result_bind_eq_ok.1 hlisting
  rw [Query.look_bind] at hlisting
  obtain ⟨u, hdir, -⟩ := Query.result_bind_eq_ok.1 hlisting
  exact Query.result_demand_eq_ok.1 hdir

/-! ## Going up across mounts -/

/-- Where a way up starts: below the root of a mounted volume it is the mount point. -/
def foothold (w : World) (d : NodeId) : Option NodeId :=
  if d = (w.volume (w.node d).volume).root then w.mountPoint (w.node d).volume else some d

omit h in
theorem foothold_of_eq_root {v : VolumeKey} (hv : (w.node (w.volume v).root).volume = v) :
    w.foothold (w.volume v).root = w.mountPoint v := by
  rw [foothold, hv, if_pos rfl]

theorem lookupDirectory_dots (hn : w.Live n) :
    (lookupDirectory n ".." w).result =
      if n = w.rootNode then .ok none
      else (w.foothold n).elim (.error .notFound) (.ok ∘ some) := by
  have hsame := h.sameIdentity_iff hn (h.rooted.live _ (h.numbered.volume n hn))
  rw [lookupDirectory, if_pos rfl, Query.result_bind, h.volumeOf_result hn, Except.bind,
    Query.world_bind, foothold]
  by_cases hroot : n = (w.volume (w.node n).volume).root
  · rw [if_pos (hsame.2 hroot), if_pos hroot]
    by_cases hid : (w.volume (w.node n).volume).id = rootVolumeId
    · rw [if_pos hid, if_pos ((h.eq_rootNode_iff hn).2 ⟨hroot, hid⟩)]
      rfl
    · rw [if_neg hid, if_neg fun heq => hid ((h.eq_rootNode_iff hn).1 heq).2]
      cases w.mountPoint (w.node n).volume with
      | none => rfl
      | some p => rfl
  · rw [if_neg fun heq => hroot (hsame.1 heq), if_neg hroot,
      if_neg fun heq => hroot ((h.eq_rootNode_iff hn).1 heq).1]
    rfl

omit h in
theorem live_foothold {p : NodeId} (hn : w.Live n) (hp : w.foothold n = some p) : w.Live p := by
  rw [foothold] at hp
  split at hp
  · exact WellFormed.live_mountPoint hp
  · cases hp
    exact hn

theorem isDirectory_up (hdir : w.isDirectory n = true) : w.isDirectory (w.up n) = true := by
  rcases hangs_or_up_eq w n with hangs | ⟨heq, -⟩
  · exact h.linked.isDirectory n _ hangs
  · rwa [heq]

/-- A look up leads to the directory above where the way up starts, or to what is mounted on it. -/
theorem lookIn_dots (hn : w.Live n) (crossing : Bool) :
    (lookIn n ".." crossing w).result =
      if n = w.rootNode then .ok (.here n)
      else (w.foothold n).elim (.error .notFound) fun p =>
        if w.isDirectory p then .ok (.entry p (if crossing then w.cross (w.up p) else w.up p))
        else .error .notADirectory := by
  rw [lookIn, if_neg (by decide), if_neg (by decide), Query.result_bind, lookupDirectory_dots h hn]
  split
  · rfl
  cases hp : w.foothold n with
  | none => rfl
  | some p =>
    have hlive := live_foothold hn hp
    simp only [Option.elim_some, Function.comp, Except.bind, Query.look_bind, Query.result_bind,
      Query.result_demand]
    cases w.isDirectory p with
    | true =>
      simp only [if_true, h.volumeOf_result hlive, locate_dots h hlive]
      rfl
    | false => rfl

/-- The parent of a directory is what a look up leads to. It is no link. -/
theorem resolveIn_dots_seen (t : TaskId) (flags : LookupMode) (hn : w.Live n) :
    (resolveIn t n ".." flags w).result =
      if n = w.rootNode then .ok n
      else (w.foothold n).elim (.error .notFound) fun p =>
        if w.isDirectory p then .ok (if flags.crossMounts then w.cross (w.up p) else w.up p)
        else .error .notADirectory := by
  rw [resolveIn, resolveName_eq_lookIn, Query.result_bind, lookIn_dots h hn]
  split
  · rfl
  cases w.foothold n with
  | none => rfl
  | some p =>
    rw [Option.elim_some, Option.elim_some]
    cases hdir : w.isDirectory p with
    | true =>
      have hup := isDirectory_up h hdir
      have hseen :
          w.isDirectory (if flags.crossMounts then w.cross (w.up p) else w.up p) = true := by
        split
        · exact h.isDirectory_cross hup
        · exact hup
      simp only [if_true, Except.bind]
      cases flags.followLinks with
      | true => exact followFor_of_isDirectory t p hseen
      | false => rfl
    | false => rfl

theorem resolveIn_dots (t : TaskId) (hn : w.Live n) :
    (resolveIn t n ".." .crossOnly w).result =
      if n = w.rootNode then .ok n
      else (w.foothold n).elim (.error .notFound) fun p =>
        if w.isDirectory p then .ok (w.cross (w.up p)) else .error .notADirectory :=
  resolveIn_dots_seen h t .crossOnly hn

/-- A step up comes to a directory that nothing covers. -/
theorem resolveIn_dots_yields (t : TaskId) (hn : w.Live n) :
    (resolveIn t n ".." .crossOnly).Yields w fun p => w.Live p ∧ w.cross p = p := by
  intro parent hparent
  rw [resolveIn_dots h t hn] at hparent
  split at hparent
  · next hroot =>
    cases hparent
    rw [hroot]
    exact ⟨h.live_root, h.cross_root⟩
  · cases hp : w.foothold n with
    | none =>
      rw [hp] at hparent
      cases hparent
    | some p =>
      rw [hp, Option.elim_some] at hparent
      split at hparent
      · cases hparent
        exact ⟨h.live_cross (live_foothold hn hp).up, h.cross_cross _⟩
      · cases hparent

/-- The way up from what is seen at an entry starts at the entry. -/
theorem foothold_cross (he : w.Entry parent name c) : w.foothold (w.cross c) = some c := by
  have hlive := h.linked.live _ _ _ he
  cases hr : (w.node c).mountRoot with
  | none =>
    have hroot : c ≠ (w.volume (w.node c).volume).root := fun heq =>
      h.not_entry_root (h.numbered.volume c hlive) (heq ▸ he)
    rw [cross, hr, Option.getD_none, foothold, if_neg hroot]
  | some r =>
    obtain ⟨v, hv, rfl, hpoint⟩ := h.mounted.covered c r hr
    have hhas : w.nodes.has c = true := hlive
    rw [WellFormed.cross_of_mountRoot hr, foothold_of_eq_root (h.rooted.volume v hv), mountPoint,
      hpoint]
    simp [hhas, hr]

/-- From what is seen at an entry of an uncovered directory a step up leads to the directory. -/
theorem resolveIn_dots_cross (t : TaskId) (he : w.Entry parent name c)
    (hc : w.isDirectory (w.cross c) = true) (hparent : w.cross parent = parent) :
    (resolveIn t (w.cross c) ".." .crossOnly w).result = .ok parent := by
  have hlive := h.linked.live _ _ _ he
  have hdir : w.isDirectory c = true := by
    cases hr : (w.node c).mountRoot with
    | none => rwa [cross, hr, Option.getD_none] at hc
    | some r => exact h.mounted.isDirectory c r hr
  rw [resolveIn_dots h t (h.live_cross hlive), if_neg (cross_ne_rootNode h he), foothold_cross h he,
    Option.elim_some, if_pos hdir, up_eq_of_hangs (h.hangs_of_entry he), hparent]

/-! ## Climbing -/

/-- A step of the climb comes to a directory that nothing covers, and the name found there leads
back to what the step came from. -/
theorem step_sound (t : TaskId) (hn : w.Live n)
    (hparent : (resolveIn t n ".." .crossOnly w).result = .ok parent)
    (hname : (entryName t parent n w).result = .ok name) :
    w.Live parent ∧ w.cross parent = parent ∧
      ∃ c, w.Entry parent name c ∧ w.cross c = w.cross n := by
  obtain ⟨hlive, hself⟩ := resolveIn_dots_yields h t hn parent hparent
  have hlisted := entryName_result h t (isDirectory_of_entryName hname) n
  rw [hname] at hlisted
  refine ⟨hlive, hself, ?_⟩
  cases hfound : w.nameOf parent n with
  | none =>
    rw [hfound] at hlisted
    cases hlisted
  | some found =>
    rw [hfound] at hlisted
    cases hlisted
    obtain ⟨c, he, hleads⟩ := entry_of_nameOf hfound
    exact ⟨c, he, cross_eq_of_leadsTo h hn he hleads⟩

/-- A finished climb has passed through names that lead down to where it began, and stayed within
the room it was given. -/
theorem climb_sound (t : TaskId) {room : Nat} {below path : String} (hn : w.Live n)
    (hpath : (climb t room n below w).result = .ok path) :
    ∃ names, names ≠ [] ∧ w.Visible names (w.cross n) ∧ path = joinNames names ++ below ∧
      (joinNames names).utf8ByteSize ≤ room := by
  -- Every name takes room, so the climb from the parent has less of it.
  induction room using Nat.strong_induction_on generalizing n below with
  | _ room ih =>
    rw [climb] at hpath
    obtain ⟨parent, hparent, hpath⟩ := Query.result_bind_eq_ok.1 hpath
    obtain ⟨name, hname, hpath⟩ := Query.result_bind_eq_ok.1 hpath
    obtain ⟨hlive, hself, c, he, hcross⟩ := step_sound h t hn hparent hname
    split at hpath
    · next hroom =>
      rw [Query.look_bind] at hpath
      split at hpath
      · next hroot =>
        cases hpath
        obtain rfl := (h.sameIdentity_iff hlive h.live_root).1 hroot
        refine ⟨[name], List.cons_ne_nil _ _, ?_, ?_, ?_⟩
        · rw [← hcross]
          exact .child .root he
        · rw [joinNames_singleton]
        · rwa [joinNames_singleton, utf8ByteSize_slash_append]
      · obtain ⟨names, -, hvisible, hbelow, hsize⟩ := ih _ (by omega) hlive hpath
        rw [hself] at hvisible
        refine ⟨names ++ [name], by simp, ?_, ?_, ?_⟩
        · rw [← hcross]
          exact hvisible.child he
        · rw [hbelow, joinNames_append, joinNames_singleton, ← String.append_assoc]
        · rw [utf8ByteSize_joinNames_snoc]
          omega
    · cases hpath

/-- A climb from a visible directory passes through its names, and fails only for want of room. -/
theorem climb_visible (t : TaskId) {names : List String} (hv : w.Visible names n)
    (hn : w.isDirectory n = true) (hne : names ≠ []) (room : Nat) (below : String) :
    (climb t room n below w).result =
      if (joinNames names).utf8ByteSize ≤ room then .ok (joinNames names ++ below)
      else .error .nameTooLong := by
  induction hv generalizing room below with
  | root => exact absurd rfl hne
  | @child names parent name c hv he ih =>
    have hparent := h.isDirectory_of_entry he
    have hfound : (entryName t parent (w.cross c) w).result = .ok name := by
      rw [entryName_result h t hparent, nameOf_cross h he, Option.elim_some]
    have hsize := utf8ByteSize_joinNames_snoc names name
    rw [climb, Query.result_bind, resolveIn_dots_cross h t he hn (hv.cross_eq h), Except.bind,
      Query.result_bind, hfound, Except.bind]
    split
    · next hroom =>
      rw [Query.look_bind]
      split
      · next hroot =>
        obtain rfl := (h.sameIdentity_iff (hv.live h) h.live_root).1 hroot
        obtain rfl := hv.eq_nil h
        rw [List.nil_append, joinNames_singleton, utf8ByteSize_slash_append, if_pos hroom]
        rfl
      · next hroot =>
        have hne : names ≠ [] := fun hnone => hroot <|
          (h.sameIdentity_iff (hv.live h) h.live_root).2 (Visible.eq_rootNode (hnone ▸ hv))
        have hpath : joinNames names ++ ("/" ++ name ++ below) =
            joinNames (names ++ [name]) ++ below := by
          rw [joinNames_append, joinNames_singleton, ← String.append_assoc]
        have hfits : (joinNames names).utf8ByteSize ≤ room - (name.utf8ByteSize + 1) ↔
            (joinNames (names ++ [name])).utf8ByteSize ≤ room := by omega
        rw [ih hparent hne, hpath]
        simp only [hfits]
    · next hroom =>
      rw [if_neg (by omega)]
      rfl

end World

open World (Visible)

variable {w : World}

/-- What is rebuilt for a directory: "/" for the root of everything, a climb for any other. -/
theorem absolutePath_result (h : w.WellFormed) {d : NodeId} (hd : w.Live d) (t : TaskId)
    (capacity : Nat) :
    (absolutePath t d capacity w).result =
      let room := min capacity w.limits.pathLength
      if d = w.rootNode then if 1 ≤ room then .ok "/" else .error .nameTooLong
      else (climb t room d "" w).result := by
  have hroot := h.sameIdentity_iff hd h.live_root
  rw [absolutePath, Query.world_bind]
  by_cases heq : d = w.rootNode
  · rw [if_pos (hroot.2 heq)]
    simp only [if_pos heq, Query.result_bind, Query.result_demand]
    split
    · rfl
    · rfl
  · rw [if_neg fun hsame => heq (hroot.1 hsame)]
    simp only [if_neg heq]

/-- A path that is rebuilt is that of names that lead to the directory, or to what is mounted on
it. -/
theorem absolutePath_sound (h : w.WellFormed) {d : NodeId} (hd : w.Live d) {t : TaskId}
    {capacity : Nat} {path : String} (hpath : (absolutePath t d capacity w).result = .ok path) :
    ∃ names, w.Visible names (w.cross d) ∧ path = absoluteText names ∧
      path.utf8ByteSize ≤ min capacity w.limits.pathLength := by
  rw [absolutePath_result h hd] at hpath
  dsimp only at hpath
  split at hpath
  · next hroot =>
    split at hpath
    · next hroom =>
      cases hpath
      rw [hroot, h.cross_root]
      exact ⟨[], .root, rfl, hroom⟩
    · cases hpath
  · obtain ⟨names, hne, hvisible, rfl, hsize⟩ := World.climb_sound h t hd hpath
    rw [String.append_empty]
    exact ⟨names, hvisible, by rw [absoluteText, if_neg hne], hsize⟩

/-- The path of a visible directory is that of the names that lead to it. -/
theorem absolutePath_visible (h : w.WellFormed) {d : NodeId} (hd : w.isDirectory d = true)
    (t : TaskId) (capacity : Nat) {names : List String} (hv : w.Visible names d) :
    (absolutePath t d capacity w).result =
      if (absoluteText names).utf8ByteSize ≤ min capacity w.limits.pathLength then
        .ok (absoluteText names)
      else .error .nameTooLong := by
  rw [absolutePath_result h (World.live_of_isDirectory hd)]
  dsimp only
  split
  · next hroot =>
    subst hroot
    obtain rfl := hv.eq_nil h
    rfl
  · next hroot =>
    have hne : names ≠ [] := fun hnone => hroot (Visible.eq_rootNode (hnone ▸ hv))
    rw [World.climb_visible h t hv hd hne, String.append_empty, absoluteText, if_neg hne]

/-- **Rebuilding a path is the inverse of resolving it.** In every reachable world a path that is
rebuilt for a directory is absolute, fits, and leads back to the directory, or to what is mounted on
it. A directory that names lead to has the path of those names, and no other answer than that it is
too long. The searches on the way end with what is listed: more rounds than they get would not
change what they find. -/
theorem absolutePath_inverse (hw : w.Reachable) {d : NodeId} (hd : w.isDirectory d = true)
    (t : TaskId) (capacity : Nat) :
    (∀ path, (absolutePath t d capacity w).result = .ok path →
      path.toList.head? = some '/' ∧ path.utf8ByteSize ≤ min capacity w.limits.pathLength ∧
        ∀ u start, (resolve u start path .full w).result = .ok (w.cross d)) ∧
    (∀ names, w.Visible names d →
      (absolutePath t d capacity w).result =
        if (absoluteText names).utf8ByteSize ≤ min capacity w.limits.pathLength then
          .ok (absoluteText names)
        else .error .nameTooLong) ∧
    ∀ child ops v rounds, (w.node d).ops = some ops → entryBound w d ≤ rounds →
      (findEntry ops v d (leadsTo t d child) rounds 0 w).result =
        (findEntry ops v d (leadsTo t d child) (entryBound w d) 0 w).result := by
  have h := hw.wellFormed
  have hlive := World.live_of_isDirectory hd
  refine ⟨fun path hpath => ?_, fun names hv => absolutePath_visible h hd t capacity hv, ?_⟩
  · obtain ⟨names, hv, rfl, hsize⟩ := absolutePath_sound h hlive hpath
    exact ⟨head?_absoluteText names, hsize, fun u start =>
      World.resolve_visible h u start hv (h.isDirectory_cross hd)⟩
  · intro child ops v rounds hops hrounds
    obtain rfl : ops = .ram :=
      Option.some.inj (hops.symm.trans ((h.ram d hlive).ops_of_isDirectory hd))
    rw [World.findEntry_leadsTo h t hd v hrounds, World.findEntry_leadsTo h t hd v (Nat.le_refl _)]

/-- A volume mounted in a volume, and the directory that holds them both renamed. -/
def World.stacked : World :=
  Operation.runAll
    [.addTask 0, .makeDirectory 0 none "/a" 0o755, .makeDirectory 0 none "/a/b" 0o755,
      .mount 0 "none" "/a/b" "tmpfs" {} "", .makeDirectory 0 none "/a/b/c" 0o755,
      .mount 0 "none" "/a/b/c" "tmpfs" {} "", .makeDirectory 0 none "/a/b/c/d" 0o755,
      .changeDirectory 0 "/a/b/c/d", .rename 0 none "/a" none "/z"]
    (World.fresh {})

theorem absolutePath_inverse_of_mounts :
    (World.stacked.Reachable ∧ World.stacked.isDirectory 7 = true ∧
      World.stacked.isDirectory 3 = true) ∧
    ((absolutePath 0 7 64 World.stacked).result = .ok "/z/b/c/d" ∧
      ∀ u start, (resolve u start "/z/b/c/d" .full World.stacked).result = .ok 7) ∧
    ((absolutePath 0 3 64 World.stacked).result = .ok "/z/b" ∧
      ∀ u start, (resolve u start "/z/b" .full World.stacked).result = .ok 4) := by
  have hreachable : World.stacked.Reachable := ⟨{}, World.steps_runAll _ _⟩
  have hdir : World.stacked.isDirectory 7 = true := by decide +kernel
  have hcovered : World.stacked.isDirectory 3 = true := by decide +kernel
  have hpath : (absolutePath 0 7 64 World.stacked).result = .ok "/z/b/c/d" := by decide +kernel
  have hpoint : (absolutePath 0 3 64 World.stacked).result = .ok "/z/b" := by decide +kernel
  have hcross : World.stacked.cross 7 = 7 := by decide +kernel
  have hroot : World.stacked.cross 3 = 4 := by decide +kernel
  refine ⟨⟨hreachable, hdir, hcovered⟩, ⟨hpath, ?_⟩, hpoint, ?_⟩
  · rw [← hcross]
    exact ((absolutePath_inverse hreachable hdir 0 64).1 _ hpath).2.2
  · rw [← hroot]
    exact ((absolutePath_inverse hreachable hcovered 0 64).1 _ hpoint).2.2

end VirtualFs
