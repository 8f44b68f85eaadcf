/-
What is in the way of making a file. An open that may make the file its path
names takes a name that leads to nothing for one that is free. A link whose
target is missing has such a name, but its directory lists it; so the file
cannot be made, and the open fails as if it had asked for a new file.
-/
import VirtualFs.Proofs.LookupFailures
import VirtualFs.Proofs.NodeOpens
import VirtualFs.Proofs.StreamRuns

namespace VirtualFs

/-- A directory lists a link under a name, and nothing is found when the link is followed. -/
structure World.Dangling (w : World) (t : TaskId) (d : NodeId) (name : String) : Prop where
  link : ∃ link, w.Entry d name link ∧ w.isSymlink link = true
  missing : (resolveIn t d name .full w).result = .error .notFound

theorem checkName_ne_alreadyExists (name : String) : checkName name ≠ .error .alreadyExists := by
  rw [checkName]
  intro he
  split at he
  · cases he
  · split at he <;> cases he

section

variable {w : World} {t : TaskId} {n d : NodeId} {name : String} {flags : OpenFlags}

/-- Operations refuse their node only if they follow a script, and for its cause. -/
theorem OpsKind.lets_eq_error {ops : OpsKind} {e : Error} (he : ops.lets = .error e) :
    ∃ meter script, ops = .scripted meter script ∧ script.fault? .opening = some e := by
  cases ops with
  | ram | bare => cases he
  | scripted meter script =>
    refine ⟨meter, script, rfl, ?_⟩
    rw [lets, Script.pass] at he
    split at he
    · next hfault =>
      cases he
      exact hfault
    · cases he

/-- Only operations of its own may say of a node that it is there already. -/
theorem scripted_of_opensAs (hopens : w.opensAs n flags = .error .alreadyExists) :
    ∃ meter script, (w.node n).ops = some (.scripted meter script) ∧
      script.fault? .opening = some .alreadyExists := by
  rw [World.opensAs] at hopens
  split at hopens
  · cases hopens
  split at hopens
  · cases hopens
  split at hopens
  · cases hopens
  next ops hops =>
  split at hopens
  · split at hopens <;> cases hopens
  split at hopens
  · cases hopens
  split at hopens
  · cases hopens
  cases hlets : ops.lets with
  | ok u =>
    rw [hlets] at hopens
    cases hopens
  | error e =>
    rw [hlets] at hopens
    cases hopens
    obtain ⟨meter, script, rfl, hfault⟩ := OpsKind.lets_eq_error hlets
    exact ⟨meter, script, hops, hfault⟩

variable (h : w.WellFormed)

include h

/-- A file cannot be made for being there already exactly where a directory that may be written to
lists the name. -/
theorem makesFile_alreadyExists : w.makesFile d name flags = .error .alreadyExists ↔
    (∃ c, w.Entry d name c) ∧ (w.volume (w.node d).volume).flags.isReadOnly = false := by
  rw [World.makesFile]
  constructor
  · intro hexists
    cases hname : checkName name with
    | error e =>
      rw [hname] at hexists
      cases hexists
      exact absurd hname (checkName_ne_alreadyExists name)
    | ok u =>
      rw [hname] at hexists
      replace hexists : (if (w.volume (w.node d).volume).flags.isReadOnly then
        .error .readOnly else if w.isDirectory d then
          if (w.children d).contains name then .error .alreadyExists
          else .ok (.stream w.nodes.nextKey flags)
        else .error .notADirectory : Except Error OpenFile) = .error .alreadyExists := hexists
      split at hexists
      · cases hexists
      · next hwritable =>
        split at hexists
        · split at hexists
          · next hlisted =>
            exact ⟨Option.isSome_iff_exists.1 hlisted, Bool.eq_false_of_not_eq_true hwritable⟩
          · cases hexists
        · cases hexists
  · rintro ⟨⟨c, hentry⟩, hwritable⟩
    have hlisted : (w.children d).contains name = true := Option.isSome_iff_exists.2 ⟨c, hentry⟩
    rw [(h.linked.name d name c hentry).checked, hwritable, h.isDirectory_of_entry hentry, hlisted]
    rfl

/-- A name that is listed leads to nothing only if it is that of a link, and followed. -/
theorem dangling_of_missing {c : NodeId} (hentry : w.Entry d name c)
    (hmissing : (resolveIn t d name (openLookup flags) w).result = .error .notFound) :
    flags.nofollow = false ∧ w.Dangling t d name := by
  have hopened := resolveIn_opened h t hentry flags
  cases hnofollow : flags.nofollow with
  | true =>
    rw [hnofollow, if_pos rfl, hmissing] at hopened
    cases hopened
  | false =>
    rw [hnofollow, if_neg Bool.false_ne_true, hmissing] at hopened
    rw [openLookup, hnofollow, if_neg Bool.false_ne_true] at hmissing
    have hlink : w.isSymlink (w.cross c) = true := by
      by_contra hno
      rw [World.followFor_of_no_link t d (Bool.eq_false_of_not_eq_true hno)] at hopened
      cases hopened
    -- Nothing is mounted on a link, and no root is one.
    have hplain : w.isDirectory c = false := by
      refine Bool.eq_false_of_not_eq_true fun hdir => ?_
      rw [World.isSymlink_of_isDirectory (h.isDirectory_cross hdir)] at hlink
      cases hlink
    have hself : w.cross c = c := by
      rw [World.cross, h.mountRoot_of_not_isDirectory hplain, Option.getD_none]
    exact ⟨rfl, ⟨⟨c, hentry, hself ▸ hlink⟩, hmissing⟩⟩

/-- What an open that may make its file, and need not, finds to be there already. -/
theorem openName_alreadyExists (hd : w.Known d) (mode : UInt32) (hcreates : flags.creates = true)
    (hshared : flags.exclusive = false) :
    (openName t d name flags mode w).result = .error .alreadyExists ↔
      (flags.nofollow = false ∧ w.Dangling t d name ∧
        (w.volume (w.node d).volume).flags.isReadOnly = false) ∨
      ∃ n, (resolveIn t d name (openLookup flags) w).result = .ok n ∧
        w.opensAs n flags = .error .alreadyExists := by
  rw [openName_result h t hd]
  cases hfound : (resolveIn t d name (openLookup flags) w).result with
  | ok n =>
    simp only [hcreates, hshared, Bool.and_false, Bool.false_eq_true, if_false, Except.ok.injEq,
      exists_eq_left']
    refine ⟨.inr, fun hcases => hcases.resolve_left ?_⟩
    rintro ⟨hnofollow, hdangling, -⟩
    rw [openLookup, hnofollow, if_neg Bool.false_ne_true, hdangling.missing] at hfound
    cases hfound
  | error e =>
    have hends := resolveIn_blames h t d name _ e hfound
    simp only [hcreates, and_true, reduceCtorEq, false_and, exists_false, or_false]
    split
    · next hmissing =>
      subst hmissing
      rw [makesFile_alreadyExists h]
      constructor
      · rintro ⟨⟨c, hentry⟩, hwritable⟩
        obtain ⟨hnofollow, hdangling⟩ := dangling_of_missing h hentry hfound
        exact ⟨hnofollow, hdangling, hwritable⟩
      · rintro ⟨-, hdangling, hwritable⟩
        obtain ⟨link, hentry, -⟩ := hdangling.link
        exact ⟨⟨link, hentry⟩, hwritable⟩
    · next hother =>
      constructor
      · intro he
        cases he
        exact absurd hends (by decide)
      · rintro ⟨hnofollow, hdangling, -⟩
        refine absurd ?_ hother
        rw [openLookup, hnofollow, if_neg Bool.false_ne_true, hdangling.missing] at hfound
        exact (Except.error.inj hfound).symm

/-- An open looks for the directory first, and for that it never fails in this way. -/
theorem pathOpening_alreadyExists (base : Option Handle) (path : String) (mode : UInt32)
    (hcreates : flags.creates = true) (hshared : flags.exclusive = false) :
    (pathOpening t base path flags mode w).result = .error .alreadyExists ↔
      ∃ d name, (resolveTarget t base path w).result = .ok (d, name) ∧
        ((flags.nofollow = false ∧ w.Dangling t d name ∧
            (w.volume (w.node d).volume).flags.isReadOnly = false) ∨
          ∃ n, (resolveIn t d name (openLookup flags) w).result = .ok n ∧
            w.opensAs n flags = .error .alreadyExists) := by
  rw [pathOpening_result]
  cases hfound : (resolveTarget t base path w).result with
  | error e =>
    have hends := resolveTarget_blames h t base path e hfound
    constructor
    · intro he
      cases he
      exact absurd hends (by decide)
    · rintro ⟨d, name, hok, -⟩
      cases hok
  | ok found =>
    have hknown := (h.sound.resolveTarget_yields t base path found hfound).1
    rw [Except.bind, openName_alreadyExists h hknown mode hcreates hshared]
    constructor
    · exact fun hcases => ⟨found.1, found.2, rfl, hcases⟩
    · rintro ⟨d, name, hsame, hcases⟩
      cases hsame
      exact hcases

end

/-- **An open that need not make its file fails because the file is there already only behind a link
that leads to nothing**, or where a device says so. -/
theorem creating_open_alreadyExists {w : World} (hw : w.Reachable) (t : TaskId)
    (base : Option Handle) (path : String) (flags : OpenFlags) (mode : UInt32)
    (hcreates : flags.creates = true) (hshared : flags.exclusive = false) :
    let c := w.contextOf t flags.forKernel
    let reserved := w.reserving c
    (openPath t base path flags mode w).result = .error .alreadyExists ↔
      ¬w.numbering.Full c ∧ ∃ d name, (resolveTarget t base path reserved).result = .ok (d, name) ∧
        ((flags.nofollow = false ∧ reserved.Dangling t d name ∧
            (reserved.volume (reserved.node d).volume).flags.isReadOnly = false) ∨
          ∃ n meter script, (resolveIn t d name (openLookup flags) reserved).result = .ok n ∧
            (reserved.node n).ops = some (.scripted meter script) ∧
            script.fault? .opening = some .alreadyExists ∧
            reserved.opensAs n flags = .error .alreadyExists) := by
  intro c reserved
  have hreserved : reserved.WellFormed := hw.wellFormed.reserving c
  rw [openPath_eq_error hw.kept.orderly (by decide) (by decide),
    pathOpening_alreadyExists hreserved base path mode hcreates hshared]
  refine and_congr_right fun _ => exists_congr fun d => exists_congr fun name =>
    and_congr_right fun _ => or_congr_right (exists_congr fun n => ?_)
  constructor
  · rintro ⟨hn, hopens⟩
    obtain ⟨meter, script, hops, hfault⟩ := scripted_of_opensAs hopens
    exact ⟨meter, script, hn, hops, hfault, hopens⟩
  · rintro ⟨-, -, hn, -, -, hopens⟩
    exact ⟨hn, hopens⟩

/-- A link whose target is missing. -/
def danglingLink : World :=
  Operation.runAll [.addTask 0, .makeSymlink 0 none "/l" "missing"] (World.fresh {})

theorem creating_open_alreadyExists_of_danglingLink :
    let w := danglingLink
    let reserved := w.reserving (w.contextOf 0 (⟨0x41⟩ : OpenFlags).forKernel)
    (w.Reachable ∧ (⟨0x41⟩ : OpenFlags).creates = true ∧ (⟨0x41⟩ : OpenFlags).exclusive = false) ∧
      ∃ d name, (resolveTarget 0 none "/l" reserved).result = .ok (d, name) ∧
        reserved.Dangling 0 d name := by
  intro w reserved
  have hreach : w.Reachable := ⟨_, World.steps_runAll _ _⟩
  refine ⟨⟨hreach, by decide, by decide⟩, ?_⟩
  obtain ⟨-, d, name, hfound, hcases⟩ :=
    (creating_open_alreadyExists hreach 0 none "/l" ⟨0x41⟩ 0o644 (by decide) (by decide)).1
      (by decide +kernel)
  have hname : (resolveTarget 0 none "/l" reserved).result = .ok (0, "l") := by decide +kernel
  obtain ⟨rfl, rfl⟩ := Prod.mk.inj (Except.ok.inj (hname.symm.trans hfound))
  have hmissing : (resolveIn 0 0 "l" (openLookup ⟨0x41⟩) reserved).result = .error .notFound := by
    decide +kernel
  refine ⟨0, "l", hfound, ?_⟩
  rcases hcases with ⟨-, hdangling, -⟩ | ⟨n, -, -, hn, -⟩
  · exact hdangling
  · rw [hmissing] at hn
    cases hn

/-- A link that leads to nothing is in the way of the file that it is to lead to, although that can
be made and the open does not ask for a new one. -/
theorem dangling_link_bars_creation :
    let w := danglingLink
    let flags : OpenFlags := ⟨0x41⟩
    w.Reachable ∧ flags.creates = true ∧ flags.exclusive = false ∧
      (openPath 0 none "/missing" flags 0o644 w).result = .ok (.ofSlot 0 true) ∧
      (openPath 0 none "/l" flags 0o644 w).result = .error .alreadyExists :=
  ⟨⟨_, World.steps_runAll _ _⟩, by decide, by decide, by decide +kernel, by decide +kernel⟩

end VirtualFs
