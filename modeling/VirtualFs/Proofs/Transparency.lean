/-
Links are transparent. Following a link looks its target up in the directory
the link was found in, by other means than an ordinary walk: a chain goes from
link to link in a loop, counts as one nesting for all of them, and carries
the directory along. What it arrives at is all the same what the text of the
target leads to from there.

There is one exception. A target that ends in "." stands for whatever the rest
of it leads to; as a path it has to lead to a directory.
-/
import VirtualFs.Proofs.Reachable
import VirtualFs.Proofs.RamMoves
import VirtualFs.Proofs.Whereabouts
import VirtualFs.Proofs.WiderLimits

namespace VirtualFs

open Query (look)

/-! ## What the ends of links are not -/

section

variable [Backends] {w : World} {follow : Follow}

/-- Not a link. -/
def World.NoLink (w : World) (n : NodeId) : Prop := w.isSymlink n = false

theorem followChain_yields (follow : Follow) (depth : UInt32) (hops : Nat) (dir n : NodeId) :
    (followChain follow depth hops dir n).Yields w w.NoLink := by
  induction hops generalizing dir n with
  | zero =>
    refine Query.Yields.look_bind ?_
    split
    · exact .skip fun _ => .skip fun _ => .throw
    · next hlink => exact .pure (Bool.eq_false_of_not_eq_true hlink)
  | succ hops ih =>
    refine Query.Yields.look_bind ?_
    split
    · exact .skip fun _ => .skip fun found => .skip fun next => ih found.1 next
    · next hlink => exact .pure (Bool.eq_false_of_not_eq_true hlink)

theorem followLinks_yields (left : Nat) (depth : UInt32) (dir n : NodeId) :
    (followLinks left depth dir n).Yields w w.NoLink := by
  cases left with
  | zero =>
    refine Query.Yields.look_bind ?_
    split
    · exact .skip fun _ => .skip fun _ => .throw
    · next hlink => exact .pure (Bool.eq_false_of_not_eq_true hlink)
  | succ left =>
    refine Query.Yields.look_bind ?_
    split
    · exact .skip fun _ => followChain_yields _ _ _ dir n
    · next hlink => exact .pure (Bool.eq_false_of_not_eq_true hlink)

/-- Where a lookup ends without a look at an entry, it has not moved. -/
theorem lookIn_here (parent : NodeId) (name : String) (crossing : Bool) :
    (lookIn parent name crossing).Yields w fun
      | .here n => n = parent
      | .entry dir _ => name ≠ ".." → dir = parent := by
  rw [lookIn]
  split
  · exact .pure rfl
  split
  · exact .skip fun _ => .skip fun _ => .pure rfl
  refine .bind (P := fun dir => ∀ d, dir = some d → name ≠ ".." → d = parent) ?_ fun dir hdir => ?_
  · rw [lookupDirectory]
    split
    · next hdots => exact fun _ _ _ _ hne => absurd hdots hne
    · exact .pure fun _ hd _ => (Option.some.inj hd).symm
  · cases dir with
    | none => exact .pure rfl
    | some dir =>
      exact .skip fun _ => .skip fun _ => .skip fun _ => .skip fun _ => .skip fun _ =>
        .skip fun _ => .skip fun _ => .pure (hdir dir rfl)

theorem resolveName_here {parent n : NodeId} {name : String} {flags : LookupMode}
    (hseen : (lookIn parent name flags.crossMounts w).result = .ok (.here n)) :
    (resolveName follow parent name flags w).result = .ok n := by
  rw [resolveName_eq_lookIn, Query.result_bind, hseen]
  rfl

theorem resolveName_seen {parent dir n : NodeId} {name : String} {flags : LookupMode}
    (hseen : (lookIn parent name flags.crossMounts w).result = .ok (.entry dir n)) :
    (resolveName follow parent name flags w).result =
      if flags.followLinks then (follow dir n w).result else .ok n := by
  rw [resolveName_eq_lookIn, Query.result_bind, hseen]
  cases flags.followLinks <;> rfl

theorem walk_yields (hfollow : ∀ dir n, (follow dir n).Yields w w.NoLink) {start : NodeId}
    (hstart : w.NoLink start) (names : List String) :
    (walk follow start names).Yields w w.NoLink := by
  induction names generalizing start with
  | nil => exact .pure hstart
  | cons name names ih =>
    rw [walk, List.foldlM_cons]
    refine .bind ?_ fun next hnext => ih hnext
    rw [resolveName_eq_lookIn]
    refine (lookIn_here start name true).bind fun sight hsight => ?_
    cases sight with
    | here n =>
      obtain rfl : n = start := hsight
      exact .pure hstart
    | entry dir n => exact hfollow dir n

theorem parentOfPath_yields (hfollow : ∀ dir n, (follow dir n).Yields w w.NoLink) {start : NodeId}
    (hroot : w.NoLink w.rootNode) (hstart : w.NoLink start) (path : String) :
    (parentOfPath follow start path).Yields w fun found =>
      w.NoLink found.1 ∧ found.2 = (Route.ofPath path).name := by
  refine Query.Yields.look_bind ((walk_yields hfollow ?_ _).bind fun dir hdir => .pure ⟨hdir, rfl⟩)
  rw [Route.start]
  split
  · exact hroot
  · exact hstart

end

namespace World.WellFormed

variable {w : World} (h : w.WellFormed) {d dir n : NodeId}

include h

/-- What is found one step up is a directory. -/
theorem lookIn_entry_cases (hd : w.Live d) {name : String}
    (hseen : (lookIn d name true w).result = .ok (.entry dir n)) : dir = d ∨ w.NoLink n := by
  by_cases hdots : name = ".."
  · right
    subst hdots
    rw [lookIn_dots h hd] at hseen
    split at hseen
    · cases hseen
    cases hp : w.foothold d with
    | none =>
      rw [hp] at hseen
      cases hseen
    | some p =>
      rw [hp, Option.elim_some] at hseen
      split at hseen
      · next hdir =>
        cases hseen
        exact isSymlink_of_isDirectory (h.isDirectory_cross (isDirectory_up h hdir))
      · cases hseen
  · exact .inl (lookIn_here d name true _ hseen hdots)

end World.WellFormed

/-! ## Into a chain -/

section

variable {w : World} {t : TaskId} {dir n r : NodeId}

/-- What a task does with links, when it may enter one more. -/
theorem followFor_eq {left : Nat}
    (hleft : nestingsLeft w.limits.linkDepth (w.task t).depth = left) (dir n : NodeId) :
    followFor t dir n w = followLinks left (w.task t).depth dir n w := by
  rw [followFor, Query.world_bind, hleft]

/-- A link that is followed to an end is the first of a chain of one nesting more. -/
theorem chain_of_followFor (hlink : w.isSymlink n = true)
    (hr : (followFor t dir n w).result = .ok r) : ∃ left hops,
      nestingsLeft w.limits.linkDepth (w.task t).depth = left + 1 ∧
      w.limits.linkChain.toNat = hops + 1 ∧
      (followChain (followLinks left ((w.task t).depth + 1)) ((w.task t).depth + 1) (hops + 1) dir n
        w).result = .ok r := by
  cases hleft : nestingsLeft w.limits.linkDepth (w.task t).depth with
  | zero =>
    rw [followFor_eq hleft, followLinks_zero hlink] at hr
    cases hr
  | succ left =>
    rw [followFor_eq hleft, followLinks_succ hlink] at hr
    cases hhops : w.limits.linkChain.toNat with
    | zero =>
      rw [hhops, followChain_zero hlink] at hr
      cases hr
    | succ hops => exact ⟨left, hops, rfl, rfl, hhops ▸ hr⟩

/-- Links within a target are followed as the task follows them, with one nesting less. -/
theorem nested_outlasts {left : Nat}
    (hleft : nestingsLeft w.limits.linkDepth (w.task t).depth = left + 1) :
    Follow.Outlasts w w.limits (followFor t) (followLinks left ((w.task t).depth + 1)) := by
  intro dir n
  rw [Query.Outlasts, followFor_eq hleft]
  exact followLinks_outlasts (.refl _) _ _ (Nat.le_succ left) dir n

theorem resolve_of_parentOfPath {d : NodeId} {path last : String} {flags : LookupMode}
    (hparent : (parentOfPath (followFor t) dir path w).result = .ok (d, last)) :
    (resolve t (some dir) path flags w).result =
      (resolveName (followFor t) d last flags w).result := by
  have hresolve : (resolveParent t (some dir) path w).result = .ok (d, last) := by
    rw [resolveParent, Query.look_bind]
    exact hparent
  rw [resolve, Query.result_bind, hresolve]
  rfl

/-- The rest of a chain ends where the task would be led from there. -/
theorem chain_outlasts {left hops : Nat}
    (hleft : nestingsLeft w.limits.linkDepth (w.task t).depth = left + 1)
    (hhops : w.limits.linkChain.toNat = hops + 1) :
    Follow.Outlasts w w.limits (followFor t)
      (followChain (followLinks left ((w.task t).depth + 1)) ((w.task t).depth + 1) hops) := by
  intro dir n
  cases hlink : w.isSymlink n with
  | false =>
    exact .of_no_link hlink (followChain_of_no_link · hops) fun {w} hlink => by
      rw [followFor, Query.world_bind, followLinks_of_no_link hlink]
  | true =>
    rw [Query.Outlasts, followFor_eq hleft, followLinks_succ hlink, hhops]
    have hsame : Follow.Outlasts w w.limits (followLinks left ((w.task t).depth + 1))
        (followLinks left ((w.task t).depth + 1)) := fun _ _ _ => rfl
    exact followChain_outlasts hsame (Nat.le_refl _) _ _ (Nat.le_succ hops) dir n

end

namespace World.WellFormed

variable {w : World} (h : w.WellFormed) {n : NodeId} {target : String}

include h

theorem isSymlink_of_content (hn : w.Live n) (htarget : (w.node n).ram.content = .symlink target) :
    w.isSymlink n = true := by
  rw [isSymlink, Mode.isSymlink, (h.ram n hn).type, htarget]
  rfl

/-- Nothing is mounted on a link. -/
theorem cross_of_isSymlink (hlink : w.isSymlink n = true) : w.cross n = n := by
  rw [cross]
  cases hroot : (w.node n).mountRoot with
  | none => rfl
  | some r =>
    rw [isSymlink_of_isDirectory (h.mounted.isDirectory n r hroot)] at hlink
    cases hlink

/-- What is read of a link is its text. -/
theorem linkTarget_yields (hn : w.Live n) (htarget : (w.node n).ram.content = .symlink target)
    (depth : UInt32) : (linkTarget n depth).Yields w (· = target) := by
  have hram := h.ram n hn
  have hops : (w.node n).ops = some .ram :=
    hram.ops.resolve_right fun hdevice => by rw [htarget] at hdevice; cases hdevice
  have hread : (RamFs.readLink n w).result = .ok target := by
    rw [RamFs.readLink, Query.result_bind, RamFs.nodeOf_apply hram, Except.bind, htarget]
    rfl
  refine .bind (P := (· = .ram)) (fun ops ho => ?_) ?_
  · rw [World.opsOf_eq_ok, hops] at ho
    exact (Option.some.inj ho).symm
  · rintro _ rfl
    refine .skip fun v => .skip fun status => .skip fun _ => .skip fun _ => .skip fun _ => ?_
    intro read hresult
    exact Except.ok.inj (hresult.symm.trans hread)

end World.WellFormed

section

variable {w : World} {t : TaskId} {d next r : NodeId} {left hops : Nat} {last : String}

/-- The last name of a target leads the task where the chain goes on to. -/
theorem resolveName_of_chain (h : w.WellFormed)
    (hleft : nestingsLeft w.limits.linkDepth (w.task t).depth = left + 1)
    (hhops : w.limits.linkChain.toNat = hops + 1) (hlive : w.Live d) (hd : w.NoLink d)
    (hnext : (resolveName (followLinks left ((w.task t).depth + 1)) d last .crossOnly w).result =
      .ok next)
    (hchain : (followChain (followLinks left ((w.task t).depth + 1)) ((w.task t).depth + 1) hops d
      next w).result = .ok r) :
    (resolveName (followFor t) d last .full w).result = .ok r := by
  have hrest := chain_outlasts hleft hhops d next (hchain ▸ uncut_ok r)
  obtain ⟨sight, hsight, -⟩ :=
    Query.result_bind_eq_ok.1 (resolveName_eq_lookIn _ d last _ ▸ hnext)
  cases sight with
  | here n =>
    obtain rfl : n = d := lookIn_here d last true _ hsight
    rw [resolveName_here hsight] at hnext
    cases hnext
    rw [followChain_of_no_link hd] at hchain
    cases hchain
    exact resolveName_here hsight
  | entry dir n =>
    rw [resolveName_seen hsight] at hnext
    cases hnext
    have hfull : (lookIn d last LookupMode.full.crossMounts w).result = .ok (.entry dir next) :=
      hsight
    rw [resolveName_seen hfull]
    rcases h.lookIn_entry_cases hlive hsight with rfl | hno
    · exact hrest.trans hchain
    · -- What is no link ends every chain, wherever it was found.
      rw [followChain_of_no_link hno] at hchain
      cases hchain
      exact World.followFor_of_no_link t dir hno

end

/-- **Links are transparent.** Where a name that lists a link leads is where the text of the link
leads from the same directory, unless the text ends in "." and what the link leads to is no
directory: then the text is refused. -/
theorem resolve_target (w : World) (hw : w.Reachable) (t : TaskId) (dir link : NodeId) (name : String)
    (hentry : w.Entry dir name link) (target : String)
    (htarget : (w.node link).ram.content = .symlink target) (r : NodeId)
    (hr : (resolveIn t dir name .full w).result = .ok r) :
    (resolve t (some dir) target .full w).result =
      if (Route.ofPath target).name = "." ∧ w.isDirectory r = false then .error .notADirectory
      else .ok r := by
  have h := hw.wellFormed
  have hlive := h.linked.live _ _ _ hentry
  have hlink := h.isSymlink_of_content hlive htarget
  -- The name leads to the link, and the link into a chain.
  have hseen : (lookIn dir name LookupMode.full.crossMounts w).result = .ok (.entry dir link) := by
    rw [World.lookIn_entry h hentry, h.cross_of_isSymlink hlink, ite_self]
  have hfollow : (followFor t dir link w).result = .ok r :=
    (resolveName_seen hseen).symm.trans hr
  obtain ⟨left, hops, hleft, hhops, hchain⟩ := chain_of_followFor hlink hfollow
  rw [followChain_of_link hlink] at hchain
  obtain ⟨read, hread, hchain⟩ := Query.result_bind_eq_ok.1 hchain
  obtain rfl := h.linkTarget_yields hlive htarget _ read hread
  obtain ⟨⟨d, last⟩, hparent, hchain⟩ := Query.result_bind_eq_ok.1 hchain
  obtain ⟨next, hnext, hchain⟩ := Query.result_bind_eq_ok.1 hchain
  -- The text leads the task to the same directory, which is no link, and the same last name.
  have hstart : w.NoLink dir := World.isSymlink_of_isDirectory (h.isDirectory_of_entry hentry)
  have hroot : w.NoLink w.rootNode :=
    World.isSymlink_of_isDirectory (h.rooted.isDirectory _ h.rooted.rootVolume)
  obtain ⟨hd, hlast⟩ : w.NoLink d ∧ last = (Route.ofPath read).name :=
    parentOfPath_yields (followLinks_yields left _) hroot hstart read _ hparent
  have hknown : w.Known d := (h.sound.closed_known.parentOfPath
    (h.sound.closed_known.followLinks left _) (fun _ => h.known hentry.live) _ hparent).1
  have hmore : (parentOfPath (followFor t) dir read w).result = .ok (d, last) :=
    (parentOfPath_outlasts (nested_outlasts hleft) dir read (hparent ▸ uncut_ok _)).trans hparent
  rw [resolve_of_parentOfPath hmore, ← hlast]
  by_cases hhere : last = "" ∨ last = "."
  · rw [resolveTargetEnd, if_pos hhere] at hnext
    cases hnext
    rw [followChain_of_no_link hd] at hchain
    cases hchain
    rcases hhere with hempty | hdot
    · rw [resolveName, if_pos hempty, hempty]
      rfl
    · rw [resolveName, hdot, if_neg (by decide), if_pos rfl, Query.look_bind, Query.result_bind,
        Query.result_demand]
      cases w.isDirectory r <;> rfl
  · rw [resolveTargetEnd, if_neg hhere] at hnext
    rw [if_neg fun hdot => hhere (.inr hdot.1)]
    exact resolveName_of_chain h hleft hhops hknown.live hd hnext hchain

/-- A directory with a file and two links: one to the file, by way of the directory above, and one
to the file as if it were a directory. -/
def linked : List Operation :=
  [.makeDirectory 0 none "/d" 0o755,
    .openPath 0 none "/d/f" ⟨OpenFlags.createBit⟩ 0o644,
    .makeSymlink 0 none "/d/over" "../d/f",
    .makeSymlink 0 none "/d/into" "f/."]

theorem resolve_target_linked :
    let w := Operation.runAll linked (World.fresh {})
    w.Entry 2 "over" 4 ∧ (resolveIn 0 2 "over" .full w).result = .ok 3 ∧
      (resolve 0 (some 2) "../d/f" .full w).result = .ok 3 := by
  refine ⟨by decide +kernel, by decide +kernel, ?_⟩
  have htarget := resolve_target (Operation.runAll linked (World.fresh {}))
    ⟨{}, World.steps_runAll linked _⟩ 0 2 4 "over" (by decide +kernel) "../d/f" rfl 3 rfl
  rw [htarget]
  decide +kernel

/-- The text of a link may be refused where the link is followed. -/
theorem resolve_target_refused :
    let w := Operation.runAll linked (World.fresh {})
    w.Reachable ∧ w.Entry 2 "into" 5 ∧ (w.node 5).ram.content = .symlink "f/." ∧
      (resolveIn 0 2 "into" .full w).result = .ok 3 ∧
      (resolve 0 (some 2) "f/." .full w).result = .error .notADirectory :=
  ⟨⟨{}, World.steps_runAll linked _⟩, by decide +kernel, rfl, rfl, rfl⟩

end VirtualFs
