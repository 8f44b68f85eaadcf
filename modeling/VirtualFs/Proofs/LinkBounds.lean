/-
What the two bounds on links count. Links that name one another in a row are
followed in a loop, and each takes one of the links a chain may have; all of
them together are entered once. Links that are passed through in one another's
texts are entered one inside the other, and each takes one of the nestings a
task may enter; followed in a row is each of them alone.

So a row of links runs into one bound only, whichever way it is built, as long
as the other bound allows for a single link, and the longest row that is
followed to its end has as many links as the bound says
(`link_bounds_exact`).
-/
import VirtualFs.Proofs.LookupFailures
import VirtualFs.Proofs.Transparency

namespace VirtualFs

namespace World

/-! ## Rows of links -/

/-- A directory lists a link, whose text is not too long to be read. -/
structure LinkAt (w : World) (dir : NodeId) (name text : String) (link : NodeId) : Prop where
  entry : w.Entry dir name link
  content : (w.node link).ram.content = .symlink text
  short : text.utf8ByteSize ≤ w.limits.linkLength

/-- A text leads to a node that is no link, and passes through none: with no nesting left, a link
on the way would end the walk. -/
structure LeadsPlainly (w : World) (dir : NodeId) (text : String) (x : NodeId) : Prop where
  ends : ((do
    let (last, name) ← parentOfPath (followLinks 0 0) dir text
    resolveTargetEnd (followLinks 0 0) last name : Query NodeId) w).result = .ok x
  noLink : w.isSymlink x = false

/-- So many links in one directory, the last under some name. The text of the first leads to a node
that is no link; that of every other refers to the one before it, in the way that is given. -/
inductive LinkRow (w : World) (refer : String → String) (dir x : NodeId) :
    Nat → String → NodeId → Prop where
  | first {name text : String} {link : NodeId} :
      w.LinkAt dir name text link → w.LeadsPlainly dir text x → LinkRow w refer dir x 1 name link
  | next {count : Nat} {before name : String} {behind link : NodeId} :
      LinkRow w refer dir x count before behind → w.LinkAt dir name (refer before) link →
      LinkRow w refer dir x (count + 1) name link

/-- Links each of which names the one before it. -/
abbrev LinkChain (w : World) := LinkRow w id

/-- Links each of which passes through the one before it. -/
abbrev LinkNest (w : World) := LinkRow w (· ++ "/.")

variable {w : World} (h : w.WellFormed) {refer : String → String} {dir x link : NodeId}
  {count : Nat} {name text : String}

theorem LinkRow.listed (hrow : w.LinkRow refer dir x count name link) :
    ∃ text, w.LinkAt dir name text link := by
  cases hrow with
  | first hlink _ => exact ⟨_, hlink⟩
  | next _ hlink => exact ⟨_, hlink⟩

theorem LinkRow.noLink (hrow : w.LinkRow refer dir x count name link) : w.isSymlink x = false := by
  induction hrow with
  | first _ hleads => exact hleads.noLink
  | next _ _ ih => exact ih

/-- A text that passes through no link leads to the same node however many nestings are left. -/
theorem LeadsPlainly.ends_within (hleads : w.LeadsPlainly dir text x) (left : Nat) (c : UInt32) :
    ((do
      let (last, name) ← parentOfPath (followLinks left c) dir text
      resolveTargetEnd (followLinks left c) last name : Query NodeId) w).result = .ok x := by
  have hfollow : Follow.Outlasts w w.limits (followLinks left c) (followLinks 0 0) :=
    followLinks_outlasts (.refl _) 0 c (Nat.zero_le left)
  have hsame := (parentOfPath_outlasts hfollow dir text).bind
    fun found => resolveTargetEnd_outlasts hfollow found.1 found.2
  exact (hsame (hleads.ends ▸ uncut_ok x)).trans hleads.ends

include h

/-! ## One link -/

namespace LinkAt

variable (hlink : w.LinkAt dir name text link)

include hlink

theorem isSymlink : w.isSymlink link = true :=
  h.isSymlink_of_content (h.linked.live _ _ _ hlink.entry) hlink.content

theorem linkTarget_result (depth : UInt32) : (linkTarget link depth w).result = .ok text := by
  rw [h.linkTarget_result (h.linked.live _ _ _ hlink.entry) hlink.content, if_pos hlink.short]

/-- The name of a link leads to the link, for nothing is mounted there. -/
theorem lookIn_result (crossing : Bool) :
    (lookIn dir name crossing w).result = .ok (.entry dir link) := by
  rw [lookIn_entry h hlink.entry, h.cross_of_isSymlink (hlink.isSymlink h), ite_self]

/-- To be followed to its end a link takes one hop, and then what its text leads to. -/
theorem followChain_succ (follow : Follow) (c : UInt32) (hops : Nat) :
    (followChain follow c (hops + 1) dir link w).result = ((do
      let (last, name) ← parentOfPath follow dir text
      let next ← resolveTargetEnd follow last name
      followChain follow c hops last next : Query NodeId) w).result := by
  rw [followChain_of_link (hlink.isSymlink h), Query.result_bind, hlink.linkTarget_result h,
    Except.bind]

end LinkAt

/-- The first link of a row takes one hop. -/
theorem LeadsPlainly.followChain_result (hleads : w.LeadsPlainly dir text x)
    (hlink : w.LinkAt dir name text link) (left hops : Nat) (c : UInt32) :
    (followChain (followLinks left c) c hops dir link w).result =
      if 1 ≤ hops then .ok x else .error .loop := by
  cases hops with
  | zero =>
    rw [followChain_zero (hlink.isSymlink h)]
    rfl
  | succ hops =>
    obtain ⟨found, hparent, hend⟩ := Query.result_bind_eq_ok.1 (hleads.ends_within left c)
    rw [hlink.followChain_succ h, if_pos (by omega), Query.result_bind, hparent, Except.bind,
      Query.result_bind, hend, Except.bind, followChain_of_no_link hleads.noLink]

/-! ## Links in a row -/

/-- A link that names another takes one hop and leaves the others to it. -/
theorem LinkAt.followChain_names {before : String} {behind : NodeId}
    (hlink : w.LinkAt dir name before link) (hbehind : w.LinkAt dir before text behind)
    (follow : Follow) (c : UInt32) (hops : Nat) :
    (followChain follow c (hops + 1) dir link w).result =
      (followChain follow c hops dir behind w).result := by
  have hname := h.linked.name _ _ _ hbehind.entry
  have hparent : (parentOfPath follow dir before w).result = .ok (dir, before) := by
    rw [parentOfPath, Query.look_bind, Route.ofPath_of_notMem hname.whole]
    rfl
  have hend : (resolveTargetEnd follow dir before w).result = .ok behind := by
    rw [resolveTargetEnd, if_neg fun hdot => hdot.elim hname.ne_empty hname.ne_dot,
      resolveName_seen (hbehind.lookIn_result h _)]
    rfl
  rw [hlink.followChain_succ h, Query.result_bind, hparent, Except.bind, Query.result_bind, hend,
    Except.bind]

/-- A chain of links is followed if it has no more links than there are hops. -/
theorem LinkRow.followChain_result (hrow : w.LinkChain dir x count name link) (left hops : Nat)
    (c : UInt32) : (followChain (followLinks left c) c hops dir link w).result =
      if count ≤ hops then .ok x else .error .loop := by
  induction hrow generalizing hops with
  | first hlink hleads => exact hleads.followChain_result h hlink left hops c
  | @next count before name behind link hrow hlink ih =>
    cases hops with
    | zero =>
      rw [followChain_zero (hlink.isSymlink h), if_neg (by omega)]
    | succ hops =>
      obtain ⟨text, hbehind⟩ := hrow.listed
      rw [hlink.followChain_names h hbehind, ih]
      simp only [Nat.add_le_add_iff_right]

/-- All links of a chain together are entered once. -/
theorem LinkRow.followLinks_chain (hrow : w.LinkChain dir x count name link) (left : Nat)
    (c : UInt32) : (followLinks left c dir link w).result =
      if count ≤ w.limits.linkChain.toNat ∧ 1 ≤ left then .ok x else .error .loop := by
  obtain ⟨text, hlink⟩ := hrow.listed
  cases left with
  | zero =>
    rw [followLinks_zero (hlink.isSymlink h), if_neg (by omega)]
  | succ left =>
    rw [followLinks_succ (hlink.isSymlink h), hrow.followChain_result h]
    simp

/-! ## Links inside one another -/

omit h in
/-- The text that passes through a name has the name for its only directory. -/
theorem ofPath_pass {before : String} (hbefore : IsEntryName before) :
    Route.ofPath (before ++ "/.") = { absolute := false, dirs := [before], name := "." } := by
  have htext : before ++ "/." = before ++ slashes 1 ++ "." := by
    rw [String.append_assoc]
    rfl
  have hdot : Route.ofPath "." = { absolute := false, dirs := [], name := "." } := by decide
  rw [htext, Route.ofPath_append _ _ 0 hbefore.ne_empty, Route.ofPath_of_notMem hbefore.whole, hdot]
  simp [Route.names, hbefore.ne_empty]

/-- A link that passes through another takes one hop, enters the other, and ends where that ends. -/
theorem LinkAt.followChain_passes {before : String} {behind : NodeId}
    (hlink : w.LinkAt dir name (before ++ "/.") link) (hbehind : w.LinkAt dir before text behind)
    {follow : Follow} {r : Except Error NodeId} (hr : (follow dir behind w).result = r)
    (hx : ∀ x, r = .ok x → w.isSymlink x = false) (c : UInt32) (hops : Nat) :
    (followChain follow c (hops + 1) dir link w).result = r := by
  have hname := h.linked.name _ _ _ hbehind.entry
  have hpass : (resolveName follow dir before .full w).result = r :=
    (resolveName_seen (hbehind.lookIn_result h _)).trans hr
  have hparent : (parentOfPath follow dir (before ++ "/.") w).result =
      r.map fun last => (last, ".") := by
    have hwalk : (walk follow dir [before] w).result = r := by simpa [walk] using hpass
    rw [parentOfPath, Query.look_bind, ofPath_pass hname, Query.result_bind]
    show (Except.bind (walk follow dir [before] w).result _) = _
    rw [hwalk]
    cases r <;> rfl
  rw [hlink.followChain_succ h, Query.result_bind, hparent]
  cases r with
  | error e => rfl
  | ok x =>
    show ((resolveTargetEnd follow x "." >>= fun next => followChain follow c hops x next) w).result
      = _
    rw [resolveTargetEnd, if_pos (.inr rfl), pure_bind, followChain_of_no_link (hx x rfl)]

/-- A nest of links is followed if it has no more links than there are nestings left. -/
theorem LinkRow.followLinks_nest (hrow : w.LinkNest dir x count name link) (left : Nat)
    (c : UInt32) : (followLinks left c dir link w).result =
      if count ≤ left ∧ 1 ≤ w.limits.linkChain.toNat then .ok x else .error .loop := by
  induction hrow generalizing left c with
  | first hlink hleads =>
    cases left with
    | zero => rw [followLinks_zero (hlink.isSymlink h), if_neg (by omega)]
    | succ left =>
      rw [followLinks_succ (hlink.isSymlink h), hleads.followChain_result h hlink]
      simp
  | @next count before name behind link hrow hlink ih =>
    cases left with
    | zero => rw [followLinks_zero (hlink.isSymlink h), if_neg (by omega)]
    | succ left =>
      obtain ⟨text, hbehind⟩ := hrow.listed
      rw [followLinks_succ (hlink.isSymlink h)]
      cases hhops : w.limits.linkChain.toNat with
      | zero => rw [followChain_zero (hlink.isSymlink h), if_neg (by omega)]
      | succ hops =>
        rw [hlink.followChain_passes h hbehind (ih left (c + 1)) ?_, hhops]
        · simp only [Nat.add_le_add_iff_right]
        · intro y hy
          split at hy
          · cases hy
            exact hrow.noLink
          · cases hy

omit h in
/-- A task that is in no link yet may enter as many as the limit says. -/
theorem followFor_of_depth_zero {t : TaskId} (hdepth : (w.task t).depth = 0) (dir n : NodeId) :
    followFor t dir n w = followLinks w.limits.linkDepth.toNat 0 dir n w := by
  rw [followFor, Query.world_bind, hdepth]
  simp [nestingsLeft]

/-- A path that ends with the name of a link is followed as the link is. -/
theorem LinkAt.resolve_result (hlink : w.LinkAt dir name text link) {t : TaskId}
    (hdepth : (w.task t).depth = 0) {start : Option NodeId} {path : String} {flags : LookupMode}
    (hflags : flags.followLinks = true)
    (hpath : (resolveParent t start path w).result = .ok (dir, name)) :
    (resolve t start path flags w).result =
      (followLinks w.limits.linkDepth.toNat 0 dir link w).result := by
  rw [resolve, Query.result_bind, hpath, Except.bind]
  show (resolveName (followFor t) dir name flags w).result = _
  rw [resolveName_seen (hlink.lookIn_result h _), if_pos hflags, followFor_of_depth_zero hdepth]

end World

/-- **Both bounds on links are exact, and neither bears on the other.** Take a task that is in no
link yet, and a path that ends with the last of a number of links in one directory. If each of them
names the one before it, and the first leads to a node that is no link, the path leads to that node
as long as there are no more links than a chain may have, and one nesting is allowed. If each passes
through the one before it, the path leads there as long as there are no more links than may nest,
and one link is allowed in a chain. Otherwise there are too many links. -/
theorem link_bounds_exact {w : World} (hw : w.Reachable) {t : TaskId}
    (hdepth : (w.task t).depth = 0) {start : Option NodeId} {path : String} {flags : LookupMode}
    (hflags : flags.followLinks = true) {dir x link : NodeId} {count : Nat} {name : String}
    (hpath : (resolveParent t start path w).result = .ok (dir, name)) :
    (w.LinkChain dir x count name link → (resolve t start path flags w).result =
      if count ≤ w.limits.linkChain.toNat ∧ 1 ≤ w.limits.linkDepth.toNat then .ok x
      else .error .loop) ∧
    (w.LinkNest dir x count name link → (resolve t start path flags w).result =
      if count ≤ w.limits.linkDepth.toNat ∧ 1 ≤ w.limits.linkChain.toNat then .ok x
      else .error .loop) := by
  have h := hw.wellFormed
  constructor
  · intro hchain
    obtain ⟨text, hlink⟩ := hchain.listed
    rw [hlink.resolve_result h hdepth hflags hpath, hchain.followLinks_chain h]
  · intro hnest
    obtain ⟨text, hlink⟩ := hnest.listed
    rw [hlink.resolve_result h hdepth hflags hpath, hnest.followLinks_nest h]

/-- An instance that allows for two links in a chain and two nestings, and a directory with three
links to it in a chain and three in a nest. The first link is the same. -/
def World.tightlyLinked : World :=
  Operation.runAll
    [.makeDirectory 0 none "/d" 0o755, .makeSymlink 0 none "/a" "d",
      .makeSymlink 0 none "/b" "a", .makeSymlink 0 none "/c" "b",
      .makeSymlink 0 none "/k" "a/.", .makeSymlink 0 none "/l" "k/."]
    (World.fresh { linkDepth := 2, linkChain := 2 })

theorem link_bounds_exact_of_tightlyLinked :
    (resolve 0 none "/b" .full World.tightlyLinked).result = .ok 2 ∧
      (resolve 0 none "/c" .full World.tightlyLinked).result = .error .loop ∧
      (resolve 0 none "/k" .full World.tightlyLinked).result = .ok 2 ∧
      (resolve 0 none "/l" .full World.tightlyLinked).result = .error .loop := by
  have hreachable : World.tightlyLinked.Reachable := ⟨_, World.steps_runAll _ _⟩
  have hdepth : (World.tightlyLinked.task 0).depth = 0 := by decide +kernel
  have hfirst {refer : String → String} :
      World.tightlyLinked.LinkRow refer 0 2 1 "a" 3 :=
    .first ⟨by decide +kernel, rfl, by decide +kernel⟩ ⟨by decide +kernel, by decide +kernel⟩
  have hchain : World.tightlyLinked.LinkChain 0 2 2 "b" 4 :=
    .next hfirst ⟨by decide +kernel, rfl, by decide +kernel⟩
  have hlong : World.tightlyLinked.LinkChain 0 2 3 "c" 5 :=
    .next hchain ⟨by decide +kernel, rfl, by decide +kernel⟩
  have hnest : World.tightlyLinked.LinkNest 0 2 2 "k" 6 :=
    .next hfirst ⟨by decide +kernel, rfl, by decide +kernel⟩
  have hdeep : World.tightlyLinked.LinkNest 0 2 3 "l" 7 :=
    .next hnest ⟨by decide +kernel, rfl, by decide +kernel⟩
  exact ⟨(link_bounds_exact hreachable hdepth rfl rfl).1 hchain,
    (link_bounds_exact hreachable hdepth rfl rfl).1 hlong,
    (link_bounds_exact hreachable hdepth rfl rfl).2 hnest,
    (link_bounds_exact hreachable hdepth rfl rfl).2 hdeep⟩

end VirtualFs
