/-
Resolution with its counter in hand. A walk is told here as it runs: each
piece of work starts with the task's counter of nested links and hands a
counter back, entering a link adds one to it, and leaving takes one off,
however the work inside ended. Nothing bounds the rules (`Runs`) but what
they say themselves: a chain counts the links it has followed, and a link is
entered only below the limit.

From any counter within the limit every piece of work ends, in one way, with
the counter it started from; that way is what `resolve` and its parts
compute. A link's text is only read while the counter is within the limit.
-/
import VirtualFs.Boot
import VirtualFs.Namespace
import VirtualFs.Proofs.Lookup
import VirtualFs.Proofs.Trace

namespace VirtualFs


/-- A finding after events that came before it. -/
def Finding.after {α : Type} (found : Finding α) (trace : List Event) : Finding α :=
  { found with trace := trace ++ found.trace }

/-- A piece of a walk's work. -/
inductive Errand where
  /-- A whole path, from a start. -/
  | path (start : NodeId) (path : String) (flags : LookupMode)
  /-- Names to pass through. -/
  | pass (dir : NodeId) (names : List String)
  /-- One name in a directory. -/
  | name (dir : NodeId) (name : String) (flags : LookupMode)
  /-- A node that may be a link, found in a directory. -/
  | links (dir n : NodeId)
  /-- The rest of a chain of links, after so many. -/
  | chain (followed : Nat) (dir n : NodeId)
  /-- The last name of a link's target. -/
  | ending (dir : NodeId) (name : String)

/-! ## Counting -/

/-- Entering a link takes one of the nestings that are left. -/
theorem nestings_succ {limit c : UInt32} (h : c + 1 ≤ limit) (hlimit : limit < 4294967295)
    (hc : c ≤ limit) : limit.toNat - c.toNat = (limit.toNat - (c + 1).toNat) + 1 := by
  rw [UInt32.le_iff_toNat_le] at h hc
  rw [UInt32.lt_iff_toNat_lt] at hlimit
  rw [UInt32.toNat_add] at h ⊢
  simp at h hlimit ⊢
  omega

theorem nestings_zero {limit c : UInt32} (h : limit < c + 1) (hlimit : limit < 4294967295)
    (hc : c ≤ limit) : limit.toNat - c.toNat = 0 := by
  rw [UInt32.le_iff_toNat_le] at hc
  rw [UInt32.lt_iff_toNat_lt] at hlimit h
  rw [UInt32.toNat_add] at h
  simp at h hlimit ⊢
  omega

theorem hops_succ {limit k : Nat} (h : k < limit) : limit - k = limit - (k + 1) + 1 := by omega

/-! ## The rules -/

section

variable [Backends] (w : World)

/-- How the work is done: the errand, the counter before, what was found, and the counter after. -/
inductive Runs : Errand → UInt32 → Finding NodeId → UInt32 → Prop where
  | path {start path flags c dir t c₁ found c₂} :
      Runs (.pass ((Route.ofPath path).start w start) (Route.ofPath path).dirs) c ⟨.ok dir, t⟩ c₁ →
      Runs (.name dir (Route.ofPath path).name flags) c₁ found c₂ →
      Runs (.path start path flags) c (found.after t) c₂
  | pathFails {start path flags c e t c₁} :
      Runs (.pass ((Route.ofPath path).start w start) (Route.ofPath path).dirs) c ⟨.error e, t⟩ c₁ →
      Runs (.path start path flags) c ⟨.error e, t⟩ c₁
  | passed {dir c} : Runs (.pass dir []) c ⟨.ok dir, []⟩ c
  | pass {dir name names c next t c₁ found c₂} :
      Runs (.name dir name .full) c ⟨.ok next, t⟩ c₁ →
      Runs (.pass next names) c₁ found c₂ →
      Runs (.pass dir (name :: names)) c (found.after t) c₂
  | passFails {dir name names c e t c₁} :
      Runs (.name dir name .full) c ⟨.error e, t⟩ c₁ →
      Runs (.pass dir (name :: names)) c ⟨.error e, t⟩ c₁
  | nameFails {dir name flags c e t} :
      lookIn dir name flags.crossMounts w = ⟨.error e, t⟩ →
      Runs (.name dir name flags) c ⟨.error e, t⟩ c
  | nameHere {dir name flags c n t} :
      lookIn dir name flags.crossMounts w = ⟨.ok (.here n), t⟩ →
      Runs (.name dir name flags) c ⟨.ok n, t⟩ c
  | namePlain {dir name flags c d n t} :
      lookIn dir name flags.crossMounts w = ⟨.ok (.entry d n), t⟩ → flags.followLinks = false →
      Runs (.name dir name flags) c ⟨.ok n, t⟩ c
  | nameFollowed {dir name flags c d n t found c₁} :
      lookIn dir name flags.crossMounts w = ⟨.ok (.entry d n), t⟩ → flags.followLinks = true →
      Runs (.links d n) c found c₁ →
      Runs (.name dir name flags) c (found.after t) c₁
  | noLink {dir n c} : w.isSymlink n = false → Runs (.links dir n) c ⟨.ok n, []⟩ c
  | tooDeep {dir n c} :
      w.isSymlink n = true → w.limits.linkDepth < c + 1 →
      Runs (.links dir n) c ⟨.error .loop, [.logged (.nestedTooDeep (w.tag n))]⟩ (c + 1 - 1)
  | entered {dir n c found c₁} :
      w.isSymlink n = true → c + 1 ≤ w.limits.linkDepth →
      Runs (.chain 0 dir n) (c + 1) found c₁ →
      Runs (.links dir n) c found (c₁ - 1)
  | chainEnds {k dir n c} : w.isSymlink n = false → Runs (.chain k dir n) c ⟨.ok n, []⟩ c
  | chainTooLong {k dir n c} :
      w.isSymlink n = true → w.limits.linkChain.toNat ≤ k →
      Runs (.chain k dir n) c ⟨.error .loop, [.logged (.chainTooLong (w.tag n))]⟩ c
  | unreadable {k dir n c e t} :
      w.isSymlink n = true → k < w.limits.linkChain.toNat →
      linkTarget n c w = ⟨.error e, t⟩ →
      Runs (.chain k dir n) c ⟨.error e, t⟩ c
  | targetFails {k dir n c target t e t₁ c₁} :
      w.isSymlink n = true → k < w.limits.linkChain.toNat →
      linkTarget n c w = ⟨.ok target, t⟩ →
      Runs (.pass ((Route.ofPath target).start w dir) (Route.ofPath target).dirs) c
        ⟨.error e, t₁⟩ c₁ →
      Runs (.chain k dir n) c ⟨.error e, t ++ t₁⟩ c₁
  | endingFails {k dir n c target t d t₁ c₁ e t₂ c₂} :
      w.isSymlink n = true → k < w.limits.linkChain.toNat →
      linkTarget n c w = ⟨.ok target, t⟩ →
      Runs (.pass ((Route.ofPath target).start w dir) (Route.ofPath target).dirs) c ⟨.ok d, t₁⟩ c₁ →
      Runs (.ending d (Route.ofPath target).name) c₁ ⟨.error e, t₂⟩ c₂ →
      Runs (.chain k dir n) c ⟨.error e, t ++ (t₁ ++ t₂)⟩ c₂
  | followed {k dir n c target t d t₁ c₁ next t₂ c₂ found c₃} :
      w.isSymlink n = true → k < w.limits.linkChain.toNat →
      linkTarget n c w = ⟨.ok target, t⟩ →
      Runs (.pass ((Route.ofPath target).start w dir) (Route.ofPath target).dirs) c ⟨.ok d, t₁⟩ c₁ →
      Runs (.ending d (Route.ofPath target).name) c₁ ⟨.ok next, t₂⟩ c₂ →
      Runs (.chain (k + 1) d next) c₂ found c₃ →
      Runs (.chain k dir n) c (found.after (t ++ (t₁ ++ t₂))) c₃
  | endsHere {dir name c} : name = "" ∨ name = "." → Runs (.ending dir name) c ⟨.ok dir, []⟩ c
  | ending {dir name c found c₁} :
      ¬(name = "" ∨ name = ".") → Runs (.name dir name .crossOnly) c found c₁ →
      Runs (.ending dir name) c found c₁

variable {w}

/-- Whatever happens on the way, the counter comes back as it was. -/
theorem Runs.restores {errand : Errand} {c c' : UInt32} {found : Finding NodeId}
    (h : Runs w errand c found c') : c' = c := by
  induction h with
  | passed | nameFails | nameHere | namePlain | noLink => rfl
  | chainEnds | chainTooLong | unreadable | endsHere => rfl
  | pathFails _ ih | passFails _ ih | nameFollowed _ _ _ ih => exact ih
  | targetFails _ _ _ _ ih | ending _ _ ih => exact ih
  | path _ _ ih₁ ih₂ | pass _ _ ih₁ ih₂ | endingFails _ _ _ _ _ ih₁ ih₂ => exact ih₂.trans ih₁
  | followed _ _ _ _ _ _ ih₁ ih₂ ih₃ => exact ih₃.trans (ih₂.trans ih₁)
  | tooDeep => exact UInt32.add_sub_cancel _ _
  | entered _ _ _ ih => rw [ih]; exact UInt32.add_sub_cancel _ _

/-! ## What the walk computes -/

/-- The query that does an errand from a counter within the limit. -/
def Errand.query (w : World) (c : UInt32) (errand : Errand) : Query NodeId :=
  let follow := followLinks (w.limits.linkDepth.toNat - c.toNat) c
  match errand with
  | .path start text flags => do
    let (dir, last) ← parentOfPath follow start text
    resolveName follow dir last flags
  | .pass dir names => walk follow dir names
  | .name dir text flags => resolveName follow dir text flags
  | .links dir n => follow dir n
  | .chain followed dir n => followChain follow c (w.limits.linkChain.toNat - followed) dir n
  | .ending dir text => resolveTargetEnd follow dir text

theorem parentOfPath_apply (follow : Follow) (start : NodeId) (path : String) :
    parentOfPath follow start path w =
      (do
        let dir ← walk follow ((Route.ofPath path).start w start) (Route.ofPath path).dirs
        pure (dir, (Route.ofPath path).name) : Query (NodeId × String)) w := by
  simp only [parentOfPath, Query.look_bind]

theorem parentOfPath_ok {follow : Follow} {start dir : NodeId} {path : String} {t : List Event}
    (h : walk follow ((Route.ofPath path).start w start) (Route.ofPath path).dirs w =
      ⟨.ok dir, t⟩) :
    parentOfPath follow start path w = ⟨.ok (dir, (Route.ofPath path).name), t⟩ := by
  rw [parentOfPath_apply, Query.bind_ok h]
  simp

theorem parentOfPath_error {follow : Follow} {start : NodeId} {path : String} {e : Error}
    {t : List Event}
    (h : walk follow ((Route.ofPath path).start w start) (Route.ofPath path).dirs w =
      ⟨.error e, t⟩) :
    parentOfPath follow start path w = ⟨.error e, t⟩ := by
  rw [parentOfPath_apply, Query.bind_error h]

theorem followChain_of_link {follow : Follow} {c : UInt32} {hops : Nat} {dir n : NodeId}
    (hlink : w.isSymlink n = true) :
    followChain follow c (hops + 1) dir n w =
      (do
        let target ← linkTarget n c
        let (d, name) ← parentOfPath follow dir target
        let next ← resolveTargetEnd follow d name
        followChain follow c hops d next) w := by
  simp only [followChain, Query.look_bind, hlink, if_true]

theorem followChain_of_no_link {follow : Follow} {c : UInt32} {dir n : NodeId}
    (hlink : w.isSymlink n = false) : ∀ hops : Nat, followChain follow c hops dir n w = ⟨.ok n, []⟩
  | 0 => by simp [followChain, Query.look_bind, hlink]
  | hops + 1 => by simp [followChain, Query.look_bind, hlink]

theorem followLinks_of_no_link {c : UInt32} {dir n : NodeId} (hlink : w.isSymlink n = false) :
    ∀ left : Nat, followLinks left c dir n w = ⟨.ok n, []⟩
  | 0 => by simp [followLinks, Query.look_bind, hlink]
  | left + 1 => by simp [followLinks, Query.look_bind, hlink]

theorem followChain_zero {follow : Follow} {c : UInt32} {dir n : NodeId}
    (hlink : w.isSymlink n = true) :
    followChain follow c 0 dir n w = ⟨.error .loop, [.logged (.chainTooLong (w.tag n))]⟩ := by
  simp only [followChain, Query.look_bind, hlink, if_true]
  rfl

theorem followLinks_zero {c : UInt32} {dir n : NodeId} (hlink : w.isSymlink n = true) :
    followLinks 0 c dir n w = ⟨.error .loop, [.logged (.nestedTooDeep (w.tag n))]⟩ := by
  simp only [followLinks, Query.look_bind, hlink, if_true]
  rfl

theorem followLinks_succ {c : UInt32} {left : Nat} {dir n : NodeId} (hlink : w.isSymlink n = true) :
    followLinks (left + 1) c dir n w =
      followChain (followLinks left (c + 1)) (c + 1) w.limits.linkChain.toNat dir n w := by
  simp only [followLinks, Query.look_bind, hlink, if_true]

/-- The walk computes what the rules say. -/
theorem Runs.query_eq {errand : Errand} {c c' : UInt32} {found : Finding NodeId}
    (hlimit : w.limits.linkDepth < 4294967295)
    (h : Runs w errand c found c') (hc : c ≤ w.limits.linkDepth) : errand.query w c w = found := by
  induction h with
  | path hpass hname ihpass ihname =>
    obtain rfl := hpass.restores
    have h₁ := ihpass hc
    have h₂ := ihname hc
    simp only [Errand.query] at h₁ h₂ ⊢
    rw [Query.bind_ok (parentOfPath_ok h₁)]
    simp only [h₂]
    rfl
  | pathFails hpass ihpass => exact Query.bind_error (parentOfPath_error (ihpass hc))
  | passed => rfl
  | pass hname hrest ihname ihrest =>
    obtain rfl := hname.restores
    have h₁ := ihname hc
    have h₂ := ihrest hc
    simp only [Errand.query, walk, List.foldlM_cons] at h₁ h₂ ⊢
    rw [Query.bind_ok h₁, h₂]
    rfl
  | passFails hname ihname =>
    have h₁ := ihname hc
    simp only [Errand.query, walk, List.foldlM_cons] at h₁ ⊢
    exact Query.bind_error h₁
  | nameFails hlook =>
    simp only [Errand.query, resolveName_eq_lookIn]
    exact Query.bind_error hlook
  | nameHere hlook =>
    simp only [Errand.query, resolveName_eq_lookIn]
    rw [Query.bind_ok hlook]
    simp
  | namePlain hlook hflag =>
    simp only [Errand.query, resolveName_eq_lookIn]
    rw [Query.bind_ok hlook]
    simp [hflag]
  | nameFollowed hlook hflag hlinks ihlinks =>
    have h₁ := ihlinks hc
    simp only [Errand.query, resolveName_eq_lookIn] at h₁ ⊢
    rw [Query.bind_ok hlook]
    simp only [hflag, if_true, h₁]
    rfl
  | noLink hlink => exact followLinks_of_no_link hlink _
  | tooDeep hlink hdeep =>
    simp only [Errand.query]
    rw [nestings_zero hdeep hlimit hc, followLinks_zero hlink]
  | entered hlink hdeep hchain ihchain =>
    have h₁ := ihchain hdeep
    simp only [Errand.query, Nat.sub_zero] at h₁ ⊢
    rw [nestings_succ hdeep hlimit hc, followLinks_succ hlink, h₁]
  | chainEnds hlink => exact followChain_of_no_link hlink _
  | chainTooLong hlink hlong =>
    simp only [Errand.query]
    rw [Nat.sub_eq_zero_of_le hlong, followChain_zero hlink]
  | unreadable hlink hshort htarget =>
    simp only [Errand.query]
    rw [hops_succ hshort, followChain_of_link hlink, Query.bind_error htarget]
  | targetFails hlink hshort htarget hpass ihpass =>
    have h₁ := parentOfPath_error (ihpass hc)
    simp only [Errand.query]
    rw [hops_succ hshort, followChain_of_link hlink, Query.bind_ok htarget, Query.bind_error h₁]
  | endingFails hlink hshort htarget hpass hending ihpass ihending =>
    obtain rfl := hpass.restores
    have h₁ := parentOfPath_ok (ihpass hc)
    have h₂ := ihending hc
    simp only [Errand.query] at h₂ ⊢
    rw [hops_succ hshort, followChain_of_link hlink, Query.bind_ok htarget, Query.bind_ok h₁]
    dsimp only
    rw [Query.bind_error h₂]
  | followed hlink hshort htarget hpass hending hchain ihpass ihending ihchain =>
    obtain rfl := hpass.restores
    obtain rfl := hending.restores
    have h₁ := parentOfPath_ok (ihpass hc)
    have h₂ := ihending hc
    have h₃ := ihchain hc
    simp only [Errand.query] at h₂ h₃ ⊢
    rw [hops_succ hshort, followChain_of_link hlink, Query.bind_ok htarget, Query.bind_ok h₁]
    dsimp only
    rw [Query.bind_ok h₂, h₃]
    simp only [Finding.after, List.append_assoc]
  | endsHere hname =>
    simp only [Errand.query, resolveTargetEnd, if_pos hname]
    rfl
  | ending hname hlook ihlook =>
    simp only [Errand.query, resolveTargetEnd, if_neg hname]
    exact ihlook hc

/-! ## Every errand ends -/

/-- The errand is done in some way, and the counter comes back. -/
def Ends (w : World) (c : UInt32) (errand : Errand) : Prop := ∃ found, Runs w errand c found c

section

variable {c : UInt32}

theorem ends_name (hlinks : ∀ dir n, Ends w c (.links dir n)) (dir : NodeId) (name : String)
    (flags : LookupMode) : Ends w c (.name dir name flags) := by
  rcases hlook : lookIn dir name flags.crossMounts w with ⟨_ | ⟨n⟩ | ⟨d, n⟩, t⟩
  · exact ⟨_, .nameFails hlook⟩
  · exact ⟨_, .nameHere hlook⟩
  · cases hflag : flags.followLinks with
    | false => exact ⟨_, .namePlain hlook hflag⟩
    | true =>
      obtain ⟨found, hrun⟩ := hlinks d n
      exact ⟨_, .nameFollowed hlook hflag hrun⟩

theorem ends_pass (hname : ∀ dir name flags, Ends w c (.name dir name flags)) (dir : NodeId)
    (names : List String) : Ends w c (.pass dir names) := by
  induction names generalizing dir with
  | nil => exact ⟨_, .passed⟩
  | cons name rest ih =>
    obtain ⟨⟨_ | next, t⟩, hrun⟩ := hname dir name .full
    · exact ⟨_, .passFails hrun⟩
    · obtain ⟨found, hrest⟩ := ih next
      exact ⟨_, .pass hrun hrest⟩

theorem ends_ending (hname : ∀ dir name flags, Ends w c (.name dir name flags)) (dir : NodeId)
    (name : String) : Ends w c (.ending dir name) := by
  by_cases h : name = "" ∨ name = "."
  · exact ⟨_, .endsHere h⟩
  · obtain ⟨found, hrun⟩ := hname dir name .crossOnly
    exact ⟨_, .ending h hrun⟩

/-- A chain ends because it counts the links it has followed. -/
theorem ends_chain (hname : ∀ dir name flags, Ends w c (.name dir name flags)) {k hops : Nat}
    (hk : w.limits.linkChain.toNat - k = hops) (dir n : NodeId) : Ends w c (.chain k dir n) := by
  induction hops generalizing k dir n with
  | zero =>
    cases hlink : w.isSymlink n with
    | false => exact ⟨_, .chainEnds hlink⟩
    | true => exact ⟨_, .chainTooLong hlink (by omega)⟩
  | succ hops ih =>
    cases hlink : w.isSymlink n with
    | false => exact ⟨_, .chainEnds hlink⟩
    | true =>
      have hshort : k < w.limits.linkChain.toNat := by omega
      rcases htarget : linkTarget n c w with ⟨_ | target, t⟩
      · exact ⟨_, .unreadable hlink hshort htarget⟩
      obtain ⟨⟨_ | d, t₁⟩, hpass⟩ := ends_pass hname ((Route.ofPath target).start w dir)
        (Route.ofPath target).dirs
      · exact ⟨_, .targetFails hlink hshort htarget hpass⟩
      obtain ⟨⟨_ | next, t₂⟩, hending⟩ := ends_ending hname d (Route.ofPath target).name
      · exact ⟨_, .endingFails hlink hshort htarget hpass hending⟩
      obtain ⟨found, hrest⟩ := ih (k := k + 1) (by omega) d next
      exact ⟨_, .followed hlink hshort htarget hpass hending hrest⟩

theorem ends_path (hname : ∀ dir name flags, Ends w c (.name dir name flags)) (start : NodeId)
    (path : String) (flags : LookupMode) : Ends w c (.path start path flags) := by
  obtain ⟨⟨_ | dir, t⟩, hpass⟩ := ends_pass hname ((Route.ofPath path).start w start)
    (Route.ofPath path).dirs
  · exact ⟨_, .pathFails hpass⟩
  · obtain ⟨found, hrun⟩ := hname dir (Route.ofPath path).name flags
    exact ⟨_, .path hpass hrun⟩

/-- A link is entered while there is room for one more, and then the chain in it has to end. -/
theorem ends_links (hchain : c + 1 ≤ w.limits.linkDepth → ∀ dir n, Ends w (c + 1) (.chain 0 dir n))
    (dir n : NodeId) : Ends w c (.links dir n) := by
  have hback : c + 1 - 1 = c := UInt32.add_sub_cancel _ _
  cases hlink : w.isSymlink n with
  | false => exact ⟨_, .noLink hlink⟩
  | true =>
    by_cases hdeep : c + 1 ≤ w.limits.linkDepth
    · obtain ⟨found, hrun⟩ := hchain hdeep dir n
      have hentered := Runs.entered hlink hdeep hrun
      rw [hback] at hentered
      exact ⟨found, hentered⟩
    · have hdeep : Runs w (.links dir n) c _ (c + 1 - 1) := .tooDeep hlink (UInt32.not_le.1 hdeep)
      rw [hback] at hdeep
      exact ⟨_, hdeep⟩

/-- Links are all that an errand can get lost in. -/
theorem ends_of_links (hlinks : ∀ dir n, Ends w c (.links dir n)) (errand : Errand) :
    Ends w c errand := by
  have hname := ends_name hlinks
  cases errand with
  | path start path flags => exact ends_path hname start path flags
  | pass dir names => exact ends_pass hname dir names
  | name dir name flags => exact hname dir name flags
  | links dir n => exact hlinks dir n
  | chain followed dir n => exact ends_chain hname rfl dir n
  | ending dir name => exact ends_ending hname dir name

end

/-- The induction is on the nestings left: the chain inside a link has one less. -/
theorem ends_of_le (hlimit : w.limits.linkDepth < 4294967295) {left : Nat} {c : UInt32}
    (hc : c ≤ w.limits.linkDepth) (hleft : w.limits.linkDepth.toNat - c.toNat = left)
    (errand : Errand) : Ends w c errand := by
  induction left generalizing c errand with
  | zero =>
    refine ends_of_links (ends_links fun hdeep => ?_) errand
    have := nestings_succ hdeep hlimit hc
    omega
  | succ left ih =>
    refine ends_of_links (ends_links fun hdeep dir n => ?_) errand
    have := nestings_succ hdeep hlimit hc
    exact ih hdeep (by omega) (.chain 0 dir n)

end

/-! ## Links read on the way -/

/-- An event that reads no link, or reads one at a counter within the limit. -/
def ReadsWithin (limit : UInt32) (event : Event) : Prop :=
  ∀ ops n level, event = .used ops (.readLink n level) → level ≤ limit

theorem volumeOf_emits {P : Event → Prop} (n : NodeId) : (volumeOf n).Emits P :=
  .bind (.look _) fun _ => .expect _ _

theorem opsOf_emits {P : Event → Prop} (n : NodeId) : (opsOf n).Emits P :=
  .bind (.look _) fun _ => .expect _ _

theorem RamFs.nodeOf_emits {P : Event → Prop} (n : NodeId) : (RamFs.nodeOf n).Emits P := by
  refine .bind (.look _) fun payload => ?_
  cases payload
  · exact .pure _
  · exact .throw _

theorem RamFs.lookup_emits {P : Event → Prop} (dir : NodeId) (name : String) :
    (RamFs.lookup dir name).Emits P := by
  have hcontainer : (RamFs.containerOf dir).Emits P :=
    .bind (RamFs.nodeOf_emits dir) fun _ => .look _
  have hchildren : (RamFs.childrenOf dir).Emits P := by
    refine .bind (RamFs.nodeOf_emits dir) fun node => ?_
    cases node.content <;> first | exact .pure _ | exact .throw _
  unfold RamFs.lookup
  split
  · exact .pure _
  split
  · exact hcontainer
  · exact .bind hchildren fun _ => .expect _ _

theorem Scripted.lookup_emits {P : Event → Prop} (volume : VolumeKey) (parent : NodeId)
    (name : String) : (Scripted.lookup volume parent name).Emits P := by
  have hchildren : (Scripted.childrenOf parent).Emits P := by
    refine .bind (.look _) fun payload => ?_
    split
    · exact .pure _
    · exact .throw _
  refine .bind hchildren fun children => ?_
  split
  · exact .look _
  · exact .expect _ _

theorem locate_emits {limit : UInt32} (driver : DriverKind) (volume : VolumeKey) (parent : NodeId)
    (name : String) : (driver.locate volume parent name).Emits (ReadsWithin limit) := by
  refine .bind (.note fun _ _ _ h => by cases h) fun _ => ?_
  cases driver with
  | ram => exact RamFs.lookup_emits parent name
  | scripted fs => exact Scripted.lookup_emits volume parent name

theorem lookupDirectory_emits {P : Event → Prop} (parent : NodeId) (name : String) :
    (lookupDirectory parent name).Emits P := by
  unfold lookupDirectory
  split
  · refine .bind (volumeOf_emits parent) fun volume => .bind .world fun w => ?_
    split
    · split
      · exact .pure _
      · exact .bind (.expect _ _) fun _ => .pure _
    · exact .pure _
  · exact .pure _

/-- Looking at a name reads no link. -/
theorem lookIn_emits {limit : UInt32} (parent : NodeId) (name : String) (crossing : Bool) :
    (lookIn parent name crossing).Emits (ReadsWithin limit) := by
  unfold lookIn
  split
  · exact .pure _
  split
  · exact .bind (.look _) fun _ => .bind (.demand _ _) fun _ => .pure _
  refine .bind (lookupDirectory_emits parent name) fun dir => ?_
  cases dir with
  | none => exact .pure _
  | some dir =>
    refine .bind (.look _) fun _ => .bind (.demand _ _) fun _ =>
      .bind (volumeOf_emits dir) fun volume => .bind (.look _) fun driver =>
        .bind (locate_emits driver volume dir name) fun found => ?_
    exact .bind .world fun w => .bind (.note fun _ _ _ h => by cases h) fun _ => .pure _

theorem status_emits {P : Event → Prop} (ops : OpsKind) (volume : VolumeKey) (n : NodeId) :
    (ops.status volume n).Emits P := by
  have hdefault : (Scripted.bareOps.status volume n).Emits P :=
    .bind (.look _) fun _ => .bind (.demand _ _) fun _ => .look _
  cases ops with
  | ram => exact .bind (RamFs.nodeOf_emits n) fun _ => .bind .world fun _ => .pure _
  | bare => exact hdefault
  | scripted meter script =>
    refine .bind (.ofResult _) fun _ => ?_
    cases script.size with
    | none => exact hdefault
    | some size => exact .bind (.look _) fun _ => .pure _

/-- A link is read at the counter its chain runs at. -/
theorem linkTarget_emits {limit c : UInt32} (hc : c ≤ limit) (n : NodeId) :
    (linkTarget n c).Emits (ReadsWithin limit) := by
  refine .bind (opsOf_emits n) fun ops => .bind (volumeOf_emits n) fun volume =>
    .bind (status_emits ops volume n) fun status => .bind (.look _) fun _ =>
    .bind (.demand _ _) fun _ => .bind (.note ?_) fun _ => ?_
  · intro ops' n' level h
    obtain ⟨-, -, rfl⟩ : ops = ops' ∧ n = n' ∧ c = level := by simpa using h
    exact hc
  · cases ops with
    | ram =>
      refine .bind (RamFs.nodeOf_emits n) fun node => ?_
      split
      · exact .pure _
      · exact .throw _
    | bare => exact .throw _
    | scripted meter script => exact .bind (.ofResult _) fun _ => .pure _

/-- Nested links are entered below the limit, so every link on the way is read within it. -/
theorem Runs.reads_within {w : World} {errand : Errand} {c c' : UInt32} {found : Finding NodeId}
    (h : Runs w errand c found c') (hc : c ≤ w.limits.linkDepth) :
    ∀ event ∈ found.trace, ReadsWithin w.limits.linkDepth event := by
  have hlook : ∀ {dir name crossing r t}, lookIn dir name crossing w = ⟨r, t⟩ →
      ∀ event ∈ t, ReadsWithin w.limits.linkDepth event := fun {dir name crossing _ _} heq =>
    (lookIn_emits dir name crossing).of_apply heq
  have htarget : ∀ {n c r t}, c ≤ w.limits.linkDepth → linkTarget n c w = ⟨r, t⟩ →
      ∀ event ∈ t, ReadsWithin w.limits.linkDepth event := fun {n _ _ _} hc heq =>
    (linkTarget_emits hc n).of_apply heq
  induction h with
  | passed | noLink | chainEnds | endsHere => simp
  | tooDeep | chainTooLong =>
    intro event hevent ops n level heq
    simp [heq] at hevent
  | pathFails _ ih | passFails _ ih => exact ih hc
  | nameFails heq | nameHere heq | namePlain heq => exact hlook heq
  | unreadable _ _ heq => exact htarget hc heq
  | entered _ hdeep _ ih => exact ih hdeep
  | ending _ _ ih => exact ih hc
  | path hfirst _ ih₁ ih₂ | pass hfirst _ ih₁ ih₂ =>
    obtain rfl := hfirst.restores
    exact List.forall_mem_append.2 ⟨ih₁ hc, ih₂ hc⟩
  | nameFollowed heq _ _ ih => exact List.forall_mem_append.2 ⟨hlook heq, ih hc⟩
  | targetFails _ _ heq _ ih => exact List.forall_mem_append.2 ⟨htarget hc heq, ih hc⟩
  | endingFails _ _ heq hfirst _ ih₁ ih₂ =>
    obtain rfl := hfirst.restores
    exact List.forall_mem_append.2 ⟨htarget hc heq, List.forall_mem_append.2 ⟨ih₁ hc, ih₂ hc⟩⟩
  | followed _ _ heq hfirst hsecond _ ih₁ ih₂ ih₃ =>
    obtain rfl := hfirst.restores
    obtain rfl := hsecond.restores
    exact List.forall_mem_append.2
      ⟨List.forall_mem_append.2 ⟨htarget hc heq, List.forall_mem_append.2 ⟨ih₁ hc, ih₂ hc⟩⟩, ih₃ hc⟩

/-! ## A task's walks -/

/-- From a depth within a limit below the last word, the nestings left are what is missing to the
limit. -/
theorem nestingsLeft_eq {limit depth : UInt32} (hlimit : limit < 4294967295)
    (hdepth : depth ≤ limit) :
    nestingsLeft limit depth = limit.toNat - depth.toNat := by
  have hne : depth + 1 ≠ 0 := by
    intro h
    have := congrArg UInt32.toNat h
    rw [UInt32.toNat_add] at this
    rw [UInt32.le_iff_toNat_le] at hdepth
    rw [UInt32.lt_iff_toNat_lt] at hlimit
    simp at this hlimit
    omega
  rw [nestingsLeft, if_neg hne]

section

variable [Backends] {w : World} {f g : Follow}

/-- A lookup depends on the treatment of links only in the world it runs in. -/
theorem resolveName_congr (h : ∀ dir n, f dir n w = g dir n w) (dir : NodeId) (name : String)
    (flags : LookupMode) : resolveName f dir name flags w = resolveName g dir name flags w := by
  rw [resolveName_eq_lookIn, resolveName_eq_lookIn]
  refine Query.bind_congr_at fun sight => ?_
  cases sight with
  | here n => rfl
  | entry d n =>
    cases flags.followLinks with
    | false => rfl
    | true => exact h d n

theorem walk_congr (h : ∀ dir n, f dir n w = g dir n w) (start : NodeId) (names : List String) :
    walk f start names w = walk g start names w := by
  induction names generalizing start with
  | nil => rfl
  | cons name rest ih =>
    rw [walk, walk, List.foldlM_cons, List.foldlM_cons]
    calc (resolveName f start name .full >>= fun dir => walk f dir rest) w
        = (resolveName f start name .full >>= fun dir => walk g dir rest) w :=
          Query.bind_congr_at fun dir => ih dir
      _ = (resolveName g start name .full >>= fun dir => walk g dir rest) w := by
          simp only [bind, resolveName_congr h]

/-- A task follows links as the errands at its depth do. -/
theorem followFor_apply (t : TaskId) (hlimit : w.limits.linkDepth < 4294967295)
    (hdepth : (w.task t).depth ≤ w.limits.linkDepth) (dir n : NodeId) :
    followFor t dir n w = (Errand.links dir n).query w (w.task t).depth w := by
  have hworld : Query.world w = ⟨.ok w, []⟩ := rfl
  rw [followFor, Query.bind_ok hworld, nestingsLeft_eq hlimit hdepth]
  rfl

theorem resolveIn_apply (t : TaskId) (hlimit : w.limits.linkDepth < 4294967295)
    (hdepth : (w.task t).depth ≤ w.limits.linkDepth) (dir : NodeId) (name : String)
    (flags : LookupMode) :
    resolveIn t dir name flags w = (Errand.name dir name flags).query w (w.task t).depth w :=
  resolveName_congr (followFor_apply t hlimit hdepth) dir name flags

theorem resolveParent_apply (t : TaskId) (hlimit : w.limits.linkDepth < 4294967295)
    (hdepth : (w.task t).depth ≤ w.limits.linkDepth) (start : Option NodeId) (path : String) :
    resolveParent t start path w =
      parentOfPath
        (followLinks (w.limits.linkDepth.toNat - (w.task t).depth.toNat) (w.task t).depth)
        (start.getD (w.cwd t)) path w := by
  rw [resolveParent, Query.look_bind, parentOfPath_apply, parentOfPath_apply]
  simp only [bind, walk_congr (followFor_apply t hlimit hdepth)]
  rfl

theorem resolve_apply (t : TaskId) (hlimit : w.limits.linkDepth < 4294967295)
    (hdepth : (w.task t).depth ≤ w.limits.linkDepth) (start : Option NodeId) (path : String)
    (flags : LookupMode) :
    resolve t start path flags w =
      (Errand.path (start.getD (w.cwd t)) path flags).query w (w.task t).depth w := by
  rw [resolve]
  simp only [bind, resolveParent_apply t hlimit hdepth, resolveIn_apply t hlimit hdepth]
  rfl

end

/-- The directory a path ends in, beside the name it ends with. -/
theorem parentOfPath_eq_map [Backends] (w : World) (follow : Follow) (start : NodeId)
    (path : String) {found : Finding NodeId}
    (h : walk follow ((Route.ofPath path).start w start) (Route.ofPath path).dirs w = found) :
    parentOfPath follow start path w =
      ⟨found.result.map fun dir => (dir, (Route.ofPath path).name), found.trace⟩ := by
  rcases found with ⟨_ | dir, t⟩
  · rw [parentOfPath_error h]
    rfl
  · rw [parentOfPath_ok h]
    rfl

/-- **Resolution ends and unwinds.** Take a task whose counter of nested links is within a limit
below the last word. Every piece of a walk's work ends from there, in one way only, and hands the
counter back as it got it; no link is read on the way while the counter is over the limit. What
`resolve`, `resolveParent`, `resolveIn` and `followFor` compute is how their errands end. At any
depth of nesting, and however it ends, an errand hands the counter back. -/
theorem resolution_unwinds (w : World) (t : TaskId) (hlimit : w.limits.linkDepth < 4294967295)
    (hdepth : (w.task t).depth ≤ w.limits.linkDepth) :
    (∀ errand, ∃ found,
      Runs w errand (w.task t).depth found (w.task t).depth ∧
      (∀ found' c', Runs w errand (w.task t).depth found' c' →
        found' = found ∧ c' = (w.task t).depth) ∧
      ∀ ops n level, .used ops (.readLink n level) ∈ found.trace → level ≤ w.limits.linkDepth) ∧
    (∀ start path flags,
      Runs w (.path (start.getD (w.cwd t)) path flags) (w.task t).depth
        (resolve t start path flags w) (w.task t).depth) ∧
    (∀ start path, ∃ found,
      Runs w (.pass ((Route.ofPath path).start w (start.getD (w.cwd t))) (Route.ofPath path).dirs)
        (w.task t).depth found (w.task t).depth ∧
      resolveParent t start path w =
        ⟨found.result.map fun dir => (dir, (Route.ofPath path).name), found.trace⟩) ∧
    (∀ dir name flags,
      Runs w (.name dir name flags) (w.task t).depth (resolveIn t dir name flags w)
        (w.task t).depth) ∧
    (∀ dir n, Runs w (.links dir n) (w.task t).depth (followFor t dir n w) (w.task t).depth) ∧
    ∀ errand before found after, Runs w errand before found after → after = before := by
  have hruns : ∀ errand, Runs w errand (w.task t).depth (errand.query w (w.task t).depth w)
      (w.task t).depth := fun errand => by
    obtain ⟨found, hrun⟩ := ends_of_le hlimit hdepth rfl errand
    rwa [hrun.query_eq hlimit hdepth]
  refine ⟨fun errand => ⟨_, hruns errand, fun found' c' h => ?_, fun ops n level hevent => ?_⟩,
    fun start path flags => ?_, fun start path => ⟨_, hruns _, ?_⟩, fun dir name flags => ?_,
    fun dir n => ?_, fun _ _ _ _ h => h.restores⟩
  · exact ⟨(h.query_eq hlimit hdepth).symm, h.restores⟩
  · exact (hruns errand).reads_within hdepth _ hevent ops n level rfl
  · rw [resolve_apply t hlimit hdepth]
    exact hruns _
  · rw [resolveParent_apply t hlimit hdepth]
    exact parentOfPath_eq_map w _ _ path rfl
  · rw [resolveIn_apply t hlimit hdepth]
    exact hruns _
  · rw [followFor_apply t hlimit hdepth]
    exact hruns _

/-- A fresh instance with a link that leads to itself. -/
def World.loop : World := (makeSymlink 0 none "loop" "loop" (World.fresh {})).world

theorem resolution_unwinds_of_loop :
    (World.loop.limits.linkDepth < 4294967295 ∧
      (World.loop.task 0).depth ≤ World.loop.limits.linkDepth) ∧
    (resolve 0 none "/loop" .full World.loop).result = .error .loop ∧
      Runs World.loop (.path (World.loop.cwd 0) "/loop" .full) (World.loop.task 0).depth
        (resolve 0 none "/loop" .full World.loop) (World.loop.task 0).depth :=
  ⟨by decide +kernel, rfl,
    (resolution_unwinds World.loop 0 (by decide +kernel) (by decide +kernel)).2.1 none "/loop" .full⟩

end VirtualFs
