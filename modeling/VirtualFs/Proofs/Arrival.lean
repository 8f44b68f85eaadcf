/-
Where resolution can arrive. A set of nodes that single lookups do not leave
(`Closed`) is not left by any walk either, through whatever links it leads.
-/
import VirtualFs.Namespace
import VirtualFs.Proofs.Lookup
import VirtualFs.Proofs.WellFormed
import VirtualFs.Standard

namespace VirtualFs

open Query (look)

namespace Query

variable {α β : Type} {w : World} {P : α → Prop}

/-- What the query finds, if it finds anything, satisfies `P`. -/
def Yields (x : Query α) (w : World) (P : α → Prop) : Prop := ∀ a, (x w).result = .ok a → P a

namespace Yields

theorem pure {a : α} (h : P a) : Yields (pure a : Query α) w P := by
  intro b hb
  cases hb
  exact h

theorem throw {e : Error} : Yields (throw e : Query α) w P := by
  intro b hb
  cases hb

theorem bind {x : Query α} {f : α → Query β} {Q : β → Prop} (hx : Yields x w P)
    (hf : ∀ a, P a → Yields (f a) w Q) : Yields (x >>= f) w Q := by
  intro b hb
  obtain ⟨a, ha, hb⟩ := result_bind_eq_ok.1 hb
  exact hf a (hx a ha) b hb

theorem skip {x : Query α} {f : α → Query β} {Q : β → Prop} (hf : ∀ a, Yields (f a) w Q) :
    Yields (x >>= f) w Q :=
  bind (P := fun _ => True) (fun _ _ => trivial) fun a _ => hf a

theorem look_bind {g : World → α} {f : α → Query β} {Q : β → Prop} (hf : Yields (f (g w)) w Q) :
    Yields (look g >>= f) w Q := by
  intro b hb
  rw [Query.look_bind] at hb
  exact hf b hb

theorem world_bind {f : World → Query β} {Q : β → Prop} (hf : Yields (f w) w Q) :
    Yields (world >>= f) w Q := by
  intro b hb
  rw [Query.world_bind] at hb
  exact hf b hb

end Yields

end Query

/-- What is seen satisfies `P`. So does the directory it is seen in if it is a link, for there the
target starts; any other node is not looked at again from its directory. -/
def Sight.All (w : World) (P : NodeId → Prop) : Sight → Prop
  | .here n => P n
  | .entry dir n => (w.isSymlink n = true → P dir) ∧ P n

/-! ## Closed sets of nodes -/

section

variable [Backends] {w : World} {P : NodeId → Prop}

/-- A set of nodes that no lookup across mounts leaves. -/
structure Closed (w : World) (P : NodeId → Prop) : Prop where
  root : P w.rootNode
  lookIn : ∀ parent name, P parent → (lookIn parent name true).Yields w (Sight.All w P)

/-- A treatment of links that does not leave a set. -/
def Follow.Within (follow : Follow) (w : World) (P : NodeId → Prop) : Prop :=
  ∀ dir n, (w.isSymlink n = true → P dir) → P n → (follow dir n).Yields w P

variable (hP : Closed w P)

include hP

theorem Closed.resolveName {follow : Follow} (hfollow : follow.Within w P) {parent : NodeId}
    (hparent : P parent) (name : String) {flags : LookupMode} (hcross : flags.crossMounts = true) :
    (resolveName follow parent name flags).Yields w P := by
  rw [resolveName_eq_lookIn, hcross]
  refine (hP.lookIn parent name hparent).bind fun sight hsight => ?_
  cases sight with
  | here n => exact .pure hsight
  | entry dir n =>
    obtain ⟨hdir, hn⟩ := hsight
    dsimp only
    split
    · exact hfollow dir n hdir hn
    · exact .pure hn

theorem Closed.walk {follow : Follow} (hfollow : follow.Within w P) {start : NodeId}
    (hstart : P start) (names : List String) : (walk follow start names).Yields w P := by
  induction names generalizing start with
  | nil => exact .pure hstart
  | cons name names ih =>
    rw [VirtualFs.walk, List.foldlM_cons]
    exact (hP.resolveName hfollow hstart name rfl).bind fun next hnext => ih hnext

/-- An absolute path does not look at where it is started from. -/
theorem Closed.parentOfPath {follow : Follow} (hfollow : follow.Within w P) {start : NodeId}
    {path : String} (hstart : (Route.ofPath path).absolute = false → P start) :
    (parentOfPath follow start path).Yields w fun found =>
      P found.1 ∧ found.2 = (Route.ofPath path).name := by
  rw [VirtualFs.parentOfPath]
  refine Query.Yields.look_bind ((hP.walk hfollow ?_ _).bind fun dir hdir => .pure ⟨hdir, rfl⟩)
  rw [Route.start]
  split
  · exact hP.root
  · next hrelative => exact hstart (Bool.not_eq_true _ ▸ hrelative)

theorem Closed.resolveTargetEnd {follow : Follow} (hfollow : follow.Within w P) {dir : NodeId}
    (hdir : P dir) (name : String) : (resolveTargetEnd follow dir name).Yields w P := by
  rw [VirtualFs.resolveTargetEnd]
  split
  · exact .pure hdir
  · exact hP.resolveName hfollow hdir name rfl

theorem Closed.followChain {follow : Follow} (hfollow : follow.Within w P) (depth : UInt32)
    (hops : Nat) : Follow.Within (followChain follow depth hops) w P := by
  induction hops with
  | zero =>
    intro dir n hdir hn
    refine Query.Yields.look_bind ?_
    split
    · exact .skip fun _ => .skip fun _ => .throw
    · exact .pure hn
  | succ hops ih =>
    intro dir n hdir hn
    refine Query.Yields.look_bind ?_
    split
    · next hlink =>
      refine .skip fun target => (hP.parentOfPath hfollow fun _ => hdir hlink).bind ?_
      rintro ⟨targetDir, name⟩ ⟨htarget, -⟩
      exact (hP.resolveTargetEnd hfollow htarget name).bind fun next hnext =>
        ih targetDir next (fun _ => htarget) hnext
    · exact .pure hn

theorem Closed.followLinks (left : Nat) (depth : UInt32) :
    Follow.Within (followLinks left depth) w P := by
  induction left generalizing depth with
  | zero =>
    intro dir n hdir hn
    refine Query.Yields.look_bind ?_
    split
    · exact .skip fun _ => .skip fun _ => .throw
    · exact .pure hn
  | succ left ih =>
    intro dir n hdir hn
    refine Query.Yields.look_bind ?_
    split
    · exact .skip fun _ => hP.followChain (ih _) _ _ dir n hdir hn
    · exact .pure hn

theorem Closed.followFor (t : TaskId) : Follow.Within (followFor t) w P :=
  fun dir n hdir hn => .skip fun _ => hP.followLinks _ _ dir n hdir hn

theorem Closed.resolveParent {t : TaskId} {start : Option NodeId} (hcwd : P (w.cwd t))
    (hstart : ∀ n, start = some n → P n) (path : String) :
    (resolveParent t start path).Yields w fun found =>
      P found.1 ∧ found.2 = (Route.ofPath path).name := by
  refine Query.Yields.look_bind (hP.parentOfPath (hP.followFor t) fun _ => ?_)
  cases start with
  | none => exact hcwd
  | some n => exact hstart n rfl

end

/-- A place is the last name of a path, which may be listed, in a directory whose volume may be
written. -/
theorem placeOf_eq_ok [Backends] {w : World} {t : TaskId} {base : Option Handle} {path : String}
    {place : Place} (hplace : (placeOf t base path w).result = .ok place) :
    (resolveTarget t base path w).result = .ok (place.parent, place.name) ∧
      checkName place.name = .ok () ∧
        (volumeForWriting place.parent w).result = .ok place.volume ∧
          place.driver = (w.node place.parent).driver := by
  obtain ⟨⟨parent, name⟩, hfound, hplace⟩ := Query.result_bind_eq_ok.1 hplace
  obtain ⟨_, hchecked, hplace⟩ := Query.result_bind_eq_ok.1 hplace
  obtain ⟨v, hv, hplace⟩ := Query.result_bind_eq_ok.1 hplace
  rw [Query.look_bind] at hplace
  cases hplace
  rw [Query.result_ofResult] at hchecked
  exact ⟨hfound, hchecked, hv, rfl⟩

/-! ## The nodes that are there -/

namespace World.WellFormed

variable {w : World} (h : w.WellFormed) {n d : NodeId}

include h

/-- A lookup in a directory that is there finds a node that is there, of the same volume. -/
theorem lookup_yields (hd : w.Live d) (name : String) :
    (RamFs.lookup d name).Yields w fun n => w.Live n ∧ (w.node n).volume = (w.node d).volume := by
  intro n hn
  by_cases hdot : name = "."
  · rw [RamFs.lookup, if_pos hdot] at hn
    cases hn
    exact ⟨hd, rfl⟩
  by_cases hdots : name = ".."
  · rw [RamFs.lookup, if_neg hdot, if_pos hdots, RamFs.containerOf_apply (h.ram d hd)] at hn
    cases hn
    refine ⟨hd.up, ?_⟩
    rcases w.hangs_or_up_eq d with hangs | ⟨hself, -⟩
    · exact (h.linked.volume d _ hangs).symm
    · rw [hself]
  · obtain ⟨-, hentry⟩ := (RamFs.lookup_result_eq_ok (h.ram d hd) hdot hdots).1 hn
    exact ⟨h.linked.live d name n hentry, h.volume_of_entry hentry⟩

theorem locate_yields (hd : w.Live d) (v : VolumeKey) (name : String) :
    ((w.node d).driver.locate v d name).Yields w fun n =>
      w.Live n ∧ (w.node n).volume = (w.node d).volume := by
  rw [(h.ram d hd).driver]
  exact .skip fun _ => h.lookup_yields hd name

omit h in
theorem volumeOf_yields (n : NodeId) :
    (VirtualFs.volumeOf n).Yields w fun v => v = (w.node n).volume :=
  fun _ hv => (volumeOf_eq_some.1 (volumeOf_eq_ok.1 hv)).2

end World.WellFormed

end VirtualFs
