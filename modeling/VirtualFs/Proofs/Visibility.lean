/-
A mount hides what it covers. What names lead to from the root of everything,
crossing every mount on the way, is all that any path ever leads to, whatever
it passes through: names, ".", "..", or links to anywhere. So once something
is mounted on a directory, the directory and what is below it are out of
reach, and so are the volumes mounted there before.
-/
import VirtualFs.Proofs.Whereabouts

namespace VirtualFs


namespace World

/-- Names lead to the node from the root of everything. -/
def Seen (w : World) (n : NodeId) : Prop := ∃ names, w.Visible names n

/-- A node that a mount covers: the directory something is mounted on, and whatever the names below
that directory lead to. -/
inductive Hidden (w : World) : NodeId → Prop where
  | covered {n r} : (w.node n).mountRoot = some r → Hidden w n
  | listed {d name c} : Hidden w d → w.Entry d name c → Hidden w c
  | mounted {d name c} : Hidden w d → w.Entry d name c → Hidden w (w.cross c)

variable {w : World} (h : w.WellFormed) {d d' n c c' : NodeId} {name name' : String}

theorem seen_root : w.Seen w.rootNode := ⟨[], .root⟩

theorem Seen.child (hd : w.Seen d) (he : w.Entry d name c) : w.Seen (w.cross c) := by
  obtain ⟨names, hv⟩ := hd
  exact ⟨names ++ [name], hv.child he⟩

/-- What is seen is the root of everything, or is seen at an entry of a directory that is seen. -/
theorem Seen.cases (hn : w.Seen n) :
    n = w.rootNode ∨ ∃ d name c, w.Seen d ∧ w.Entry d name c ∧ n = w.cross c := by
  obtain ⟨names, hv⟩ := hn
  cases hv with
  | root => exact .inl rfl
  | @child names d name c hv he => exact .inr ⟨d, name, c, ⟨names, hv⟩, he, rfl⟩

include h

theorem Seen.live (hn : w.Seen n) : w.Live n := by
  obtain ⟨names, hv⟩ := hn
  exact hv.live h

theorem Seen.cross_eq (hn : w.Seen n) : w.cross n = n := by
  obtain ⟨names, hv⟩ := hn
  exact hv.cross_eq h

/-! ## What is hidden is not seen -/

theorem Seen.mountRoot_eq_none (hn : w.Seen n) : (w.node n).mountRoot = none := by
  cases hr : (w.node n).mountRoot with
  | none => rfl
  | some r =>
    have hlt := h.volumeId_lt_of_mountRoot hr
    have hself : r = n := by rw [← WellFormed.cross_of_mountRoot hr, hn.cross_eq h]
    rw [hself] at hlt
    exact absurd hlt (Nat.lt_irrefl _)

/-- Different entries show different nodes, for no volume is mounted twice and no root is listed. -/
theorem cross_inj (he : w.Entry d name c) (he' : w.Entry d' name' c')
    (heq : w.cross c = w.cross c') : c = c' := by
  have hfoot := foothold_cross h he
  rw [heq, foothold_cross h he'] at hfoot
  exact (Option.some.inj hfoot).symm

/-- A directory that lists something seen, or what something seen is mounted on, is seen. -/
theorem Seen.of_cross (hn : w.Seen (w.cross c)) (he : w.Entry d name c) : w.Seen d := by
  rcases hn.cases with hroot | ⟨d', name', c', hd', he', heq⟩
  · exact absurd hroot (cross_ne_rootNode h he)
  · obtain rfl := cross_inj h he he' heq
    rwa [(h.entry_unique he he').1]

theorem Hidden.not_seen (hn : w.Hidden n) : ¬w.Seen n := by
  induction hn with
  | covered hr =>
    intro hseen
    rw [hseen.mountRoot_eq_none h] at hr
    cases hr
  | @listed d name c _ he ih =>
    intro hseen
    have hcross : w.Seen (w.cross c) := by rwa [hseen.cross_eq h]
    exact ih (hcross.of_cross h he)
  | mounted _ he ih => exact fun hseen => ih (hseen.of_cross h he)

/-! ## What is seen is closed under lookups -/

/-- The way up from a seen directory starts below another one that is seen: at the directory itself,
or at what it is mounted on. -/
theorem Seen.foothold (hn : w.Seen n) (hroot : n ≠ w.rootNode) :
    ∃ p name, w.foothold n = some p ∧ w.Seen (w.up p) ∧ w.Entry (w.up p) name p := by
  rcases hn.cases with heq | ⟨d, name, c, hd, he, rfl⟩
  · exact absurd heq hroot
  · have hup : w.up c = d := up_eq_of_hangs (h.hangs_of_entry he)
    refine ⟨c, name, foothold_cross h he, ?_, ?_⟩
    · rwa [hup]
    · rwa [hup]

/-- What a lookup from a seen directory finds is seen. Only under a name can it be a link, and then
it was found in the seen directory itself. -/
theorem lookIn_seen (hd : w.Seen d) (name : String) :
    (lookIn d name true).Yields w (Sight.All w w.Seen) := by
  by_cases hempty : name = ""
  · rw [lookIn, if_pos hempty]
    exact .pure hd
  by_cases hdot : name = "."
  · rw [lookIn, if_neg hempty, if_pos hdot]
    exact .skip fun _ => .skip fun _ => .pure hd
  intro sight hsight
  by_cases hdots : name = ".."
  · subst hdots
    rw [lookIn_dots h (hd.live h)] at hsight
    split at hsight
    · cases hsight
      exact hd
    next hroot =>
    obtain ⟨p, a, hfoot, hseen, he⟩ := hd.foothold h hroot
    rw [hfoot, Option.elim_some] at hsight
    split at hsight
    · cases hsight
      rw [if_pos rfl, hseen.cross_eq h]
      refine ⟨fun hlink => ?_, hseen⟩
      rw [isSymlink_of_isDirectory (h.isDirectory_of_entry he)] at hlink
      cases hlink
    · cases hsight
  · obtain ⟨c, he, rfl⟩ := entry_of_lookIn h (hd.live h) hempty hdot hdots hsight
    exact ⟨fun _ => hd, hd.child he⟩

theorem closed_seen : Closed w w.Seen := ⟨seen_root, fun _ name hd => lookIn_seen h hd name⟩

end World

/-- **A mount hides what it covers.** In every reachable world a path that crosses mounts leads only
to nodes that names lead to from the root of everything, if it starts at such a node or at that
root, whatever links and ".." it passes through. So it never leads to a directory that something is
mounted on, nor to anything below one. -/
theorem resolve_arrives_seen {w : World} (hw : w.Reachable) (t : TaskId) {start : Option NodeId}
    {path : String} (hstart : (Route.ofPath path).absolute = true ∨ w.Seen (start.getD (w.cwd t)))
    {flags : LookupMode} (hcross : flags.crossMounts = true) {n : NodeId}
    (hn : (resolve t start path flags w).result = .ok n) :
    w.Seen n ∧ (w.node n).mountRoot = none ∧ ¬w.Hidden n := by
  have h := hw.wellFormed
  have hclosed := World.closed_seen h
  have hfollow := hclosed.followFor t
  have hparent : (resolveParent t start path).Yields w fun found =>
      w.Seen found.1 ∧ found.2 = (Route.ofPath path).name := by
    refine Query.Yields.look_bind (hclosed.parentOfPath hfollow fun hrelative => ?_)
    rw [hrelative] at hstart
    exact hstart.resolve_left Bool.false_ne_true
  have hseen : w.Seen n :=
    hparent.bind (fun found hfound => hclosed.resolveName hfollow hfound.1 found.2 hcross) n hn
  exact ⟨hseen, hseen.mountRoot_eq_none h, fun hhidden => hhidden.not_seen h hseen⟩

/-- A link that leaves the volume it is on and comes back, beside two stacked volumes. -/
def World.looped : World :=
  Operation.runAll [.makeSymlink 0 none "/z/b/l" "../b/c/.."] World.stacked

/-- From the working directory, up through both mount points and then through a link. -/
theorem resolve_arrives_seen_of_link :
    (World.looped.Reachable ∧ World.looped.Seen (World.looped.cwd 0)) ∧
    (World.looped.Hidden 3 ∧ World.looped.Hidden 5) ∧
    (resolve 0 none "../../l" .full World.looped).result = .ok 4 ∧
      World.looped.Seen 4 ∧ ¬World.looped.Hidden 4 := by
  have hreachable : World.looped.Reachable :=
    ⟨{}, (World.steps_runAll _ _).trans (World.steps_runAll _ World.stacked)⟩
  have hcwd : World.looped.cwd 0 = 7 := by decide +kernel
  have hpath : (resolve 0 none "/z/b/c/d" .full World.looped).result = .ok 7 := by decide +kernel
  have hlink : (resolve 0 none "../../l" .full World.looped).result = .ok 4 := by decide +kernel
  have houter : (World.looped.node 3).mountRoot = some 4 := by decide +kernel
  have hinner : (World.looped.node 5).mountRoot = some 6 := by decide +kernel
  have hstart : World.looped.Seen (World.looped.cwd 0) := by
    rw [hcwd]
    exact (resolve_arrives_seen hreachable 0 (.inl (by decide)) (by decide) hpath).1
  obtain ⟨hseen, -, hhidden⟩ := resolve_arrives_seen hreachable 0 (.inr (by rwa [Option.getD_none]))
    (by decide) hlink
  exact ⟨⟨hreachable, hstart⟩, ⟨.covered houter, .covered hinner⟩, hlink, hseen, hhidden⟩

end VirtualFs
