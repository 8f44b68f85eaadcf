/-
Lookups outlast what is added. Making a file takes nothing away: each node that
was there stays where it is, and each directory lists what it listed. So what a
name leads to it still leads to, and so does a path. A name that led to nothing
may lead somewhere now; that is all that can change.
-/
import VirtualFs.Proofs.LookupFailures
import VirtualFs.Proofs.NumberedOpens
import VirtualFs.Proofs.Tidiness

namespace VirtualFs

/-! ## Adding -/

namespace World

/-- The second world has all that lookups go by in the first, and may have more. -/
structure Adds (w w' : World) : Prop where
  limits : w'.limits = w.limits
  tasks : w'.tasks = w.tasks
  cwd : ∀ c, (w'.context c).cwd = (w.context c).cwd
  rootVolume : w'.rootVolume = w.rootVolume
  /-- Of a volume only the number that its next node gets may be another. -/
  volume : ∀ v, w.volumes.has v = true →
    w'.volumes.has v = true ∧ ∃ nextIno, w'.volume v = { w.volume v with nextIno }
  live : ∀ n, w.Live n → w'.Live n
  /-- Of a node only what it holds may be another. -/
  node : ∀ n, w.Live n → ∃ payload, w'.node n = { w.node n with payload }
  up : ∀ n, w.Live n → w'.up n = w.up n
  entry : ∀ d name c, w.Entry d name c → w'.Entry d name c
  target : ∀ n target, w.Live n → w.content n = .symlink target → w'.content n = .symlink target

namespace Adds

variable {w w' w'' : World} (a : w.Adds w') {n p : NodeId}

theorem trans (a : w.Adds w') (a' : w'.Adds w'') : w.Adds w'' where
  limits := a'.limits.trans a.limits
  tasks := a'.tasks.trans a.tasks
  cwd c := (a'.cwd c).trans (a.cwd c)
  rootVolume := a'.rootVolume.trans a.rootVolume
  volume v hv := by
    obtain ⟨hv', _, hvolume⟩ := a.volume v hv
    obtain ⟨hv'', _, hvolume'⟩ := a'.volume v hv'
    rw [hvolume] at hvolume'
    exact ⟨hv'', _, hvolume'⟩
  live n hn := a'.live n (a.live n hn)
  node n hn := by
    obtain ⟨_, hnode⟩ := a.node n hn
    obtain ⟨_, hnode'⟩ := a'.node n (a.live n hn)
    rw [hnode] at hnode'
    exact ⟨_, hnode'⟩
  up n hn := (a'.up n (a.live n hn)).trans (a.up n hn)
  entry d name c he := a'.entry d name c (a.entry d name c he)
  target n text hn ht := a'.target n text (a.live n hn) (a.target n text hn ht)

include a

theorem isDirectory (hn : w.Live n) : w'.isDirectory n = w.isDirectory n := by
  obtain ⟨_, hnode⟩ := a.node n hn
  rw [World.isDirectory, hnode, World.isDirectory]

theorem isSymlink (hn : w.Live n) : w'.isSymlink n = w.isSymlink n := by
  obtain ⟨_, hnode⟩ := a.node n hn
  rw [World.isSymlink, hnode, World.isSymlink]

theorem mountRoot (hn : w.Live n) : (w'.node n).mountRoot = (w.node n).mountRoot := by
  obtain ⟨_, hnode⟩ := a.node n hn
  rw [hnode]

theorem cross (hn : w.Live n) : w'.cross n = w.cross n := by
  rw [World.cross, World.cross, a.mountRoot hn]

theorem cwd_eq (t : TaskId) : w'.cwd t = w.cwd t := by
  rw [World.cwd, World.task, a.tasks, a.cwd, World.cwd, World.task]

/-- A volume that is mounted somewhere stays mounted there. -/
theorem mountPoint {v : VolumeKey} (hv : w.volumes.has v = true) (hp : w.mountPoint v = some p) :
    w'.mountPoint v = some p := by
  have hlive : w.Live p := WellFormed.live_mountPoint hp
  have hlive' : w'.nodes.has p = true := a.live p hlive
  obtain ⟨-, _, hvolume⟩ := a.volume v hv
  rw [World.mountPoint, Option.filter_eq_some_iff, Bool.and_eq_true] at hp
  rw [World.mountPoint, Option.filter_eq_some_iff, Bool.and_eq_true, hvolume, a.mountRoot hlive]
  exact ⟨hp.1, hlive', hp.2.2⟩

variable (h : w.WellFormed)

include h

theorem rootNode : w'.rootNode = w.rootNode := by
  obtain ⟨-, _, hvolume⟩ := a.volume _ h.rooted.rootVolume
  rw [World.rootNode, a.rootVolume, hvolume, World.rootNode]

theorem foothold (hn : w.Live n) (hp : w.foothold n = some p) : w'.foothold n = some p := by
  have hv := h.numbered.volume n hn
  obtain ⟨-, _, hvolume⟩ := a.volume _ hv
  obtain ⟨_, hnode⟩ := a.node n hn
  rw [World.foothold] at hp
  rw [World.foothold, hnode]
  dsimp only
  rw [hvolume]
  split
  · next hroot =>
    rw [if_pos hroot] at hp
    exact a.mountPoint hv hp
  · next hroot =>
    rwa [if_neg hroot] at hp

end Adds

/-- Tables and open files are nothing to lookups. -/
theorem Retabled.adds {w w' : World} (r : w.Retabled w') : w.Adds w' := by
  have hnode : ∀ n, w'.node n = w.node n := fun n => by rw [World.node, r.nodes, World.node]
  have hlive : ∀ n, w.Live n → w'.Live n := fun n hn => by rw [Live, r.nodes]; exact hn
  refine ⟨r.limits, r.tasks, r.cwd, r.rootVolume, fun v hv => ⟨by rw [r.volumes]; exact hv,
    (w.volume v).nextIno, by rw [World.volume, r.volumes, World.volume]⟩, hlive,
    fun n _ => ⟨_, hnode n⟩, fun n _ => ?_, fun d name c he => ?_, fun n text _ ht => ?_⟩
  · rw [World.up, World.parent, hnode, r.nodes, World.up, World.parent]
  · rwa [Entry, World.children, hnode]
  · rwa [World.content, hnode]

section

variable {w w' : World} (h : w.WellFormed) {n m d : NodeId} {name : String}
  (hinserted : w.Inserted d name n w')

include h hinserted

/-- A new node takes a number of its volume. -/
theorem Inserted.volume_kept {v : VolumeKey} (hv : w.volumes.has v = true) :
    w'.volumes.has v = true ∧ ∃ nextIno, w'.volume v = { w.volume v with nextIno } := by
  refine ⟨(hinserted.keepsRoots h v hv).1, ?_⟩
  cases hinserted with
  | @mk ino mode content ops hdir =>
    show ∃ nextIno, (w.withNode d ino mode content ops).volume v = { w.volume v with nextIno }
    rw [volume_withNode h hdir]
    split
    · exact ⟨_, rfl⟩
    · exact ⟨(w.volume v).nextIno, rfl⟩

theorem Inserted.node_kept (hm : w.Live m) : ∃ payload, w'.node m = { w.node m with payload } := by
  rw [hinserted.node_eq h hm]
  split
  · next heq =>
    rw [heq, (h.ram d (heq ▸ hm)).mapRam]
    exact ⟨_, rfl⟩
  · exact ⟨_, rfl⟩

theorem Inserted.up_eq (hm : w.Live m) : w'.up m = w.up m := by
  have hparent : w'.parent m = w.parent m := by
    rw [World.parent, hinserted.node_eq h hm]
    split
    · next heq =>
      rw [heq, (h.ram d (heq ▸ hm)).mapRam]
      rfl
    · rfl
  rw [World.up, hparent, World.up]
  cases hp : w.parent m with
  | none => rfl
  | some p =>
    -- A parent that is gone is not the new node, whose key had still to be given.
    have hother : p ≠ n := fun heq =>
      Nat.lt_irrefl _ (hinserted.eq_nextKey ▸ heq ▸ h.linked.given m p hp)
    have hsame : w'.nodes.has p = w.nodes.has p := Bool.eq_iff_iff.2
      ⟨fun hp' => ((hinserted.live_iff h).1 hp').resolve_right hother,
        fun hp' => (hinserted.live_iff h).2 (.inl hp')⟩
    rw [Option.filter_some, Option.filter_some, hsame]

/-- What lists the new node is a directory, and so no link. -/
theorem Inserted.target_kept {target : String} (hm : w.Live m)
    (ht : w.content m = .symlink target) : w'.content m = .symlink target := by
  rw [World.content, hinserted.node_eq h hm]
  split
  · next heq =>
    have hlink := h.isSymlink_of_content hm ht
    rw [heq, isSymlink_of_isDirectory hinserted.isDirectory] at hlink
    cases hlink
  · exact ht

/-- A file that is made takes nothing away. -/
theorem Inserted.adds : w.Adds w' := by
  obtain ⟨hlimits, htasks, hroot⟩ :
      w'.limits = w.limits ∧ w'.tasks = w.tasks ∧ w'.rootVolume = w.rootVolume := by
    cases hinserted with
    | mk => exact ⟨rfl, rfl, rfl⟩
  exact {
    limits := hlimits
    tasks := htasks
    cwd := fun c => by rw [World.context, hinserted.contexts_eq, World.context]
    rootVolume := hroot
    volume := fun v hv => hinserted.volume_kept h hv
    live := fun m hm => (hinserted.live_iff h).2 (.inl hm)
    node := fun m hm => hinserted.node_kept h hm
    up := fun m hm => hinserted.up_eq h hm
    entry := fun e a x he => (hinserted.entry_iff h).2 (.inl he)
    target := fun m text hm ht => hinserted.target_kept h hm ht }

end

end World

/-! ## What is found is still found -/

namespace Query

variable {α β : Type} {w w' : World}

/-- What the query finds in the first world it finds in the second too. -/
def Lasts (x : Query α) (w w' : World) : Prop :=
  ∀ a, (x w).result = .ok a → (x w').result = .ok a

namespace Lasts

theorem pure (a : α) : (pure a : Query α).Lasts w w' := fun _ ha => ha

theorem bind {x : Query α} {f : α → Query β} (hx : x.Lasts w w')
    (hf : ∀ a, (x w).result = .ok a → (f a).Lasts w w') : (x >>= f).Lasts w w' := by
  intro b hb
  obtain ⟨a, ha, hb⟩ := result_bind_eq_ok.1 hb
  exact result_bind_eq_ok.2 ⟨a, hx a ha, hf a ha b hb⟩

theorem look_bind {g : World → α} {f : α → Query β} (hg : g w' = g w)
    (hf : (f (g w)).Lasts w w') : (look g >>= f).Lasts w w' := by
  intro b hb
  rw [Query.look_bind] at hb ⊢
  rw [hg]
  exact hf b hb

theorem demand (p : Prop) [Decidable p] (e : Error) : (demand p e).Lasts w w' := by
  rw [Query.demand]
  split
  · exact pure ()
  · exact fun _ ha => ha

end Lasts

end Query

section

variable {w w' : World} (h : w.WellFormed) (h' : w'.WellFormed) (a : w.Adds w')

include h h' a

theorem lookIn_lasts {d : NodeId} (hd : w.Live d) (name : String) (crossing : Bool) :
    (lookIn d name crossing).Lasts w w' := by
  by_cases hempty : name = ""
  · rw [lookIn, if_pos hempty]
    exact .pure _
  by_cases hdot : name = "."
  · rw [lookIn, if_neg hempty, if_pos hdot]
    exact .look_bind (a.isDirectory hd) (.bind (.demand _ _) fun _ _ => .pure _)
  by_cases hdots : name = ".."
  · subst hdots
    intro sight hsight
    rw [World.lookIn_dots h hd] at hsight
    rw [World.lookIn_dots h' (a.live d hd), a.rootNode h]
    split
    · next hroot => rwa [if_pos hroot] at hsight
    next hroot =>
    rw [if_neg hroot] at hsight
    cases hp : w.foothold d with
    | none =>
      rw [hp] at hsight
      cases hsight
    | some p =>
      have hlive := World.live_foothold hd hp
      rw [hp] at hsight
      rw [a.foothold h hd hp, Option.elim_some, a.isDirectory hlive, a.up p hlive,
        a.cross hlive.up]
      exact hsight
  · intro sight hsight
    obtain ⟨n, he, rfl⟩ := World.entry_of_lookIn h hd hempty hdot hdots hsight
    rw [World.lookIn_entry h' (a.entry d name n he), a.cross (h.linked.live d name n he)]

theorem linkTarget_lasts {n : NodeId} (hlink : w.isSymlink n = true) (depth : UInt32) :
    (linkTarget n depth).Lasts w w' := by
  have hn := World.live_of_isSymlink hlink
  obtain ⟨target, htarget⟩ := h.content_of_isSymlink hlink
  intro text htext
  rw [h.linkTarget_result hn htarget] at htext
  rw [h'.linkTarget_result (a.live n hn) (a.target n target hn htarget), a.limits]
  exact htext

/-- A treatment of links whose finds last. -/
def Follow.Lasts (follow : Follow) (w w' : World) : Prop :=
  ∀ dir n, (w.isSymlink n = true → w.Known dir) → w.Known n → (follow dir n).Lasts w w'

section

variable {follow : Follow} (hwithin : follow.Within w w.Known) (hfollow : follow.Lasts w w')

include hfollow

theorem resolveName_lasts {d : NodeId} (hd : w.Known d) (name : String) (flags : LookupMode) :
    (resolveName follow d name flags).Lasts w w' := by
  rw [resolveName_eq_lookIn]
  refine (lookIn_lasts h h' a hd.live name _).bind fun sight hsight => ?_
  have hseen := h.sound.lookIn_yields hd name _ sight hsight
  cases sight with
  | here n => exact .pure n
  | entry dir n =>
    dsimp only
    split
    · exact hfollow dir n hseen.1 hseen.2
    · exact .pure n

include hwithin

theorem walk_lasts {start : NodeId} (hstart : w.Known start) (names : List String) :
    (walk follow start names).Lasts w w' := by
  induction names generalizing start with
  | nil => exact .pure start
  | cons name rest ih =>
    rw [walk, List.foldlM_cons]
    refine (resolveName_lasts h h' a hfollow hstart name .full).bind fun next hnext => ?_
    exact ih (h.sound.closed_known.resolveName hwithin hstart name rfl next hnext)

theorem parentOfPath_lasts {start : NodeId} (hstart : w.Known start) (path : String) :
    (parentOfPath follow start path).Lasts w w' := by
  have hroute : w.Known ((Route.ofPath path).start w start) := by
    rw [Route.start]
    split
    · exact h.sound.root
    · exact hstart
  refine .look_bind (by rw [Route.start, a.rootNode h, Route.start]) ?_
  exact (walk_lasts h h' a hwithin hfollow hroute _).bind fun _ _ => .pure _

omit hwithin in
theorem resolveTargetEnd_lasts {d : NodeId} (hd : w.Known d) (name : String) :
    (resolveTargetEnd follow d name).Lasts w w' := by
  rw [resolveTargetEnd]
  split
  · exact .pure d
  · exact resolveName_lasts h h' a hfollow hd name .crossOnly

theorem followChain_lasts (depth : UInt32) (hops : Nat) :
    (followChain follow depth hops).Lasts w w' := by
  induction hops with
  | zero =>
    intro dir n _ hn
    refine .look_bind (a.isSymlink hn.live) ?_
    split
    · intro r hr
      cases hr
    · exact .pure n
  | succ hops ih =>
    intro dir n hdir hn
    refine .look_bind (a.isSymlink hn.live) ?_
    split
    · next hlink =>
      refine (linkTarget_lasts h h' a hlink depth).bind fun target _ => ?_
      refine (parentOfPath_lasts h h' a hwithin hfollow (hdir hlink) target).bind
        fun found hfound => ?_
      obtain ⟨hknown, -⟩ :=
        h.sound.closed_known.parentOfPath hwithin (fun _ => hdir hlink) found hfound
      refine (resolveTargetEnd_lasts h h' a hfollow hknown found.2).bind fun next hnext => ?_
      exact ih found.1 next (fun _ => hknown)
        (h.sound.closed_known.resolveTargetEnd hwithin hknown found.2 next hnext)
    · exact .pure n

end

theorem followLinks_lasts (left : Nat) (depth : UInt32) : (followLinks left depth).Lasts w w' := by
  induction left generalizing depth with
  | zero =>
    intro dir n _ hn
    refine .look_bind (a.isSymlink hn.live) ?_
    split
    · intro r hr
      cases hr
    · exact .pure n
  | succ left ih =>
    intro dir n hdir hn
    refine .look_bind (a.isSymlink hn.live) ?_
    split
    · refine .look_bind (by rw [a.limits]) ?_
      exact followChain_lasts h h' a (h.sound.closed_known.followLinks left _) (ih _) _ _ dir n
        hdir hn
    · exact .pure n

theorem followFor_lasts (t : TaskId) : (followFor t).Lasts w w' := by
  intro dir n hdir hn r hr
  rw [followFor, Query.world_bind] at hr ⊢
  rw [World.task, a.tasks, a.limits]
  exact followLinks_lasts h h' a _ _ dir n hdir hn r hr

theorem resolveIn_lasts (t : TaskId) {d : NodeId} (hd : w.Known d) (name : String)
    (flags : LookupMode) : (resolveIn t d name flags).Lasts w w' :=
  resolveName_lasts h h' a (followFor_lasts h h' a t) hd name flags

theorem resolveParent_lasts (t : TaskId) {start : Option NodeId}
    (hstart : ∀ n, start = some n → w.Known n) (path : String) :
    (resolveParent t start path).Lasts w w' := by
  refine .look_bind (a.cwd_eq t) (parentOfPath_lasts h h' a (h.sound.closed_known.followFor t)
    (followFor_lasts h h' a t) ?_ path)
  cases start with
  | none => exact h.sound.known_cwd t
  | some n => exact hstart n rfl

/-- **What a path leads to, it leads to whatever is added.** -/
theorem resolve_lasts (t : TaskId) {start : Option NodeId}
    (hstart : ∀ n, start = some n → w.Known n) (path : String) (flags : LookupMode) :
    (resolve t start path flags).Lasts w w' := by
  refine (resolveParent_lasts h h' a t hstart path).bind fun found hfound => ?_
  exact resolveIn_lasts h h' a t
    (h.sound.closed_known.resolveParent (h.sound.known_cwd t) hstart path found hfound).1 found.2
    flags

/-- So does the directory of a path that starts at a handle, as long as the handle stands for what
it stood for. -/
theorem resolveTarget_lasts (t : TaskId) {base : Option Handle}
    (hbase : ∀ handle, base = some handle → (openFileOf t handle).Lasts w w') (path : String) :
    (resolveTarget t base path).Lasts w w' := by
  refine .bind ?_ fun start hstart =>
    resolveParent_lasts h h' a t (h.sound.startNode_yields t base start hstart) path
  cases base with
  | none => exact .pure none
  | some handle =>
    refine (hbase handle rfl).bind fun file hfile => ?_
    have hknown := h.sound.openFileOf_yields t handle file hfile
    exact .look_bind (a.isDirectory hknown.live) (.bind (.demand _ _) fun _ _ => .pure _)

end

end VirtualFs
