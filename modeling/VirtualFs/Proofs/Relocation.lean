/-
A rename moves a subtree as a whole. One entry goes and one comes
(`World.Shifts`), and the directory that gets the new one is not below what
moves. So nothing changes below the source, the way down to either directory
does not pass a place that changes, and every other raw path is as it was.
-/
import VirtualFs.Proofs.Entries
import VirtualFs.Proofs.FailedOperations
import VirtualFs.Proofs.RawPaths

namespace VirtualFs

theorem Node.mode_apart (node : Node) : node.apart.mode = node.mode := by
  rw [Node.apart, Node.mapRam]
  split <;> rfl

/-- No path begins with one that goes on from it. -/
theorem not_append_singleton_prefix {p : List String} {name : String} : ¬p ++ [name] <+: p := by
  intro hprefix
  have hlength := hprefix.length_le
  rw [List.length_append, List.length_singleton] at hlength
  omega

namespace World

variable {w w' : World} {oldDir s d n c : NodeId} {oldName name : String} {v : VolumeKey}
  {p q P Q : List String}

/-- What was at the raw path `A` of a volume is at `B` now, below the directory `d`, and nothing
else is anywhere else than it was. -/
structure Relocated (w w' : World) (v : VolumeKey) (A B : List String) (s d : NodeId) : Prop where
  source : w.rawWalk v A = .ok s
  /-- What is below the source is found below its new path, and what is not there is missed there in
  the same way. -/
  carried : ∀ q, w'.rawWalk v (B ++ q) = w.rawWalk v (A ++ q)
  gone : ∀ q, w'.rawWalk v (A ++ q) = .error .notFound
  /-- Other volumes have raw paths of their own. -/
  apart : ∀ u p, w.volumes.has u = true → (u = v → ¬A <+: p ∧ ¬B <+: p) →
    w'.rawWalk u p = w.rawWalk u p
  up : ∀ q n, w'.descend s q = .ok n →
    (Query.repeated (RamFs.lookup · "..") q.length n w').result = .ok s ∧
      (Query.repeated (RamFs.lookup · "..") (q.length + 1) n w').result = .ok d
  /-- So it is with what tasks see of "..", which starts from a directory. -/
  seen_up : ∀ t q n, w'.descend s q = .ok n → w'.isDirectory n = true →
    (Query.repeated (resolveIn t · ".." .plain) q.length n w').result = .ok s ∧
      (Query.repeated (resolveIn t · ".." .plain) (q.length + 1) n w').result = .ok d

/-! ## What a rename leaves -/

theorem Renamed.volumes_eq (hrenamed : w.Renamed oldDir oldName d name w') :
    w'.volumes = w.volumes := by
  cases hrenamed with
  | same => rfl
  | @moved c =>
    have hsettled := settle_related (R := fun w w' => w'.volumes = w.volumes) (fun _ => rfl)
      (fun h h' => h'.trans h) (fun _ => rfl) (w.relinked c oldDir oldName d name)
    exact hsettled.trans rfl

/-- The directory that gets the entry is not below what it leads to. -/
theorem Renamed.not_above (hrenamed : w.Renamed oldDir oldName d name w')
    (hentry : w.Entry oldDir oldName s) (hmoved : ¬w.Entry d name s) : ¬w.Above s d := by
  cases hrenamed with
  | same hold hnew =>
    obtain rfl := Option.some.inj (hold.symm.trans hentry)
    exact absurd hnew hmoved
  | moved hold _ _ habove =>
    obtain rfl := Option.some.inj (hold.symm.trans hentry)
    exact habove

/-! ## Single steps -/

/-- What carries over keeps its type. -/
theorem CarriesOver.isDirectory_eq {lost : NodeId → Prop} (hover : w.CarriesOver w' lost)
    (hn : w.Live n) (hn' : w'.Live n) : w'.isDirectory n = w.isDirectory n := by
  rw [isDirectory, isDirectory, ← Node.mode_apart, hover.apart n hn hn', Node.mode_apart]

section

variable (hshifts : w.Shifts w' oldDir oldName d name s)

include hshifts

theorem Shifts.entry_iff {e x : NodeId} {a : String} : w'.Entry e a x ↔
    e = d ∧ a = name ∧ x = s ∨
      w.Entry e a x ∧ ¬(e = oldDir ∧ a = oldName) ∧ ¬(e = d ∧ a = name) := by
  rw [← mem_entries, hshifts.entries, Set.mem_insert_iff, Prod.mk.injEq, Prod.mk.injEq,
    Set.mem_sdiff, mem_entries, Set.mem_ofPred_eq, not_or]
  refine or_congr_right (and_congr_right fun he => and_congr_left fun _ => not_congr ?_)
  constructor
  · rintro ⟨⟩
    exact ⟨rfl, rfl⟩
  · rintro ⟨rfl, rfl⟩
    rw [Option.some.inj (he.symm.trans hshifts.entry)]

theorem Shifts.entry_new : w'.Entry d name s := hshifts.entry_iff.2 (.inl ⟨rfl, rfl, rfl⟩)

theorem Shifts.isDirectory_eq (hn : w.Live n) (hn' : w'.Live n) :
    w'.isDirectory n = w.isDirectory n := hshifts.nodes.isDirectory_eq hn hn'

/-- Away from the two names, what stays there lists what it listed. -/
theorem Shifts.child_eq (hn : w.Live n) (hn' : w'.Live n) {a : String}
    (hold : ¬(n = oldDir ∧ a = oldName)) (hnew : ¬(n = d ∧ a = name)) :
    w'.child n a = w.child n a := by
  have hchildren : (w'.children n).get? a = (w.children n).get? a := by
    refine Option.ext fun x => ?_
    have hentry : w'.Entry n a x ↔ w.Entry n a x := by
      rw [hshifts.entry_iff]
      exact ⟨fun hcases => (hcases.resolve_left fun heq => hnew ⟨heq.1, heq.2.1⟩).1,
        fun he => .inr ⟨he, hold, hnew⟩⟩
    exact hentry
  rw [child, child, hshifts.isDirectory_eq hn hn', hchildren]

/-- Only what was replaced may be gone. -/
theorem Shifts.live (hn : w.Live n) (hkept : ¬w.Entry d name n) : w'.Live n :=
  (hshifts.nodes.live n hn).resolve_right hkept

end

/-! ## Walks -/

section

variable (h : w.WellFormed) (hshifts : w.Shifts w' oldDir oldName d name s)

include h hshifts

/-- Nothing changes below the source: neither of the two directories is there, nor what was
replaced. -/
theorem Shifts.descend_below (habove : ¬w.Above s d) (hmoved : ¬w.Entry d name s) (hn : w.Live n)
    (hbelow : w.Above s n) : w'.descend n q = w.descend n q := by
  induction q generalizing n with
  | nil => rfl
  | cons a q ih =>
    have hold : n ≠ oldDir := by
      rintro rfl
      exact not_above_of_hangs h (h.hangs_of_entry hshifts.entry) hbelow
    have hnew : n ≠ d := by
      rintro rfl
      exact habove hbelow
    have hkept : ¬w.Entry d name n := by
      intro hentry
      rcases (above_entry_iff h hentry).1 hbelow with rfl | hup
      · exact hmoved hentry
      · exact habove hup
    rw [descend_cons, descend_cons, hshifts.child_eq hn (hshifts.live hn hkept)
      (fun heq => hold heq.1) (fun heq => hnew heq.1)]
    cases hchild : w.child n a with
    | error e => rfl
    | ok m =>
      have hentry := (child_eq_ok h).1 hchild
      exact ih (h.linked.live _ _ _ hentry) (.head (h.hangs_of_entry hentry) hbelow)

variable (h' : w'.WellFormed) (hvolumes : w'.volumes = w.volumes)
  (hv : w.volumes.has v = true) (hP : w.rawWalk v P = .ok oldDir) (hQ : w.rawWalk v Q = .ok d)

include h' hvolumes hv hP hQ

/-- A raw path that passes neither name leads, or fails, as it did. -/
theorem Shifts.rawWalk_apart {u : VolumeKey} (hu : w.volumes.has u = true)
    (hclear : u = v → ¬P ++ [oldName] <+: p ∧ ¬Q ++ [name] <+: p) :
    w'.rawWalk u p = w.rawWalk u p := by
  induction p using List.reverseRecOn with
  | nil => rw [rawWalk, rawWalk, World.volume, World.volume, hvolumes]; rfl
  | append_singleton p a ih =>
    have hwalk := ih fun hself =>
      (hclear hself).imp (mt (·.trans (List.prefix_append p [a])))
        (mt (·.trans (List.prefix_append p [a])))
    rw [rawWalk_concat, rawWalk_concat]
    cases hn : w.rawWalk u p with
    | error e =>
      rw [hwalk, hn]
      rfl
    | ok n =>
      have hlive := live_of_descend h (h.rooted.live u hu) hn
      have hlive' : w'.Live n :=
        live_of_descend h' (h'.rooted.live u (hvolumes ▸ hu)) (hwalk.trans hn)
      rw [hwalk, hn]
      refine hshifts.child_eq hlive hlive' ?_ ?_
      · rintro ⟨rfl, rfl⟩
        obtain ⟨rfl, rfl⟩ := rawWalk_inj h hu hv hn hP
        exact (hclear rfl).1 (List.prefix_refl _)
      · rintro ⟨rfl, rfl⟩
        obtain ⟨rfl, rfl⟩ := rawWalk_inj h hu hv hn hQ
        exact (hclear rfl).2 (List.prefix_refl _)

/-- The directory that gets the entry stays at its raw path, for that does not pass the source. -/
theorem Shifts.rawWalk_target (habove : ¬w.Above s d) : w'.rawWalk v Q = .ok d := by
  rw [← hQ]
  refine hshifts.rawWalk_apart h h' hvolumes hv hP hQ hv fun _ => ⟨?_, ?_⟩
  · rintro ⟨q, rfl⟩
    rw [rawWalk_append_of_ok (rawWalk_entry h hP hshifts.entry)] at hQ
    exact habove (above_of_descend h hQ)
  · exact not_append_singleton_prefix

/-- The directory that loses the entry stays at its raw path, for what is replaced lists nothing. -/
theorem Shifts.rawWalk_source : w'.rawWalk v P = .ok oldDir := by
  rw [← hP]
  refine hshifts.rawWalk_apart h h' hvolumes hv hP hQ hv fun _ => ⟨?_, ?_⟩
  · exact not_append_singleton_prefix
  · rintro ⟨q, rfl⟩
    cases hB : w.rawWalk v (Q ++ [name]) with
    | error e =>
      rw [rawWalk_append, hB] at hP
      cases hP
    | ok t =>
      rw [rawWalk_append_of_ok hB] at hP
      rw [rawWalk_concat, hQ] at hB
      have hbare := (hshifts.gives t ((child_eq_ok h).1 hB)).bare
      obtain rfl := eq_of_descend_bare h hbare hP
      exact hbare _ _ hshifts.entry

/-- Where nothing but one entry has moved, the subtree has. -/
theorem Shifts.relocated (habove : ¬w.Above s d) (hmoved : ¬w.Entry d name s) :
    w.Relocated w' v (P ++ [oldName]) (Q ++ [name]) s d := by
  have hsource : w.rawWalk v (P ++ [oldName]) = .ok s := rawWalk_entry h hP hshifts.entry
  have hQ' : w'.rawWalk v Q = .ok d := hshifts.rawWalk_target h h' hvolumes hv hP hQ habove
  have hP' : w'.rawWalk v P = .ok oldDir := hshifts.rawWalk_source h h' hvolumes hv hP hQ
  have htarget : w'.rawWalk v (Q ++ [name]) = .ok s := rawWalk_entry h' hQ' hshifts.entry_new
  have hgone : w'.rawWalk v (P ++ [oldName]) = .error .notFound := by
    have hlive' := live_of_descend h' (h'.rooted.live v (hvolumes ▸ hv)) hP'
    rw [rawWalk_concat, hP']
    refine child_of_free ?_ fun c hentry => ?_
    · rw [hshifts.isDirectory_eq hshifts.entry.live hlive']
      exact h.isDirectory_of_entry hshifts.entry
    · rcases hshifts.entry_iff.1 hentry with ⟨rfl, rfl, -⟩ | ⟨-, hother, -⟩
      · exact hmoved hshifts.entry
      · exact hother ⟨rfl, rfl⟩
  have hfrom : ∀ {q n}, w'.descend s q = .ok n → w'.descend d (name :: q) = .ok n := by
    intro q n hn
    rw [descend_cons, (child_eq_ok h').2 hshifts.entry_new]
    exact hn
  refine ⟨hsource, fun q => ?_, fun q => ?_, fun u p hu => ?_, fun q n hn => ?_,
    fun t q n hn hdir => ?_⟩
  · rw [rawWalk_append_of_ok htarget, rawWalk_append_of_ok hsource]
    exact hshifts.descend_below h habove hmoved (h.linked.live _ _ _ hshifts.entry) .refl
  · rw [rawWalk_append, hgone]
    rfl
  · exact hshifts.rawWalk_apart h h' hvolumes hv hP hQ hu
  · have hup := fun m e (_ : True) hangs => RamFs.lookup_dots h' (n := m) (d := e) hangs
    exact ⟨repeated_up h' (fun _ _ => trivial) hup trivial hn,
      repeated_up h' (fun _ _ => trivial) hup trivial (hfrom hn)⟩
  · have hup := fun m e hdir hangs => resolveIn_dots_plain h' (n := m) (d := e) t hdir hangs
    exact ⟨repeated_up h' (fun _ hm => hm) hup hdir hn,
      repeated_up h' (fun _ hm => hm) hup hdir (hfrom hn)⟩

end

end World

/-! ## Renames -/

section

variable {w : World} {t : TaskId} {oldBase newBase : Option Handle} {oldPath newPath : String}
  {oldDir d : NodeId} {oldName name : String} {v : VolumeKey} {P Q : List String}

/-- **A rename relocates a whole subtree.** Let a rename succeed in a world that operations lead to,
from a name in a directory at the raw path `P` of a volume to one in a directory at `Q`. Unless the
source is already where it is to go, what was below its raw path is below the new one afterwards,
its old raw path leads nowhere, all other raw paths lead where they led, and the way up from what is
below the source passes the source and then its new directory. -/
theorem rename_relocates_subtree (hw : w.Reachable)
    (hok : ((Operation.rename t oldBase oldPath newBase newPath).act w).result = .ok ())
    (hold : (resolveTarget t oldBase (stripSlashes oldPath).1 w).result = .ok (oldDir, oldName))
    (hnew : (resolveTarget t newBase (stripSlashes newPath).1 w).result = .ok (d, name))
    (hv : w.volumes.has v = true) (hP : w.rawWalk v P = .ok oldDir) (hQ : w.rawWalk v Q = .ok d) :
    ∃ s, w.rawWalk v (P ++ [oldName]) = .ok s ∧ (w.rawWalk v (Q ++ [name]) ≠ .ok s →
      w.Relocated ((Operation.rename t oldBase oldPath newBase newPath).run w) v (P ++ [oldName])
        (Q ++ [name]) s d) := by
  have h := hw.wellFormed
  have h' := (hw.steps (.single ⟨.rename t oldBase oldPath newBase newPath, rfl⟩)).wellFormed
  obtain ⟨u, hmoved, -⟩ := Action.result_bind_eq_ok.1 hok
  obtain ⟨oldDir', oldName', d', name', hold', hnew', hrenamed, hchecked⟩ :=
    (rename_renames h t oldBase oldPath newBase newPath).2 u hmoved
  obtain ⟨rfl, rfl⟩ := Prod.mk.inj (Except.ok.inj (hold.symm.trans hold'))
  obtain ⟨rfl, rfl⟩ := Prod.mk.inj (Except.ok.inj (hnew.symm.trans hnew'))
  obtain ⟨s, hentry, -, hshifts⟩ := hrenamed.shifts h hw.tidy hchecked
  refine ⟨s, World.rawWalk_entry h hP hentry, fun hself => ?_⟩
  have hmoved : ¬w.Entry d name s := fun he => hself (World.rawWalk_entry h hQ he)
  exact (hshifts hmoved).relocated h h' hrenamed.volumes_eq hv hP hQ
    (hrenamed.not_above hentry hmoved) hmoved

end

/-- A file two directories down, and an empty directory in another one. -/
def twoBranches : World :=
  Operation.runAll
    [.addTask 0, .makeDirectory 0 none "/a" 0o755, .makeDirectory 0 none "/a/b" 0o755,
      .openPath 0 none "/a/b/f" ⟨0x42⟩ 0o644, .makeDirectory 0 none "/c" 0o755,
      .makeDirectory 0 none "/c/d" 0o755]
    (World.fresh {})

/-- The subtree takes the place of the empty directory. -/
theorem rename_relocates_subtree_of_twoBranches :
    let w := twoBranches
    let moved := Operation.rename 0 none "/a/" none "/c/d"
    (w.Reachable ∧ (moved.act w).result = .ok () ∧
      (resolveTarget 0 none (stripSlashes "/a/").1 w).result = .ok (0, "a") ∧
      (resolveTarget 0 none (stripSlashes "/c/d").1 w).result = .ok (5, "d") ∧
      w.volumes.has 0 = true ∧ w.rawWalk 0 [] = .ok 0 ∧ w.rawWalk 0 ["c"] = .ok 5) ∧
      w.rawWalk 0 ["c", "d"] = .ok 6 ∧
      w.Relocated (moved.run w) 0 ["a"] ["c", "d"] 2 5 ∧
      (moved.run w).rawWalk 0 ["c", "d", "b", "f"] = .ok 4 := by
  intro w moved
  have hw : w.Reachable := ⟨_, World.steps_runAll _ _⟩
  have hok : (moved.act w).result = .ok () := by decide +kernel
  have hold : (resolveTarget 0 none (stripSlashes "/a/").1 w).result = .ok (0, "a") := by
    decide +kernel
  have hnew : (resolveTarget 0 none (stripSlashes "/c/d").1 w).result = .ok (5, "d") := by
    decide +kernel
  have hv : w.volumes.has 0 = true := by decide +kernel
  have hP : w.rawWalk 0 [] = .ok 0 := by decide +kernel
  have hQ : w.rawWalk 0 ["c"] = .ok 5 := by decide +kernel
  have htaken : w.rawWalk 0 ["c", "d"] = .ok 6 := by decide +kernel
  have ha : w.rawWalk 0 ["a"] = .ok 2 := by decide +kernel
  obtain ⟨s, hs, hmoves⟩ := rename_relocates_subtree hw hok hold hnew hv hP hQ
  obtain rfl : 2 = s := Except.ok.inj (ha.symm.trans hs)
  have hmoved : w.Relocated (moved.run w) 0 ["a"] ["c", "d"] 2 5 := by
    refine hmoves ?_
    decide +kernel
  refine ⟨⟨hw, hok, hold, hnew, hv, hP, hQ⟩, htaken, hmoved, ?_⟩
  have hf : w.rawWalk 0 ["a", "b", "f"] = .ok 4 := by decide +kernel
  exact (hmoved.carried ["b", "f"]).trans hf

end VirtualFs
