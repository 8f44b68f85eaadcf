/-
What publishing, moving and withdrawing devices does to a world is a sequence
of edits on one volume, and strands nothing: devices go below attached
directories, which are found from the root. The names on the way come from a
parser of their own, which cuts them at every slash as the walk does.
-/
import VirtualFs.Proofs.Stranding

namespace VirtualFs.RamFs

open VirtualFs.Action (leads_query_bind leads_bind leads_pure leads_throw leads_query)

theorem slash_notMem_of_mem_components {path name : String} (hname : name ∈ components path) :
    '/' ∉ name.toList := by
  obtain ⟨piece, hpiece, rfl⟩ := List.mem_map.1 hname
  rw [String.toList_ofList]
  exact slash_notMem_of_mem_pieces (List.mem_filter.1 hpiece).1

theorem firstFound_yields {α β : Type} {w : World} {search : α → Query (Option β)} {l : List α}
    {P : Option β → Prop} (hnone : P none) (hsearch : ∀ a ∈ l, (search a).Yields w P) :
    (firstFound search l).Yields w P := by
  induction l with
  | nil => exact .pure hnone
  | cons a rest ih =>
    refine (hsearch a (by simp)).bind fun found hfound => ?_
    cases found with
    | some b => exact .pure hfound
    | none => exact ih fun b hb => hsearch b (by simp [hb])

variable {w : World} (h : w.WellFormed) {d : NodeId} {v : VolumeKey}

include h

theorem deviceDirectory_yields (hv : w.volumes.has v = true) :
    (deviceDirectory v).Yields w fun n => w.Attached n ∧ (w.node n).volume = v :=
  Query.Yields.look_bind fun n hn => by
    have hroot := h.rooted.live v hv
    obtain ⟨-, hentry⟩ :=
      (lookup_result_eq_ok (h.ram _ hroot) (by decide : deviceDir ≠ ".") (by decide)).1 hn
    exact ⟨.entry (.root hv) hentry, (h.volume_of_entry hentry).trans (h.rooted.volume v hv)⟩

/-- What a search for a number finds is an entry of the volume it searches. -/
theorem findInoWithin_yields (ino levels : Nat) (hd : w.Live d) (hv : (w.node d).volume = v) :
    (findInoWithin ino levels d).Yields w fun found => ∀ e name, found = some (e, name) →
      (w.node e).volume = v ∧ ∃ c, w.Entry e name c := by
  induction levels generalizing d with
  | zero => exact .pure nofun
  | succ levels ih =>
    have hchildren : (childrenOf d).Yields w fun children => children = w.children d :=
      fun _ hchildren => (of_childrenOf h hd hchildren).2
    refine hchildren.bind ?_
    rintro _ rfl
    refine firstFound_yields nofun ?_
    rintro ⟨name, c⟩ hmem
    have hentry : w.Entry d name c := NameMap.mem_entries.1 hmem
    refine Query.Yields.world_bind ?_
    split
    · refine .pure ?_
      rintro _ _ ⟨⟩
      exact ⟨hv, c, hentry⟩
    split
    · exact ih (h.linked.live d name c hentry) ((h.volume_of_entry hentry).trans hv)
    · exact .pure nofun

theorem findDevice_yields (ino : Nat) (hv : w.volumes.has v = true) :
    (findDevice v ino).Yields w fun found =>
      (w.node found.1).volume = v ∧ ∃ c, w.Entry found.1 found.2 c := by
  refine (deviceDirectory_yields h hv).bind fun root ⟨hroot, hvolume⟩ => ?_
  refine .bind (P := fun found => ∀ e name, found = some (e, name) →
    (w.node e).volume = v ∧ ∃ c, w.Entry e name c) ?_ fun found hfound => ?_
  · exact Query.Yields.look_bind (findInoWithin_yields h ino _ (hroot.live h) hvolume)
  · rintro ⟨e, name⟩ he
    exact hfound e name (Query.result_expect_eq_ok.1 he)

theorem ensureDirectory_grafts {name : String} (hd : w.Attached d) (hv : (w.node d).volume = v)
    (hname : IsEntryName name) :
    (ensureDirectory v d name).Leads (World.GraftsOn v) w fun n w' =>
      w'.Attached n ∧ (w'.node n).volume = v ∧ w.Keeps w' := by
  have hram := h.ram d (hd.live h)
  refine leads_query_bind fun found hfound => ?_
  rw [Query.result_attempt, Except.ok.injEq] at hfound
  split
  · next n =>
    obtain ⟨-, hentry⟩ := (lookup_result_eq_ok hram hname.ne_dot hname.ne_dots).1 hfound
    exact leads_pure ⟨hd.entry hentry, (h.volume_of_entry hentry).trans hv, .refl w⟩
  · refine leads_query_bind fun ops hops => ?_
    cases hops
    exact insert_grafts h hd hv hname (Mode.typeBits_make _ _) rfl fun hdir =>
      .inl (hram.ops_of_isDirectory hdir)
  · exact leads_throw

theorem descend_grafts {names : List String} (hnames : ∀ name ∈ names, '/' ∉ name.toList)
    (hd : w.Attached d) (hv : (w.node d).volume = v) :
    (descend v d names).Leads (World.GraftsOn v) w fun place w' =>
      w'.Attached place.1 ∧ (w'.node place.1).volume = v ∧ IsEntryName place.2 ∧ w.Keeps w' := by
  induction names generalizing w d with
  | nil => exact leads_throw
  | cons name rest ih =>
    have hwhole := hnames name (by simp)
    cases rest with
    | nil =>
      refine leads_query_bind fun _ hchecked => leads_pure ⟨hd, hv, ⟨?_, hwhole⟩, .refl w⟩
      rwa [Query.result_ofResult] at hchecked
    | cons next rest =>
      refine leads_query_bind fun _ hchecked => ?_
      rw [Query.result_ofResult] at hchecked
      refine leads_bind (ensureDirectory_grafts h hd hv ⟨hchecked, hwhole⟩) ?_
      rintro n w' hsteps ⟨hn, hvolume, hkeeps⟩
      refine (ih (wellFormed_of_grafts h hsteps) (fun other hmem => hnames other (by simp [hmem]))
        hn hvolume).imp ?_
      rintro place w'' - ⟨hattached, hplace, hname, hkeeps'⟩
      exact ⟨hattached, hplace, hname, hkeeps.trans hkeeps'⟩

theorem devicePlace_grafts (path : String) (hv : w.volumes.has v = true) :
    (devicePlace v path).Leads (World.GraftsOn v) w fun place w' =>
      w'.Attached place.1 ∧ (w'.node place.1).volume = v ∧ IsEntryName place.2 ∧ w.Keeps w' := by
  refine leads_query_bind fun root hroot => ?_
  obtain ⟨hattached, hvolume⟩ := deviceDirectory_yields h hv root hroot
  exact descend_grafts h (fun _ => slash_notMem_of_mem_components) hattached hvolume

theorem publishDevice_grafts (path : String) (ops : OpsKind) (hv : w.volumes.has v = true) :
    (publishDevice v path ops).LeadsOnly (World.GraftsOn v) w := by
  refine leads_bind (devicePlace_grafts h path hv) ?_
  rintro ⟨dir, name⟩ w' hsteps ⟨hattached, hvolume, hname, -⟩
  have h' := wellFormed_of_grafts h hsteps
  exact leads_bind (insert_grafts h' hattached hvolume hname (Mode.typeBits_make _ _) rfl
    fun _ => .inr rfl) fun _ _ _ _ => leads_query fun _ _ => trivial

theorem moveDevice_grafts (ino : Nat) (path : String) (hv : w.volumes.has v = true) :
    (moveDevice v ino path).LeadsOnly (World.GraftsOn v) w := by
  refine leads_query_bind fun old hold => ?_
  obtain ⟨hvolume, c, hentry⟩ := findDevice_yields h ino hv old hold
  refine leads_bind (devicePlace_grafts h path hv) ?_
  rintro ⟨newDir, newName⟩ w' hsteps ⟨hnew, hnewVolume, hname, hkeeps⟩
  obtain ⟨hlive, hsame⟩ := hkeeps old.1 hentry.live
  exact rename_grafts (wellFormed_of_grafts h hsteps) hlive hnew (hsame.trans hvolume) hnewVolume
    (h.linked.name _ _ _ hentry) hname false

theorem withdrawDevice_grafts (ino : Nat) (hv : w.volumes.has v = true) :
    (withdrawDevice v ino).LeadsOnly (World.GraftsOn v) w := by
  refine leads_query_bind fun found hfound => ?_
  obtain ⟨hvolume, c, hentry⟩ := findDevice_yields h ino hv found hfound
  exact unlink_grafts h hentry.live hvolume found.2

end VirtualFs.RamFs
