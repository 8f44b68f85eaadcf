/-
Scans of directories that change meanwhile. An open directory is read by number,
and a child's number is how many names are smaller than its own. So a child that
is there all the time is missed if smaller names go that were read before, and
returned again if smaller names come; it is returned once for the way there, and
once more for each time it is set back without being overtaken.
-/
import VirtualFs.Proofs.Places

namespace VirtualFs


namespace Operation

/-! ## Runs -/

/-- How many operations of a run are as asked for, each in the world that it meets. -/
def tally (p : World → Operation → Prop) [∀ w op, Decidable (p w op)] :
    List Operation → World → Nat
  | [], _ => 0
  | op :: rest, w => (if p w op then 1 else 0) + tally p rest (op.run w)

/-- Holds of every world of a run, the first and the last among them. -/
def Throughout (P : World → Prop) : List Operation → World → Prop
  | [], w => P w
  | op :: rest, w => P w ∧ Throughout P rest (op.run w)

instance decidableThroughout (P : World → Prop) [DecidablePred P] :
    ∀ ops w, Decidable (Throughout P ops w)
  | [], w => inferInstanceAs (Decidable (P w))
  | op :: rest, w =>
    have := decidableThroughout P rest (op.run w)
    inferInstanceAs (Decidable (P w ∧ Throughout P rest (op.run w)))

/-- A run of which no operation is as asked for starts with none and goes on without one. -/
theorem tally_cons_eq_zero {p : World → Operation → Prop} [∀ w op, Decidable (p w op)]
    {op : Operation} {rest : List Operation} {w : World} :
    tally p (op :: rest) w = 0 ↔ ¬p w op ∧ tally p rest (op.run w) = 0 := by
  rw [tally, Nat.add_eq_zero_iff, ite_eq_right_iff]
  exact and_congr_left' ⟨fun h hp => absurd (h hp) one_ne_zero, fun h hp => absurd hp h⟩

theorem tally_le {p q : World → Operation → Prop} [∀ w op, Decidable (p w op)]
    [∀ w op, Decidable (q w op)] (h : ∀ w op, p w op → q w op) (ops : List Operation) (w : World) :
    tally p ops w ≤ tally q ops w := by
  induction ops generalizing w with
  | nil => exact Nat.le_refl 0
  | cons op rest ih =>
    have hrest := ih (op.run w)
    by_cases hp : p w op
    · have hq := h w op hp
      simp only [tally, if_pos hp, if_pos hq]
      omega
    · simp only [tally, if_neg hp]
      omega

theorem Throughout.last {P : World → Prop} {ops : List Operation} {w : World}
    (h : Throughout P ops w) : P (runAll ops w) := by
  induction ops generalizing w with
  | nil => exact h
  | cons op rest ih => exact ih h.2

/-! ## What happens to a child during a scan -/

/-- The name that an operation reads off an open directory. -/
def returned (f : FileId) (w : World) : Operation → Option String
  | .nextEntry t h =>
    if (fileOf t h w).result.toOption = some f then
      (VirtualFs.nextEntry t h w).result.toOption.join.map DirEntry.name
    else none
  | _ => none

/-- A name was still to be read, and stands behind the cursor afterwards. -/
def Overtakes (f : FileId) (d : NodeId) (name : String) (w : World) (op : Operation) : Prop :=
  (w.file f).cursor ≤ w.place d name ∧ (op.run w).place d name < (w.file f).cursor

/-- A name stood behind the cursor, and is to be read afterwards. -/
def SetsBack (f : FileId) (d : NodeId) (name : String) (w : World) (op : Operation) : Prop :=
  w.place d name < (w.file f).cursor ∧ (w.file f).cursor ≤ (op.run w).place d name

instance (f : FileId) (d : NodeId) (name : String) (w : World) (op : Operation) :
    Decidable (Overtakes f d name w op) := inferInstanceAs (Decidable (_ ∧ _))

instance (f : FileId) (d : NodeId) (name : String) (w : World) (op : Operation) :
    Decidable (SetsBack f d name w op) := inferInstanceAs (Decidable (_ ∧ _))

end Operation

/-- A directory lists a smaller name that another world does not list there. -/
def World.Drops (d : NodeId) (name : String) (w w' : World) : Prop :=
  ∃ other ∈ (w.children d).names, other < name ∧ ¬w'.Lists d other

instance (d : NodeId) (name : String) (w w' : World) : Decidable (w.Drops d name w') :=
  inferInstanceAs (Decidable (∃ other ∈ _, _ ∧ _))

theorem World.drops_of_place_lt {d : NodeId} {name : String} {w w' : World}
    (h : w'.place d name < w.place d name) : w.Drops d name w' := by
  obtain ⟨other, hlt, hlists, hgone⟩ := exists_of_place_lt h
  exact ⟨other, NameMap.mem_names.2 hlists, hlt, hgone⟩

namespace Operation

variable {f : FileId} {d : NodeId} {name : String} {w : World} {r : Reader}

theorem Overtakes.drops {op : Operation} (h : Overtakes f d name w op) :
    w.Drops d name (op.run w) :=
  World.drops_of_place_lt (Nat.lt_of_lt_of_le h.2 h.1)

theorem SetsBack.drops {op : Operation} (h : SetsBack f d name w op) :
    (op.run w).Drops d name w :=
  World.drops_of_place_lt (Nat.lt_of_lt_of_le h.1 h.2)

theorem overtakes_le (ops : List Operation) (w : World) :
    tally (Overtakes f d name) ops w ≤ tally (fun w op => w.Drops d name (op.run w)) ops w :=
  tally_le (fun _ _ h => h.drops) ops w

theorem setsBack_le (ops : List Operation) (w : World) :
    tally (SetsBack f d name) ops w ≤ tally (fun w op => (op.run w).Drops d name w) ops w :=
  tally_le (fun _ _ h => h.drops) ops w

/-- One if a name stands behind the cursor of an open directory. -/
def behind (f : FileId) (d : NodeId) (name : String) (w : World) : Nat :=
  if w.place d name < (w.file f).cursor then 1 else 0

theorem behind_of_reader? (hr : w.reader? f = some r) :
    behind f d name w = if w.place d name < r.next then 1 else 0 := by
  rw [behind, OpenFile.cursor, (World.file_of_reader? hr).2]

theorem returned_of_not_reads {op : Operation} (h : op.reads w ≠ some f) :
    op.returned f w = none := by
  cases op with
  | nextEntry t handle => exact if_neg h
  | _ => rfl

/-- Reading an open directory puts the name that it returns behind the cursor, and no other. -/
theorem reads_accounts (hw : w.WellFormed) (hr : w.reader? f = some r) (hname : w.Lists r.dir name)
    {op : Operation} (hreads : op.reads w = some f) :
    (∃ next, (op.run w).reader? f = some ⟨r.dir, next⟩) ∧
      behind f r.dir name w + (if op.returned f w = some name then 1 else 0) =
        behind f r.dir name (op.run w) ∧
      (op.run w).place r.dir name = w.place r.dir name := by
  cases op with
  | nextEntry t h =>
    have hf : (fileOf t h w).result = .ok f := toOption_eq_some.1 hreads
    obtain ⟨entry, hentry, hended⟩ := nextEntry_ended hw hf hr (hname.isDirectory hw)
    obtain ⟨hresult, hworld⟩ := Prod.mk.inj hended
    have hrun : (nextEntry t h).run w = (VirtualFs.nextEntry t h w).world := rfl
    have hreturned : (nextEntry t h).returned f w = (w.listing r.dir)[r.next]? := by
      rw [returned, if_pos (toOption_eq_some.2 hf), hresult, ← hentry]
      rfl
    have hplace := World.getElem?_listing hw hname r.next
    rw [hreturned, hrun, hworld]
    cases entry with
    | none =>
      have hend : (w.listing r.dir)[r.next]? = none := hentry.symm
      refine ⟨⟨r.next, hr⟩, ?_, rfl⟩
      rw [hend]
      rfl
    | some entry =>
      have hnext : (w.setFile f fun file => file.setCursor (file.cursor + 1)).reader? f =
          some { r with next := r.next + 1 } := World.reader?_advance hr
      have hsame : (w.setFile f fun file => file.setCursor (file.cursor + 1)).place r.dir name =
          w.place r.dir name := rfl
      refine ⟨⟨r.next + 1, hnext⟩, ?_, rfl⟩
      simp only [Option.isSome_some, if_true, behind_of_reader? hr, behind_of_reader? hnext, hplace,
        hsame]
      split_ifs <;> omega
  | _ => cases hreads

/-- **The account of one step.** -/
theorem step_accounts (hw : w.WellFormed) (hr : w.reader? f = some r)
    (hname : w.Lists r.dir name) {op : Operation} (hrewinds : op.rewinds w ≠ some f) {r' : Reader}
    (hr' : (op.run w).reader? f = some r') : r'.dir = r.dir ∧
      behind f r.dir name w + (if op.returned f w = some name then 1 else 0) +
          (if Overtakes f r.dir name w op then 1 else 0) =
        (if SetsBack f r.dir name w op then 1 else 0) + behind f r.dir name (op.run w) := by
  by_cases hreads : op.reads w = some f
  · obtain ⟨⟨next, hnext⟩, haccount, hplace⟩ := reads_accounts hw hr hname hreads
    have hdir : r' = ⟨r.dir, next⟩ := Option.some.inj (hr'.symm.trans hnext)
    refine ⟨by rw [hdir], ?_⟩
    have hovertakes : ¬Overtakes f r.dir name w op := by
      rw [Overtakes, hplace]
      omega
    have hsets : ¬SetsBack f r.dir name w op := by
      rw [SetsBack, hplace]
      omega
    rw [if_neg hovertakes, if_neg hsets, haccount]
    omega
  · have hsame : w.reader? f = some r' := (op.undisturbed hreads hrewinds).reader
      (World.lt_nextKey_of_reader? hr) r' hr'
    obtain rfl : r = r' := Option.some.inj (hr.symm.trans hsame)
    have hcursor : (w.file f).cursor = r.next := by
      rw [OpenFile.cursor, (World.file_of_reader? hr).2]
    rw [returned_of_not_reads hreads, behind_of_reader? hr, behind_of_reader? hr']
    refine ⟨rfl, ?_⟩
    simp only [Overtakes, SetsBack, hcursor, reduceCtorEq, if_false]
    split_ifs <;> omega

/-- The account of a run. -/
theorem run_accounts (hw : w.WellFormed) (ops : List Operation) (hr : w.reader? f = some r)
    (hforward : tally (fun w op => op.rewinds w = some f) ops w = 0)
    (hthere : Throughout (·.Lists r.dir name) ops w) {r' : Reader}
    (hr' : (runAll ops w).reader? f = some r') : r'.dir = r.dir ∧
      behind f r.dir name w + tally (fun w op => op.returned f w = some name) ops w +
          tally (Overtakes f r.dir name) ops w =
        tally (SetsBack f r.dir name) ops w + behind f r.dir name (runAll ops w) := by
  induction ops generalizing w r with
  | nil =>
    obtain rfl : r = r' := Option.some.inj (hr.symm.trans hr')
    exact ⟨rfl, by simp only [tally, runAll, List.foldl_nil]; omega⟩
  | cons op rest ih =>
    obtain ⟨hrewinds, hlater⟩ := tally_cons_eq_zero.1 hforward
    have hopen := World.lt_nextKey_of_reader? hr
    obtain ⟨next, hnext⟩ := (openBefore_runAll rest (op.run w)).reader
      (Nat.lt_of_lt_of_le hopen (op.openBefore (f := f)).nextKey) r' hr'
    obtain ⟨hdir, hstep⟩ := step_accounts hw hr hthere.1 hrewinds hnext
    rw [← hdir] at hthere hstep ⊢
    obtain ⟨hlast, hrest⟩ := ih (World.Edits.wellFormed (op.edits hw) hw) hnext hlater hthere.2 hr'
    refine ⟨hlast, ?_⟩
    rw [tally, tally, tally, runAll, List.foldl_cons]
    rw [runAll] at hrest
    omega

/-- A run through which an open directory is read from its start: it is not started over on the way,
and nothing is left to be read in the end. -/
structure Scan (f : FileId) (d : NodeId) (ops : List Operation) (w : World) : Prop where
  start : w.reader? f = some ⟨d, 0⟩
  forward : tally (fun w op => op.rewinds w = some f) ops w = 0
  finish : ∃ t h, (fileOf t h (runAll ops w)).result = .ok f ∧
    (VirtualFs.nextEntry t h (runAll ops w)).result = .ok none

/-- Where nothing is left to be read, every child is behind. -/
theorem behind_of_end (hw : w.WellFormed) {t : TaskId} {h : Handle}
    (hf : (fileOf t h w).result = .ok f) (hend : (VirtualFs.nextEntry t h w).result = .ok none)
    (hr : w.reader? f = some r) (hname : w.Lists r.dir name) : behind f r.dir name w = 1 := by
  obtain ⟨entry, hentry, hended⟩ := nextEntry_ended hw hf hr (hname.isDirectory hw)
  obtain rfl : entry = none := Except.ok.inj ((Prod.mk.inj hended).1.symm.trans hend)
  rw [behind_of_reader? hr, if_pos (World.place_lt_of_end hw hname hentry.symm)]

/-- **The account of a scan.** A child that is there all the time is returned once for the way to the
end, once more for each time that it is set back, and once less for each time that it is overtaken.
It is overtaken only as a smaller name goes, and set back only as one comes; so if neither happens,
it is returned exactly once. -/
theorem scan_accounts (hw : w.Reachable) {ops : List Operation} (hscan : Scan f d ops w)
    (hthere : Throughout (·.Lists d name) ops w) :
    tally (fun w op => op.returned f w = some name) ops w + tally (Overtakes f d name) ops w =
        1 + tally (SetsBack f d name) ops w ∧
      tally (Overtakes f d name) ops w ≤ tally (fun w op => w.Drops d name (op.run w)) ops w ∧
      tally (SetsBack f d name) ops w ≤ tally (fun w op => (op.run w).Drops d name w) ops w := by
  have hfirst : w.WellFormed := hw.wellFormed
  have hlast : (runAll ops w).WellFormed := (hw.steps (World.steps_runAll ops w)).wellFormed
  obtain ⟨t, h, hf, hend⟩ := hscan.finish
  obtain ⟨⟨dir, next⟩, hr⟩ := reader?_of_nextEntry hf hend
  obtain ⟨hdir, haccount⟩ := run_accounts hfirst ops hscan.start hscan.forward hthere hr
  obtain rfl : dir = d := hdir
  have hstart : behind f dir name w = 0 := by
    rw [behind_of_reader? hscan.start, if_neg (Nat.not_lt_zero _)]
  have hfinish := behind_of_end (r := ⟨dir, next⟩) hlast hf hend hr hthere.last
  dsimp only at haccount hfinish
  rw [hstart, hfinish, Nat.zero_add, Nat.add_comm _ 1] at haccount
  exact ⟨haccount, overtakes_le ops w, setsBack_le ops w⟩

/-- A directory with two files, opened to be read. -/
def twoFiles : List Operation :=
  [.addContext false, .addTask 1, .makeDirectory 0 none "/d" 0o755,
    .openPath 0 none "/d/a" ⟨OpenFlags.createBit⟩ 0o644,
    .openPath 0 none "/d/b" ⟨OpenFlags.createBit⟩ 0o644,
    .openPath 0 none "/d" ⟨OpenFlags.directoryBit⟩ 0]

/-- The second file is read, and read again after another one has come before it. -/
def addition : List Operation :=
  [.nextEntry 0 ⟨2⟩, .nextEntry 0 ⟨2⟩, .nextEntry 0 ⟨2⟩, .nextEntry 0 ⟨2⟩,
    .openPath 0 none "/d/aa" ⟨OpenFlags.createBit⟩ 0o644, .nextEntry 0 ⟨2⟩]

theorem scan_addition : Scan 2 2 addition (runAll twoFiles (World.fresh {})) where
  start := by decide +kernel
  forward := by decide +kernel
  finish := ⟨0, ⟨2⟩, by decide +kernel, by decide +kernel⟩

theorem scan_accounts_addition :
    tally (fun w op => op.returned 2 w = some "b") addition (runAll twoFiles (World.fresh {})) = 2 := by
  have hthere : Throughout (·.Lists 2 "b") addition (runAll twoFiles (World.fresh {})) := by
    decide +kernel
  have haccount := scan_accounts ⟨{}, World.steps_runAll twoFiles _⟩ scan_addition hthere
  have hovertaken : tally (Overtakes 2 2 "b") addition (runAll twoFiles (World.fresh {})) = 0 := by
    decide +kernel
  have hset : tally (SetsBack 2 2 "b") addition (runAll twoFiles (World.fresh {})) = 1 := by
    decide +kernel
  omega

/-- The first file goes once it has been read. -/
def removal : List Operation :=
  [.nextEntry 0 ⟨2⟩, .nextEntry 0 ⟨2⟩, .nextEntry 0 ⟨2⟩, .unlink 0 none "/d/a"]

/-- A child that is there all the time may not be returned at all. -/
theorem scan_misses :
    let w := runAll twoFiles (World.fresh {})
    w.Reachable ∧ Scan 2 2 removal w ∧ Throughout (·.Lists 2 "b") removal w ∧
      tally (fun w op => op.returned 2 w = some "b") removal w = 0 := by
  refine ⟨⟨{}, World.steps_runAll twoFiles _⟩, ⟨?_, ?_, 0, ⟨2⟩, ?_, ?_⟩, ?_, ?_⟩
  all_goals decide +kernel

end Operation

end VirtualFs
