/-
Scans of directories whose children stay as they are. An open directory stands
at a number, and reading it is all that moves it on; so one reading after the
other returns one line of the listing after the other, whatever is done in
between, also to other handles on the same directory. The lines behind the
directory itself and its parent are its children in the order of their bytes,
each of them once, and each leads to the node that a lookup of its name finds.
-/
import VirtualFs.Proofs.ByteOrder
import VirtualFs.Proofs.OpenKinds
import VirtualFs.Proofs.Scans
import VirtualFs.Proofs.Whereabouts

namespace VirtualFs

open World (Following)

/-! ## Old keys -/

namespace World

/-- What is open under a key that was given out was open under it before, in the same form. -/
structure KeepsForms (w w' : World) : Prop where
  nextKey : w.files.nextKey ≤ w'.files.nextKey
  file : ∀ f < w.files.nextKey, ∀ file', w'.files.get? f = some file' →
    ∃ file, w.files.get? f = some file ∧ file.SameForm file'

/-- A stretch of a run in which old keys keep their forms, whatever is seen. -/
def Formal (w : World) (_ : List Event) (w' : World) : Prop := w.KeepsForms w'

variable {w w' w'' : World}

theorem SameForms.keepsForms (h : w.SameForms w') (hnext : w.files.nextKey ≤ w'.files.nextKey) :
    w.KeepsForms w' := ⟨hnext, fun f _ => h f⟩

theorem KeepsForms.of_files (h : w'.files = w.files) : w.KeepsForms w' :=
  (SameForms.of_files h).keepsForms (Nat.le_of_eq (by rw [h]))

theorem KeepsForms.trans (h : w.KeepsForms w') (h' : w'.KeepsForms w'') : w.KeepsForms w'' where
  nextKey := Nat.le_trans h.nextKey h'.nextKey
  file f hf file'' hfile'' := by
    obtain ⟨file', hfile', hform'⟩ := h'.file f (Nat.lt_of_lt_of_le hf h.nextKey) file'' hfile''
    obtain ⟨file, hfile, hform⟩ := h.file f hf file' hfile'
    exact ⟨file, hfile, hform.trans hform'⟩

theorem keepsForms_setFile (g : FileId) {change : OpenFile → OpenFile}
    (h : ∀ file : OpenFile, file.SameForm (change file)) : w.KeepsForms (w.setFile g change) :=
  (sameForms_setFile g h).keepsForms (Nat.le_of_eq (Arena.nextKey_modify _ _ _).symm)

instance : Stretch Formal where
  quiet _ := .of_files rfl
  trans h h' := KeepsForms.trans h h'

instance : Following Formal where
  beside h := .of_files h.files
  settled w := .of_files w.spares_settle.files
  moved _ g position := keepsForms_setFile g fun file => file.sameForm_setPosition position
  flagged _ g flags := keepsForms_setFile g fun file => file.sameForm_withStatus flags
  turned _ g _ := keepsForms_setFile g fun file => file.sameForm_setCursor _
  seen _ h := h
  tables _ _ _ := .of_files rfl
  removed _ g := ⟨by simp, fun _ _ file' hfile' => ⟨file', Arena.get?_of_remove hfile', .refl file'⟩⟩
  spared h := .of_files h.files
  pushed w file := ⟨by simp, fun f hf file' hfile' =>
    ⟨file', by rwa [w.get?_pushed file hf] at hfile', .refl file'⟩⟩

end World

/-- An open file keeps its form under its key. -/
theorem Operation.keepsForms (op : Operation) (w : World) : w.KeepsForms (op.run w) :=
  op.follows (R := World.Formal) w

/-! ## The line a directory stands at -/

namespace World

/-- While it is open, a key leads to a directory and to a line of its listing. -/
def StandsAt (w : World) (f : FileId) (d : NodeId) (line : Nat) : Prop :=
  ∀ file, w.files.get? f = some file → w.reader? f = some ⟨d, line⟩

variable {w : World} {f : FileId} {d : NodeId} {line : Nat}

theorem standsAt_of_reader? (h : w.reader? f = some ⟨d, line⟩) : w.StandsAt f d line :=
  fun _ _ => h

/-- A directory that is open is one. -/
theorem isDirectory_of_reader? (hw : w.Reachable) (h : w.reader? f = some ⟨d, line⟩) :
    w.isDirectory d = true := by
  obtain ⟨file, hfile, hnode, hkind⟩ := reader?_eq_some.1 h
  have hsuits := (hw.fits f file hfile).kind
  rw [hnode, hkind] at hsuits
  exact hsuits.1

/-- What is neither read nor started over stays at its line. -/
theorem StandsAt.undisturbed (h : w.StandsAt f d line) (hf : f < w.files.nextKey) {op : Operation}
    (hreads : op.reads w ≠ some f) (hrewinds : op.rewinds w ≠ some f) :
    (op.run w).StandsAt f d line := by
  intro file' hfile'
  obtain ⟨file, hfile, hform⟩ := (op.keepsForms w).file f hf file' hfile'
  obtain ⟨opened, hopened, hnode, hkind⟩ := reader?_eq_some.1 (h file hfile)
  obtain rfl : opened = file := Option.some.inj (hopened.symm.trans hfile)
  -- It is still open as a directory, at a line that it was at before.
  obtain ⟨other, hother⟩ : ∃ other, (op.run w).reader? f = some ⟨d, other⟩ := by
    have hstart := hform.kind
    rw [hkind] at hstart
    cases hkind' : file'.kind with
    | directory other =>
      exact ⟨other, reader?_eq_some.2 ⟨file', hfile', hform.node.trans hnode, hkind'⟩⟩
    | stream _ | path =>
      rw [hkind'] at hstart
      cases hstart
  rw [hother, ← (op.undisturbed hreads hrewinds).reader hf _ hother, h opened hfile]

end World

/-! ## What a reading gives back -/

/-- An entry says of a node what a listing says. -/
structure DirEntry.Describes (e : DirEntry) (w : World) (n : NodeId) : Prop where
  ino : e.ino = (w.node n).ino
  volume : e.volume = (w.node n).volumeId
  type : e.type = Mode.entryType (w.node n).mode

/-- The line of a listing with some number, or none past its end. The entry of a child describes
the node that anyone who looks its name up finds. -/
structure World.HasLine (w : World) (d : NodeId) (i : Nat) (entry : Option DirEntry) : Prop where
  name : entry.map DirEntry.name = (w.listing d)[i]?
  child : 2 ≤ i → ∀ e ∈ entry, ∃ n, (∀ u, (resolveIn u d e.name .plain w).result = .ok n) ∧
    e.Describes w n

section

variable {w : World} {f : FileId} {d : NodeId}

theorem RamFs.nthEntry_hasLine (h : w.WellFormed) (hdir : w.isDirectory d = true) (i : Nat) :
    ∃ entry, (nthEntry d i w).result = .ok entry ∧ w.HasLine d i entry := by
  have hram := h.ram d (World.live_of_isDirectory hdir)
  obtain ⟨entry, hentry, hname⟩ := nthEntry_result hram hdir i
  refine ⟨entry, hentry, hname, fun hi e he => ?_⟩
  obtain ⟨i, rfl⟩ := Nat.exists_eq_add_of_le' hi
  rw [nthEntry_child hram hdir] at hentry
  obtain ⟨⟨name, n⟩, hmem, rfl⟩ := Option.map_eq_some_iff.1 ((Except.ok.inj hentry).trans he)
  have hlisted : w.Entry d name n := NameMap.mem_entries.1 (List.mem_of_getElem? hmem)
  exact ⟨n, fun u => World.resolveIn_entry_plain h u hlisted, rfl, (h.volumeId_of_entry hlisted).symm,
    rfl⟩

/-- Past the end of a listing there is nothing. -/
theorem World.HasLine.of_min {i : Nat} {entry : Option DirEntry}
    (h : w.HasLine d (min i (w.listing d).length) entry) : w.HasLine d i entry := by
  by_cases hi : i ≤ (w.listing d).length
  · rwa [Nat.min_eq_left hi] at h
  · have hend : (w.listing d).length ≤ i := by omega
    have hnone := h.name
    rw [Nat.min_eq_right hend, List.getElem?_eq_none (Nat.le_refl _)] at hnone
    obtain rfl := Option.map_eq_none_iff.1 hnone
    exact ⟨(List.getElem?_eq_none hend).symm, fun _ _ he => nomatch he⟩

end

namespace Operation

/-- What an operation answers that reads an open directory, and the world that it meets. -/
def reading (f : FileId) (w : World) : Operation → Option (World × Except Error (Option DirEntry))
  | .nextEntry t h =>
    if (fileOf t h w).result.toOption = some f then some (w, (VirtualFs.nextEntry t h w).result)
    else none
  | _ => none

/-- What the readings of an open directory answer in the course of a run. -/
def readings (f : FileId) : List Operation → World → List (World × Except Error (Option DirEntry))
  | [], _ => []
  | op :: rest, w => (op.reading f w).toList ++ readings f rest (op.run w)

variable {w v : World} {f : FileId} {d : NodeId} {op : Operation}

theorem reading_of_not_reads (h : op.reads w ≠ some f) : op.reading f w = none := by
  cases op with
  | nextEntry t handle => exact if_neg h
  | _ => rfl

/-- **A reading answers the line that the directory stands at, and goes on to the next.** -/
theorem reading_line (hw : w.Reachable) {k : Nat}
    (hat : w.StandsAt f d (min k (w.listing d).length)) (hreads : op.reads w = some f) :
    ∃ entry, op.reading f w = some (w, .ok entry) ∧ w.HasLine d k entry ∧
      (op.run w).StandsAt f d (min (k + 1) (w.listing d).length) := by
  cases op with
  | nextEntry t h =>
    have hf : (fileOf t h w).result = .ok f := toOption_eq_some.1 hreads
    obtain ⟨file, hfile⟩ := Arena.has_iff.1
      (hw.kept.orderly.has_of_found ((result_fileOf t h).symm.trans hf))
    have hr := hat file hfile
    have hdir := World.isDirectory_of_reader? hw hr
    obtain ⟨entry, hentry, hline⟩ := RamFs.nthEntry_hasLine hw.wellFormed hdir
      (min k (w.listing d).length)
    obtain ⟨hresult, hworld⟩ := Prod.mk.inj (nextEntry_reads hw.wellFormed hf hr hdir hentry)
    have hrun : (nextEntry t h).run w = (VirtualFs.nextEntry t h w).world := rfl
    refine ⟨entry, ?_, hline.of_min, ?_⟩
    · rw [reading, if_pos (toOption_eq_some.2 hf), hresult]
    · have hname := hline.name
      rw [hrun, hworld]
      cases entry with
      | none =>
        have hend := List.getElem?_eq_none_iff.1 hname.symm
        rw [if_neg nofun]
        have hsame : min (k + 1) (w.listing d).length = min k (w.listing d).length := by omega
        rwa [hsame]
      | some entry =>
        have hlt := (List.getElem?_eq_some_iff.1 hname.symm).1
        have hnext : min (k + 1) (w.listing d).length = min k (w.listing d).length + 1 := by omega
        rw [if_pos Option.isSome_some, hnext]
        exact World.standsAt_of_reader? (World.reader?_advance hr)
  | _ => cases hreads

/-- The readings of a run answer one line after the other, and the directory stands where they have
come to. -/
theorem readings_lines (hw : w.Reachable) (hf : f < w.files.nextKey) (ops : List Operation)
    {children : NameMap NodeId} {k : Nat} (hat : w.StandsAt f d (min k (children.names.length + 2)))
    (hforward : tally (fun w op => op.rewinds w = some f) ops w = 0)
    (hstill : Throughout (fun v => v.children d = children) ops w) :
    (∀ (i : Nat) (v : World) answer, (readings f ops w)[i]? = some (v, answer) →
      v.children d = children ∧ ∃ entry, answer = .ok entry ∧ v.HasLine d (k + i) entry) ∧
    ∃ line, (runAll ops w).StandsAt f d line := by
  induction ops generalizing w k with
  | nil => exact ⟨fun i v answer hread => (nomatch hread), _, hat⟩
  | cons op rest ih =>
    obtain ⟨hrewinds, hlater⟩ := tally_cons_eq_zero.1 hforward
    have hnext : (op.run w).Reachable := hw.steps (.single ⟨op, rfl⟩)
    have hkey := Nat.lt_of_lt_of_le hf (op.keepsForms w).nextKey
    have hlength : (w.listing d).length = children.names.length + 2 := by
      rw [World.listing, hstill.1]
      rfl
    by_cases hreads : op.reads w = some f
    · obtain ⟨entry, hreading, hline, hafter⟩ :=
        reading_line (k := k) hw (by rwa [hlength]) hreads
      rw [hlength] at hafter
      obtain ⟨hrest, hlast⟩ := ih hnext hkey hafter hlater hstill.2
      refine ⟨fun i v answer hread => ?_, hlast⟩
      rw [readings, hreading, Option.toList_some, List.singleton_append] at hread
      cases i with
      | zero =>
        cases hread
        exact ⟨hstill.1, entry, rfl, hline⟩
      | succ i =>
        have hlines := hrest i v answer hread
        rwa [Nat.add_right_comm] at hlines
    · have hstays := hat.undisturbed hf hreads hrewinds
      obtain ⟨hrest, hlast⟩ := ih hnext hkey hstays hlater hstill.2
      refine ⟨fun i v answer hread => ?_, hlast⟩
      rw [readings, reading_of_not_reads hreads, Option.toList_none, List.nil_append] at hread
      exact hrest i v answer hread

/-- What is started over stands at the first line again. -/
theorem reader?_of_rewinds (hw : w.Reachable) {line : Nat} (hat : w.StandsAt f d line)
    (hrewinds : op.rewinds w = some f) : (op.run w).reader? f = some ⟨d, 0⟩ := by
  cases op with
  | rewind t h =>
    have hf : (fileOf t h w).result = .ok f := toOption_eq_some.1 hrewinds
    obtain ⟨file, hfile⟩ := Arena.has_iff.1
      (hw.kept.orderly.has_of_found ((result_fileOf t h).symm.trans hf))
    have hr := hat file hfile
    have hdir := World.isDirectory_of_reader? hw hr
    have hvolume : (volumeOf (w.file f).node w).result = .ok (w.node d).volume := by
      rw [(World.file_of_reader? hr).1]
      exact hw.wellFormed.volumeOf_result (World.live_of_isDirectory hdir)
    have hended : (VirtualFs.rewind t h).ended w =
        (.ok (), w.setFile f fun file => file.setCursor 0) := by
      rw [VirtualFs.rewind, Action.ended_query_bind (result_directoryOf hw.wellFormed hf hr hdir),
        Action.ended_query_bind hvolume, Action.ended_change]
    have hrun : (rewind t h).run w = (VirtualFs.rewind t h w).world := rfl
    rw [hrun, (Prod.mk.inj hended).2]
    exact World.reader?_setCursor hr fun _ => 0
  | _ => cases hrewinds

/-- **An undisturbed scan is an exact listing.** -/
theorem undisturbed_scan_lists (hw : w.Reachable) (hstart : w.reader? f = some ⟨d, 0⟩)
    (ops : List Operation) (hforward : tally (fun w op => op.rewinds w = some f) ops w = 0)
    (hstill : Throughout (fun v => v.children d = w.children d) ops w) :
    ((w.children d).names.map nameBytes).Pairwise (· < ·) ∧
    (∀ name, name ∈ (w.children d).names ↔ ∃ n, w.Entry d name n) ∧
    (∀ (i : Nat) (v : World) answer, (readings f ops w)[i]? = some (v, answer) →
      ∃ entry, answer = .ok entry ∧
        entry.map DirEntry.name = ("." :: ".." :: (w.children d).names)[i]? ∧
        (2 ≤ i → ∀ e ∈ entry, ∃ n, (∀ u, (resolveIn u d e.name .plain v).result = .ok n) ∧
          e.Describes v n)) ∧
    ∀ op : Operation, op.rewinds (runAll ops w) = some f →
      (op.run (runAll ops w)).reader? f = some ⟨d, 0⟩ := by
  have hat : w.StandsAt f d (min 0 ((w.children d).names.length + 2)) :=
    World.standsAt_of_reader? hstart
  obtain ⟨hlines, line, hlast⟩ := readings_lines hw (World.lt_nextKey_of_reader? hstart) ops hat
    hforward hstill
  refine ⟨?_, fun name => ?_, fun i v answer hread => ?_, fun op hrewinds => ?_⟩
  · exact List.pairwise_map.2 ((w.children d).sorted_names.imp nameBytes_lt)
  · exact NameMap.mem_names.trans World.lists_iff
  · obtain ⟨hsame, entry, hanswer, hline⟩ := hlines i v answer hread
    rw [Nat.zero_add] at hline
    have hname := hline.name
    rw [World.listing, hsame] at hname
    exact ⟨entry, hanswer, hname, hline.child⟩
  · exact reader?_of_rewinds (hw.steps (World.steps_runAll ops w)) hlast hrewinds

/-- A directory that is read through one handle, and between that through another one that was
opened on it, read, started over and closed. -/
def interleaved : List Operation :=
  [.nextEntry 0 ⟨2⟩, .reopen 0 ⟨2⟩, .nextEntry 0 ⟨3⟩, .nextEntry 0 ⟨2⟩, .rewind 0 ⟨3⟩,
    .nextEntry 0 ⟨2⟩, .close 0 ⟨3⟩, .nextEntry 0 ⟨2⟩, .nextEntry 0 ⟨2⟩]

theorem undisturbed_scan_lists_interleaved :
    let w := runAll twoFiles (World.fresh {})
    (readings 2 interleaved w).length = 5 ∧
      ∀ (i : Nat) (v : World) answer, (readings 2 interleaved w)[i]? = some (v, answer) →
        ∃ entry, answer = .ok entry ∧ entry.map DirEntry.name = [".", "..", "a", "b"][i]? := by
  have hreachable : (runAll twoFiles (World.fresh {})).Reachable := ⟨{}, World.steps_runAll _ _⟩
  have hstart : (runAll twoFiles (World.fresh {})).reader? 2 = some ⟨2, 0⟩ := by decide +kernel
  have hforward : tally (fun w op => op.rewinds w = some 2) interleaved
      (runAll twoFiles (World.fresh {})) = 0 := by decide +kernel
  have hstill : Throughout
      (fun v => v.children 2 = (runAll twoFiles (World.fresh {})).children 2) interleaved
        (runAll twoFiles (World.fresh {})) := by
    decide +kernel
  have hnames : ((runAll twoFiles (World.fresh {})).children 2).names = ["a", "b"] := by
    decide +kernel
  refine ⟨by decide +kernel, fun i v answer hread => ?_⟩
  obtain ⟨entry, hanswer, hname, -⟩ :=
    (undisturbed_scan_lists hreachable hstart interleaved hforward hstill).2.2.1 i v answer hread
  rw [hnames] at hname
  exact ⟨entry, hanswer, hname⟩

end Operation

end VirtualFs
