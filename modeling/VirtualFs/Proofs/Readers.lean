/-
Where an open directory is. It has a place of its own, the number of the entry
that is read next, and nothing moves it but reading that directory and starting
it over: not what is opened or closed beside it, and not what happens to the
directory itself.
-/
import VirtualFs.Proofs.Turnover

namespace VirtualFs

open World (Aside Sparing)
open VirtualFs.Action (does_pure does_note does_look does_bind does_change leads_query_bind
  leads_bind leads_when leads_change leads_pure)

/-- A directory that is being read, and the number of the entry that is read next. -/
structure Reader where
  dir : NodeId
  next : Nat
  deriving DecidableEq, Repr

/-- What an open file reads, if it is an open directory. -/
def OpenFile.reader? (file : OpenFile) : Option Reader :=
  match file.kind with
  | .directory cursor => some { dir := file.node, next := cursor }
  | _ => none

theorem OpenFile.setPosition_reader? (file : OpenFile) (position : Nat) :
    (file.setPosition position).reader? = file.reader? := by
  rw [setPosition]
  split
  · next hkind => simp [reader?, hkind]
  · rfl

theorem OpenFile.reader?_eq_some {file : OpenFile} {r : Reader} :
    file.reader? = some r ↔ file.node = r.dir ∧ file.kind = .directory r.next := by
  obtain ⟨dir, cursor⟩ := r
  rw [reader?]
  cases file.kind <;> simp

namespace World

/-- What is read under a key, if an open directory has it. -/
def reader? (w : World) (f : FileId) : Option Reader := (w.files.get? f).bind OpenFile.reader?

theorem reader?_eq_some {w : World} {f : FileId} {r : Reader} : w.reader? f = some r ↔
    ∃ file, w.files.get? f = some file ∧ file.node = r.dir ∧ file.kind = .directory r.next := by
  rw [reader?, Option.bind_eq_some_iff]
  exact exists_congr fun file => and_congr_right fun _ => OpenFile.reader?_eq_some

theorem lt_nextKey_of_reader? {w : World} {f : FileId} {r : Reader} (h : w.reader? f = some r) :
    f < w.files.nextKey := by
  obtain ⟨file, hfile, -⟩ := reader?_eq_some.1 h
  exact Arena.lt_nextKey_of_has (Arena.has_iff.2 ⟨file, hfile⟩)

/-- A key that was given out leads to no open directory that it did not lead to before, and to none
that is elsewhere in its directory. -/
structure Undisturbed (f : FileId) (w w' : World) : Prop where
  nextKey : w.files.nextKey ≤ w'.files.nextKey
  reader : f < w.files.nextKey → ∀ r, w'.reader? f = some r → w.reader? f = some r

/-- A stretch of a run in which an open directory stays where it is, whatever is seen. -/
def Undisturbing (f : FileId) (w : World) (_ : List Event) (w' : World) : Prop :=
  Undisturbed f w w'

variable {f : FileId} {w w' w'' : World}

theorem Undisturbed.of_files (h : w'.files = w.files) : Undisturbed f w w' where
  nextKey := by rw [h]
  reader _ r hr := by rwa [reader?, ← h]

theorem Undisturbed.refl (w : World) : Undisturbed f w w := .of_files rfl

theorem Undisturbed.trans (h : Undisturbed f w w') (h' : Undisturbed f w' w'') :
    Undisturbed f w w'' where
  nextKey := Nat.le_trans h.nextKey h'.nextKey
  reader hf r hr := h.reader hf r (h'.reader (Nat.lt_of_lt_of_le hf h.nextKey) r hr)

/-- Open files may change in all but what they read. -/
theorem undisturbed_setFile (g : FileId) {change : OpenFile → OpenFile}
    (h : g ≠ f ∨ ∀ file : OpenFile, (change file).reader? = file.reader?) :
    Undisturbed f w (w.setFile g change) where
  nextKey := Nat.le_of_eq (Arena.nextKey_modify _ _ _).symm
  reader _ r hr := by
    rw [reader?, setFile, Arena.get?_modify] at hr
    split at hr
    · next heq =>
      have hkeeps := h.resolve_left fun hne => hne heq
      rw [reader?]
      cases hfile : w.files.get? f with
      | none =>
        rw [hfile] at hr
        cases hr
      | some file =>
        rw [hfile] at hr
        exact (hkeeps file).symm.trans hr
    · exact hr

/-- What is opened anew has a key of its own. -/
theorem undisturbed_push (file : OpenFile) :
    Undisturbed f w { w with files := w.files.push file } where
  nextKey := by simp
  reader hf r hr := by
    rw [reader?, Arena.get?_push, if_neg (Nat.ne_of_lt hf)] at hr
    exact hr

theorem undisturbed_remove (g : FileId) :
    Undisturbed f w { w with files := w.files.remove g } where
  nextKey := by simp
  reader _ r hr := by
    obtain ⟨file, hfile, hreads⟩ := Option.bind_eq_some_iff.1 hr
    exact Option.bind_eq_some_iff.2 ⟨file, Arena.get?_of_remove hfile, hreads⟩

instance : Stretch (Undisturbing f) where
  quiet _ := .refl _
  trans h h' := Undisturbed.trans h h'

instance : Moving (Undisturbing f) where
  beside h := .of_files h.files
  settled w := .of_files w.spares_settle.files
  moved _ g _ := undisturbed_setFile g (.inr fun file => file.setPosition_reader? _)
  flagged _ g _ := undisturbed_setFile g (.inr fun _ => rfl)

instance : Tabular (Undisturbing f) where
  seen _ h := h
  tables _ _ _ := .of_files rfl
  removed _ g := undisturbed_remove g

theorem Aside.undisturbing {t : List Event} (h : w.Aside t w') : Undisturbing f w t w' :=
  .of_files h.1.files

end World

open World (Undisturbed Undisturbing)

/-! ## What opens -/

section

variable {f : FileId}

theorem Action.Does.of_sparing {α : Type} {full : Prop} {x : Act α} (h : x.Does Sparing full) :
    x.Does (Undisturbing f) True :=
  h.mono (fun _ _ _ hspares => .of_files hspares.files) fun _ => trivial

variable [Backends]

theorem commitFile_undisturbing (c : ContextId) (handle : Handle) (file : OpenFile) :
    (commitFile c handle file).Does (Undisturbing f) True := by
  have hadd : (addFile file).Does (Undisturbing f) True :=
    does_bind (does_look _) fun _ =>
      does_bind (does_change fun _ => World.undisturbed_push file) fun _ => does_pure _
  refine does_bind (does_any _) fun bindable => ?_
  cases bindable with
  | error e => exact does_bind (does_any _) fun _ => Action.does_throw fun _ => trivial
  | ok => exact does_bind hadd fun _ => does_bind (bindHandle_does c handle _) fun _ => does_pure _

variable {full : Prop} (hlaws : Backends.Discreet full)

include hlaws

theorem openPath_undisturbing (t : TaskId) (base : Option Handle) (path : String)
    (flags : OpenFlags) (mode : UInt32) :
    (openPath t base path flags mode).Does (Undisturbing f) True := by
  rw [openPath_eq]
  exact does_bind (does_any _) fun c => withReserved_does c fun handle =>
    does_bind (pathOpening_spares hlaws t base path flags mode).of_sparing fun file =>
      does_bind (commitFile_undisturbing c handle file) fun _ =>
        does_bind (does_note rfl) fun _ => does_pure _

theorem openHeld_undisturbing (t : TaskId) (n : NodeId) (flags : OpenFlags) :
    (openHeld t n flags).Does (Undisturbing f) True :=
  does_bind (does_any _) fun c => withReserved_does c fun handle =>
    does_bind (openFound_spares hlaws n flags).of_sparing fun file =>
      commitFile_undisturbing c handle file

theorem reopen_undisturbing (t : TaskId) (h : Handle) :
    (reopen t h).Does (Undisturbing f) True :=
  does_bind (does_any _) fun file => does_bind (does_any _) fun c =>
    withReserved_does c fun copy =>
      does_bind (openFound_spares hlaws file.node _).of_sparing fun _ =>
        commitFile_undisturbing c copy _

end

/-! ## What reads -/

/-- The open file whose directory an operation reads. -/
def Operation.reads (w : World) : Operation → Option FileId
  | .nextEntry t h => (fileOf t h w).result.toOption
  | _ => none

/-- The open file whose directory an operation starts over. -/
def Operation.rewinds (w : World) : Operation → Option FileId
  | .rewind t h => (fileOf t h w).result.toOption
  | _ => none

theorem toOption_eq_some {ε α : Type} {r : Except ε α} {a : α} :
    r.toOption = some a ↔ r = .ok a := by
  cases r <;> simp [Except.toOption]

section

variable {w : World} {t : TaskId} {h : Handle} {f : FileId}

theorem directoryOf_found {found : FileId × OpenFile × OpsKind}
    (hfound : (directoryOf t h w).result = .ok found) :
    (fileOf t h w).result = .ok found.1 ∧ ∃ r, w.reader? found.1 = some r := by
  obtain ⟨g, hg, hfound⟩ := Query.result_bind_eq_ok.1 hfound
  rw [Query.look_bind] at hfound
  obtain ⟨_, hdir, hfound⟩ := Query.result_bind_eq_ok.1 hfound
  obtain ⟨ops, -, hfound⟩ := Query.result_bind_eq_ok.1 hfound
  cases hfound
  rw [Query.result_demand_eq_ok] at hdir
  refine ⟨hg, ?_⟩
  rw [World.reader?]
  rw [World.file] at hdir
  cases hget : w.files.get? g with
  | none =>
    rw [hget] at hdir
    cases hdir
  | some file =>
    rw [hget, Option.getD_some, OpenFile.isDirectory] at hdir
    rw [Option.bind_some, OpenFile.reader?]
    cases hkind : file.kind with
    | directory cursor => exact ⟨_, rfl⟩
    | stream | path =>
      rw [hkind] at hdir
      cases hdir

/-- What is read is open. -/
theorem reader?_of_nextEntry [Backends] {entry : Option DirEntry}
    (hf : (fileOf t h w).result = .ok f) (hok : (nextEntry t h w).result = .ok entry) :
    ∃ r, w.reader? f = some r := by
  obtain ⟨found, hfound, -⟩ := Action.result_bind_eq_ok.1 hok
  obtain ⟨hfile, hopen⟩ := directoryOf_found hfound
  obtain rfl : found.1 = f := Except.ok.inj (hfile.symm.trans hf)
  exact hopen

/-- Reading an open directory, or starting it over, moves no other. -/
theorem undisturbed_of_directoryOf {α : Type} {rest : FileId × OpenFile × OpsKind → Act α}
    (hother : (fileOf t h w).result ≠ .ok f)
    (hrest : ∀ found : FileId × OpenFile × OpsKind, found.1 ≠ f →
      (rest found).LeadsOnly (fun v v' => Undisturbed f w v → Undisturbed f w v') w) :
    Undisturbed f w (((liftM (directoryOf t h) : Act _) >>= rest) w).world := by
  refine Action.Leads.kept
    (leads_query_bind fun found hfound => hrest found fun heq => ?_) (.refl w)
  exact hother (heq ▸ (directoryOf_found hfound).1)

theorem nextEntry_undisturbed [Backends] (hother : (fileOf t h w).result ≠ .ok f) :
    Undisturbed f w (nextEntry t h w).world :=
  undisturbed_of_directoryOf hother fun _ hne => leads_query_bind fun _ _ =>
    leads_query_bind fun _ _ => leads_bind (P := fun _ _ => True)
      (leads_when (fun _ => leads_change (.single fun hv =>
        hv.trans (World.undisturbed_setFile _ (.inl hne))) trivial) fun _ => trivial)
      fun _ _ _ _ => leads_pure trivial

theorem rewind_undisturbed (hother : (fileOf t h w).result ≠ .ok f) :
    Undisturbed f w (rewind t h w).world :=
  undisturbed_of_directoryOf hother fun _ hne => leads_query_bind fun _ _ =>
    leads_change (.single fun hv => hv.trans (World.undisturbed_setFile _ (.inl hne))) trivial

end

/-- **Only reading a directory and starting it over move it.** -/
theorem Operation.undisturbed {w : World} {f : FileId} (op : Operation)
    (hreads : op.reads w ≠ some f) (hrewinds : op.rewinds w ≠ some f) :
    Undisturbed f w (op.run w) := by
  have hdone : (@Operation.act standard op).Does (Undisturbing f) True →
      Undisturbed f w (op.run w) := by
    intro hdoes
    rw [op.run_eq_after]
    exact (hdoes w).1
  cases op with
  | openPath t base path flags mode =>
    exact hdone (openPath_undisturbing standard_discreet t base path flags mode).only
  | openPinned t name flags =>
    exact hdone (Action.Does.only (does_bind (does_any _) fun _ => does_bind (does_any _) fun n =>
      openHeld_undisturbing standard_discreet t n flags))
  | reopen t h => exact hdone (reopen_undisturbing standard_discreet t h).only
  | nextEntry t h => exact nextEntry_undisturbed fun hf => hreads (toOption_eq_some.2 hf)
  | rewind t h => exact rewind_undisturbed fun hf => hrewinds (toOption_eq_some.2 hf)
  | close | duplicate | duplicateTo | closeAll | retireContext =>
    refine hdone (Operation.Tabular.does ?_)
    exact True.intro
  | readv | writev | pwritev | seek | setFlags | writeStatus =>
    refine hdone (Operation.Moving.does standard_discreet
      (standard_discreet.writes fun _ _ _ => World.Aside.undisturbing) ?_)
    exact True.intro
  | preadv | control | makeDirectory | removeDirectory | unlink | makeSymlink | rename
  | changeDirectory | changeDirectoryTo | mount | addDevice | moveDevice | withdrawDevice | hold
  | release | addContext | addTask | setDepth =>
    refine hdone (Operation.Aloof.does standard_discreet
      (standard_discreet.names fun _ _ _ => World.Aside.undisturbing) ?_)
    exact True.intro

/-! ## What an open directory was before -/

namespace World

/-- A key that was given out leads to no open directory that it did not lead to before. -/
structure OpenBefore (f : FileId) (w w' : World) : Prop where
  nextKey : w.files.nextKey ≤ w'.files.nextKey
  reader : f < w.files.nextKey → ∀ r', w'.reader? f = some r' → ∃ r, w.reader? f = some r

variable {f : FileId} {w w' w'' : World}

theorem Undisturbed.openBefore (h : Undisturbed f w w') : OpenBefore f w w' :=
  ⟨h.nextKey, fun hf r hr => ⟨r, h.reader hf r hr⟩⟩

theorem OpenBefore.refl (w : World) : OpenBefore f w w := (Undisturbed.refl w).openBefore

theorem OpenBefore.trans (h : OpenBefore f w w') (h' : OpenBefore f w' w'') :
    OpenBefore f w w'' where
  nextKey := Nat.le_trans h.nextKey h'.nextKey
  reader hf r'' hr'' := by
    obtain ⟨r', hr'⟩ := h'.reader (Nat.lt_of_lt_of_le hf h.nextKey) r'' hr''
    exact h.reader hf r' hr'

theorem openBefore_setCursor (g : FileId) (cursor : OpenFile → Nat) :
    OpenBefore f w (w.setFile g fun file => file.setCursor (cursor file)) where
  nextKey := Nat.le_of_eq (Arena.nextKey_modify _ _ _).symm
  reader _ r' hr' := by
    obtain ⟨_, hmoved, hreads⟩ := Option.bind_eq_some_iff.1 hr'
    obtain ⟨file, hfile, rfl | rfl⟩ := Arena.exists_get?_of_modify hmoved
    · exact ⟨r', Option.bind_eq_some_iff.2 ⟨_, hfile, hreads⟩⟩
    · rw [OpenFile.setCursor] at hreads
      split at hreads
      · next old hkind => exact ⟨⟨file.node, old⟩, reader?_eq_some.2 ⟨file, hfile, rfl, hkind⟩⟩
      · exact ⟨r', Option.bind_eq_some_iff.2 ⟨file, hfile, hreads⟩⟩

/-- A stretch of a run, as far as it opens no directory under an old key. -/
def Opening (f : FileId) (w : World) (_ : List Event) (w' : World) : Prop := OpenBefore f w w'

instance : Turning (Opening f) where
  quiet _ := .refl _
  trans h h' := OpenBefore.trans h h'
  beside h := (Undisturbed.of_files h.files).openBefore
  settled w := (Undisturbed.of_files w.spares_settle.files).openBefore
  turned _ g cursor := openBefore_setCursor g cursor

end World

open World (OpenBefore Opening)

namespace Operation

theorem openBefore {f : FileId} {w : World} (op : Operation) : OpenBefore f w (op.run w) := by
  by_cases hturns : op.Turning
  · have hdoes : (@act standard op).Does (Opening f) True := hturns.does standard_discreet
    rw [op.run_eq_after]
    exact (hdoes w).1
  · refine (op.undisturbed ?_ ?_).openBefore
    all_goals
      cases op with
      | nextEntry | rewind => exact absurd True.intro hturns
      | _ => exact nofun

theorem openBefore_runAll {f : FileId} (ops : List Operation) (w : World) :
    OpenBefore f w (runAll ops w) := by
  induction ops generalizing w with
  | nil => exact .refl w
  | cons op rest ih => exact op.openBefore.trans (ih (op.run w))

end Operation

end VirtualFs
