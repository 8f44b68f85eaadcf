/-
Opening into a number, seen as a whole. A number is reserved, the file is
opened, and the file is bound to the number; so an open comes out as the
opening does in the middle, once there is a number. Around the opening nothing
changes but tables and open files, and what was bound stays bound.
-/
import VirtualFs.Proofs.StreamOpens

namespace VirtualFs

open World (Sparing)
open VirtualFs.Action (ended_bind)

namespace Numbering

variable {n : Numbering} {c c' : ContextId} {h : Handle} {i : Nat} {f : FileId} {t : TaskId}

/-- A file that is bound to a number is what the number stands for. -/
theorem found_set (hkernel : h.isKernel = n.kernel c) (f : FileId) :
    (n.set c h.slot (.taken f)).found c h = .ok f := by
  have hkept : h.isKernel = (n.set c h.slot (.taken f)).kernel c := hkernel
  rw [found, find, if_pos hkept, set_slot, if_pos ⟨rfl, rfl⟩]
  rfl

/-- What a handle stands for does not depend on numbers that are bound to nothing. -/
theorem found_set_of_unbound (hnot : ∀ g, n.slot c i ≠ .taken g) (hfound : n.found c' h = .ok f)
    (s : Slot FileId) : (n.set c i s).found c' h = .ok f := by
  have hslot := slot_of_found hfound
  have hother : ¬(c' = c ∧ h.slot = i) := by
    rintro ⟨rfl, rfl⟩
    exact hnot f hslot
  have hkept : (n.set c i s).slot c' h.slot = n.slot c' h.slot := by
    rw [set_slot, if_neg hother]
  rw [← hfound, found, found, find, find, hkept, set_kernel]

theorem fillable_eq_error {e : Error} (he : n.fillable c h = .error e) : e = .badHandle := by
  rw [fillable] at he
  split at he
  · cases he
  · exact (Except.error.inj he).symm

end Numbering

namespace World

variable {w w' w'' : World} {c : ContextId}

/-- Nothing has changed but tables and open files. -/
structure Retabled (w w' : World) : Prop where
  limits : w'.limits = w.limits
  nodes : w'.nodes = w.nodes
  volumes : w'.volumes = w.volumes
  rootVolume : w'.rootVolume = w.rootVolume
  tasks : w'.tasks = w.tasks
  cwd : ∀ c, (w'.context c).cwd = (w.context c).cwd

theorem Retabled.refl (w : World) : w.Retabled w := ⟨rfl, rfl, rfl, rfl, rfl, fun _ => rfl⟩

theorem Retabled.trans (h : w.Retabled w') (h' : w'.Retabled w'') : w.Retabled w'' where
  limits := h'.limits.trans h.limits
  nodes := h'.nodes.trans h.nodes
  volumes := h'.volumes.trans h.volumes
  rootVolume := h'.rootVolume.trans h.rootVolume
  tasks := h'.tasks.trans h.tasks
  cwd c := (h'.cwd c).trans (h.cwd c)

theorem retabled_modify (w : World) (opened : Arena OpenFile) (c : ContextId)
    (files : ReservationTable FileId) : w.Retabled
      { w with
        files := opened
        contexts := w.contexts.modify c fun context => { context with files } } := by
  refine ⟨rfl, rfl, rfl, rfl, rfl, fun c' => ?_⟩
  rw [context, context, Array.getD_eq_getD_getElem?, Array.getD_eq_getD_getElem?,
    Array.getElem?_modify]
  split
  · cases w.contexts[c']? <;> rfl
  · rfl

theorem retabled_reserving (w : World) (c : ContextId) : w.Retabled (w.reserving c) := by
  rw [reserving, allocateHandle, Action.bind_ok (Action.look_apply _ w)]
  cases (w.context c).files.reserve with
  | none => exact .refl w
  | some reserved => exact retabled_modify w w.files c reserved.2

theorem WellFormed.reserving (h : w.WellFormed) (c : ContextId) : (w.reserving c).WellFormed :=
  Edits.wellFormed
    (h.edits_of_moves (allocateHandle_turns (h.steady : w.Steady .all) c).moves.1) h

/-- A number of a context is free that a handle can name. -/
def HasRoom (w : World) (c : ContextId) : Prop :=
  ∃ i < Handle.slotLimit, i < w.numbering.limit c ∧ w.numbering.slot c i = .free

/-- What a handle stands for can be told whatever other number is reserved. -/
theorem Orderly.fileOf_reserving (hw : w.Orderly) (c : ContextId) {t : TaskId} {h : Handle}
    {f : FileId} (hf : (fileOf t h w).result = .ok f) :
    (fileOf t h (w.reserving c)).result = .ok f := by
  rw [result_fileOf] at hf ⊢
  have hnumbering := (allocateHandle_renders hw c).numbering
  rw [reserving, hnumbering, Numbering.give]
  cases hleast : w.numbering.least c with
  | none => exact hf
  | some i =>
    refine Numbering.found_set_of_unbound (fun g => ?_) hf .reserved
    rw [(Numbering.least_eq_some_iff.1 hleast).2.1]
    intro htaken
    cases htaken

end World

section

variable {w : World} {c : ContextId} {h : Handle} {opening : Act OpenFile}

/-- The number of the least free slot is given out, and the slot is reserved. -/
theorem allocateHandle_least (hw : w.Orderly) {i : Nat} (hleast : w.numbering.least c = some i) :
    (allocateHandle c w).result = .ok (.ofSlot i (w.numbering.kernel c)) ∧
      (w.reserving c).numbering = w.numbering.set c i .reserved := by
  have hallocate := allocateHandle_renders hw c
  rw [Numbering.give_least hleast] at hallocate
  exact ⟨hallocate.result, hallocate.numbering⟩

/-- No other number is given out. -/
theorem allocateHandle_eq_ok (hw : w.Orderly) (hok : (allocateHandle c w).result = .ok h) :
    ∃ i, w.numbering.least c = some i ∧ h = .ofSlot i (w.numbering.kernel c) ∧
      (w.reserving c).numbering = w.numbering.set c i .reserved := by
  have hallocate := allocateHandle_renders hw c
  cases hleast : w.numbering.least c with
  | none =>
    rw [Numbering.give_full hleast] at hallocate
    cases hallocate.result.symm.trans hok
  | some i =>
    obtain ⟨hgiven, hnumbering⟩ := allocateHandle_least hw hleast
    exact ⟨i, rfl, Except.ok.inj (hok.symm.trans hgiven), hnumbering⟩

theorem result_commitFile (c : ContextId) (h : Handle) (file : OpenFile) (w : World) :
    (commitFile c h file w).result = (w.numbering.fillable c h).map fun _ => h := by
  rcases ended_commitFile c h file w with ⟨e, hfillable, hended⟩ | ⟨hfillable, files, hended⟩ <;>
    rw [hfillable] <;> exact (Prod.mk.inj hended).1

theorem retabled_commitFile (c : ContextId) (h : Handle) (file : OpenFile) (w : World) :
    w.Retabled (commitFile c h file w).world := by
  rcases ended_commitFile c h file w with ⟨e, -, hended⟩ | ⟨-, files, hended⟩ <;>
    rw [(Prod.mk.inj hended).2]
  · exact .refl w
  · exact World.retabled_modify w _ c files

/-- A file that could be committed has a key of its own, and the number that was reserved for it. -/
theorem commitFile_numbering (hw : w.Orderly) {copy : Handle} {file : OpenFile}
    (hok : (commitFile c h file w).result = .ok copy) :
    copy = h ∧ w.numbering.fillable c h = .ok () ∧
      (commitFile c h file w).world.numbering =
        w.numbering.made.set c h.slot (.taken w.files.nextKey) ∧
      (commitFile c h file w).world.files = w.files.push file := by
  obtain ⟨hresult, hnumbering, -, -⟩ := commitFile_renders hw c h file
  cases hfill : w.numbering.made.fill c h w.numbering.next with
  | error e =>
    rw [hok, hfill] at hresult
    cases hresult
  | ok after =>
    rw [hfill] at hresult hnumbering
    rw [hok] at hresult
    obtain ⟨_, hfillable, hset⟩ := Numbering.bind_eq_ok.1 hfill
    cases hset
    refine ⟨Except.ok.inj hresult, hfillable, hnumbering, ?_⟩
    rcases ended_commitFile c h file w with ⟨e, -, hended⟩ | ⟨-, files, hended⟩
    · rw [(Prod.mk.inj hended).1] at hok
      cases hok
    · rw [(Prod.mk.inj hended).2]

/-- An open into a number comes out as the opening does, once a number is reserved that can be
bound. -/
theorem result_openInto (c : ContextId) (hspares : opening.Does Sparing True) (w : World) :
    (openInto c opening w).result = (allocateHandle c w).result.bind fun h =>
      (opening (w.reserving c)).result.bind fun _ =>
        ((w.reserving c).numbering.fillable c h).map fun _ => h := by
  have hspared := (hspares (w.reserving c)).1
  rcases hallocate : (allocateHandle c).ended w with ⟨e | h, w₁⟩ <;>
    obtain ⟨hallocated, hreserving⟩ := Prod.mk.inj hallocate <;> rw [hallocated] <;>
    obtain rfl : w.reserving c = w₁ := hreserving
  · exact (Prod.mk.inj
      (ended_withReserved_error (fun h => opening >>= commitFile c h) hallocate)).1
  have hended := ended_withReserved (fun h => opening >>= commitFile c h) hallocate
  rw [ended_bind] at hended
  rw [Except.bind]
  rcases hopening : opening.ended (w.reserving c) with ⟨e | file, w₂⟩ <;>
    rw [hopening] at hended <;> obtain ⟨hopened, rfl⟩ := Prod.mk.inj hopening <;> rw [hopened]
  · exact (Prod.mk.inj hended).1
  have hsame : (opening (w.reserving c)).world.numbering = (w.reserving c).numbering :=
    World.numbering_congr hspared.contexts hspared.tasks (by rw [hspared.files])
  have hcommit := result_commitFile c h file (opening (w.reserving c)).world
  rw [hsame] at hcommit
  dsimp only at hended
  rw [Except.bind, ← hcommit]
  rcases hcommitted : (commitFile c h file).ended (opening (w.reserving c)).world with
      ⟨e | bound, w₃⟩ <;>
    rw [hcommitted] at hended <;> obtain ⟨hresult, -⟩ := Prod.mk.inj hcommitted <;>
    exact (Prod.mk.inj hended).1.trans hresult.symm

/-- Apart from what has to do with numbers, an open into a number fails for what the opening fails
for. -/
theorem openInto_eq_error (hw : w.Orderly) (hspares : opening.Does Sparing True) {e : Error}
    (hfull : e ≠ .tooManyOpenFiles) (hbad : e ≠ .badHandle) :
    (openInto c opening w).result = .error e ↔
      ¬w.numbering.Full c ∧ (opening (w.reserving c)).result = .error e := by
  rw [result_openInto c hspares, (allocateHandle_renders hw c).result, Numbering.give,
    ← Numbering.least_eq_none_iff]
  cases w.numbering.least c with
  | none =>
    refine ⟨fun he => absurd (Except.error.inj he).symm hfull, fun hnot => absurd rfl hnot.1⟩
  | some i =>
    simp only [Except.map, Except.bind, reduceCtorEq, not_false_eq_true, true_and]
    cases (opening (w.reserving c)).result with
    | error e' => simp
    | ok file =>
      simp only [reduceCtorEq, iff_false]
      cases hfillable : (w.reserving c).numbering.fillable c (.ofSlot i (w.numbering.kernel c)) with
      | ok u =>
        intro he
        cases he
      | error e' =>
        intro he
        exact hbad ((Except.error.inj he).symm.trans (Numbering.fillable_eq_error hfillable))

/-- If there is a number for it, what can be opened comes under a number. -/
theorem openInto_ok (hw : w.Orderly) (hspares : opening.Does Sparing True) (hroom : w.HasRoom c)
    {file : OpenFile} (hopening : (opening (w.reserving c)).result = .ok file) :
    ∃ h, (openInto c opening w).result = .ok h := by
  obtain ⟨j, hj, hlimit, hfree⟩ := hroom
  have hallocate := allocateHandle_renders hw c
  rw [Numbering.give] at hallocate
  cases hleast : w.numbering.least c with
  | none => exact absurd hfree (Numbering.least_eq_none_iff.1 hleast j hlimit)
  | some i =>
    rw [hleast] at hallocate
    obtain ⟨-, -, hlow⟩ := Numbering.least_eq_some_iff.1 hleast
    have hi : i < Handle.slotLimit :=
      Nat.lt_of_le_of_lt (Nat.not_lt.1 fun hlt => hlow j hlt hfree) hj
    have hnumbering : (w.reserving c).numbering = w.numbering.set c i .reserved :=
      hallocate.numbering
    have hfillable : (w.reserving c).numbering.fillable c (.ofSlot i (w.numbering.kernel c)) =
        .ok () := by
      rw [hnumbering, Numbering.fillable_eq_ok, Handle.slot_ofSlot hi]
      exact ⟨Handle.isKernel_ofSlot hi _, by rw [Numbering.set_slot, if_pos ⟨rfl, rfl⟩]⟩
    refine ⟨.ofSlot i (w.numbering.kernel c), ?_⟩
    rw [result_openInto c hspares, hallocate.result, hopening]
    simp only [Except.map, Except.bind, hfillable]

/-- A file has been opened and bound to a number, which stands for it now; all other handles stand
for what they stood for. -/
structure World.Binds (w : World) (c : ContextId) (opening : Act OpenFile) (h : Handle)
    (file : OpenFile) (w' : World) : Prop where
  opened : (opening (w.reserving c)).result = .ok file
  retabled : (opening (w.reserving c)).world.Retabled w'
  tasks : w'.tasks = w.tasks
  kernel : h.isKernel = w.numbering.kernel c
  files : w'.files = w.files.push file
  found : (lookupHandle c h w').result = .ok w.files.nextKey
  handles : ∀ t base f, (fileOf t base (w.reserving c)).result = .ok f →
    (fileOf t base w').result = .ok f

/-- An open into a number that succeeds ends by committing what it opened. -/
theorem openInto_commits (hok : (openInto c opening w).result = .ok h) : ∃ reserved file,
    (allocateHandle c w).result = .ok reserved ∧ (opening (w.reserving c)).result = .ok file ∧
      (openInto c opening).ended w =
        (commitFile c reserved file).ended (opening (w.reserving c)).world := by
  rcases hallocate : (allocateHandle c).ended w with ⟨e | reserved, w₁⟩
  · have hended := ended_withReserved_error (fun h => opening >>= commitFile c h) hallocate
    cases (Prod.mk.inj hended).1.symm.trans hok
  have hended := ended_withReserved (fun h => opening >>= commitFile c h) hallocate
  obtain ⟨hallocated, hreserving⟩ := Prod.mk.inj hallocate
  obtain rfl : w.reserving c = w₁ := hreserving
  rw [ended_bind] at hended
  rcases hopening : opening.ended (w.reserving c) with ⟨e | file, w₂⟩ <;>
    rw [hopening] at hended <;> obtain ⟨hopened, rfl⟩ := Prod.mk.inj hopening
  · cases (Prod.mk.inj hended).1.symm.trans hok
  dsimp only at hended
  refine ⟨reserved, file, hallocated, hopened, ?_⟩
  rcases hcommit : (commitFile c reserved file).ended (opening (w.reserving c)).world with
    ⟨e | bound, w₃⟩ <;> rw [hcommit] at hended
  · cases (Prod.mk.inj hended).1.symm.trans hok
  · exact hended

/-- What spares tables leaves the numbers as they were reserved. -/
theorem opening_keeps (hw : w.Orderly) (hspares : opening.Does Sparing True) :
    let opened := (opening (w.reserving c)).world
    opened.numbering = (w.reserving c).numbering ∧ opened.Orderly ∧ opened.files = w.files ∧
      opened.tasks = w.tasks := by
  have hspared := (hspares (w.reserving c)).1
  refine ⟨World.numbering_congr hspared.contexts hspared.tasks (by rw [hspared.files]),
    ((allocateHandle_renders hw c).orderly).congr hspared.contexts hspared.tasks hspared.files, ?_,
    hspared.tasks.trans (World.retabled_reserving w c).tasks⟩
  rw [hspared.files, World.reserving_files]

theorem openInto_binds (hw : w.Orderly) (hspares : opening.Does Sparing True)
    (hok : (openInto c opening w).result = .ok h) :
    ∃ file, w.Binds c opening h file (openInto c opening w).world := by
  obtain ⟨hsame, horderly, hfiles, htasks⟩ := opening_keeps (c := c) hw hspares
  obtain ⟨reserved, file, hallocated, hopened, hended⟩ := openInto_commits hok
  obtain ⟨hresult, hworld⟩ := Prod.mk.inj hended
  obtain ⟨rfl, hfillable, hnumbering, hpushed⟩ :=
    commitFile_numbering horderly (hresult.symm.trans hok)
  obtain ⟨hkernel, hreserved⟩ := Numbering.fillable_eq_ok.1 hfillable
  have hretabled := retabled_commitFile c h file (opening (w.reserving c)).world
  refine ⟨file, hopened, hworld ▸ hretabled, ?_, ?_, ?_, ?_, fun t base f hf => ?_⟩
  · rw [hworld, hretabled.tasks, htasks]
  · obtain ⟨i, -, -, hgiven⟩ := allocateHandle_eq_ok hw hallocated
    rw [hkernel, hsame, hgiven]
    rfl
  · rw [hworld, hpushed, hfiles]
  · rw [result_lookupHandle, hworld, hnumbering, hfiles]
    exact Numbering.found_set hkernel _
  · rw [result_fileOf, ← hsame] at hf
    rw [result_fileOf, hworld, hnumbering]
    refine Numbering.found_set_of_unbound (fun g htaken => ?_) hf _
    cases hreserved.symm.trans htaken

end

namespace World.Binds

variable {w w' : World} {c : ContextId} {h : Handle} {opening : Act OpenFile} {file : OpenFile}
  {t : TaskId} (hbinds : w.Binds c opening h file w')

include hbinds

/-- A task of the context has the new file under the number. -/
theorem fileOf_eq (hcontext : w.contextOf t h.isKernel = c) :
    (fileOf t h w').result = .ok w.files.nextKey := by
  rw [fileOf, Query.look_bind, World.contextOf, World.task, hbinds.tasks]
  subst hcontext
  exact hbinds.found

theorem openFileOf_eq (hcontext : w.contextOf t h.isKernel = c) :
    (openFileOf t h w').result = .ok file := by
  refine Query.result_bind_eq_ok.2 ⟨w.files.nextKey, hbinds.fileOf_eq hcontext, ?_⟩
  rw [Query.result_look, World.file, hbinds.files, Arena.get?_push, if_pos rfl, Option.getD_some]

end World.Binds

/-! ## Paths that are opened -/

section

variable {w : World} (hw : w.Orderly) {t : TaskId} {base : Option Handle} {path : String}
  {flags : OpenFlags} {mode : UInt32}

include hw

theorem openPath_eq_error {e : Error} (hfull : e ≠ .tooManyOpenFiles) (hbad : e ≠ .badHandle) :
    (openPath t base path flags mode w).result = .error e ↔
      ¬w.numbering.Full (w.contextOf t flags.forKernel) ∧
        (pathOpening t base path flags mode
          (w.reserving (w.contextOf t flags.forKernel))).result = .error e := by
  rw [(Prod.mk.inj (ended_openPath t base path flags mode)).1]
  exact openInto_eq_error hw (pathOpening_spares standard_discreet t base path flags mode) hfull
    hbad

theorem openPath_ok (hroom : w.HasRoom (w.contextOf t flags.forKernel)) {file : OpenFile}
    (hopening : (pathOpening t base path flags mode
      (w.reserving (w.contextOf t flags.forKernel))).result = .ok file) :
    ∃ h, (openPath t base path flags mode w).result = .ok h := by
  rw [(Prod.mk.inj (ended_openPath t base path flags mode)).1]
  exact openInto_ok hw (pathOpening_spares standard_discreet t base path flags mode) hroom hopening

theorem openPath_binds {h : Handle} (hok : (openPath t base path flags mode w).result = .ok h) :
    ∃ file, w.Binds (w.contextOf t flags.forKernel) (pathOpening t base path flags mode) h file
      (openPath t base path flags mode w).world := by
  obtain ⟨hresult, hworld⟩ := Prod.mk.inj (ended_openPath (w := w) t base path flags mode)
  rw [hworld]
  exact openInto_binds hw (pathOpening_spares standard_discreet t base path flags mode)
    (hresult.symm.trans hok)

end

end VirtualFs
