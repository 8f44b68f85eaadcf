/-
What an open file may be used for is settled when it is opened. Its access mode
stays as it is until it is closed, whatever is done in between; and a handle that
duplicates another, or opens its node once more, has the access mode of the other.
-/
import VirtualFs.Proofs.Following
import VirtualFs.Proofs.StreamRuns
import VirtualFs.Proofs.TableCalls

namespace VirtualFs

open World (Sparing Following)
open VirtualFs.Action (does_pure does_bind leads_bind leads_pure)

namespace World

/-- What is open under a key that was given out was open under it before, with the same access
mode. -/
structure SameModes (w w' : World) : Prop where
  nextKey : w.files.nextKey ≤ w'.files.nextKey
  file : ∀ f < w.files.nextKey, ∀ file', w'.files.get? f = some file' →
    ∃ file, w.files.get? f = some file ∧ file'.flags.accessMode = file.flags.accessMode

/-- A stretch of a run in which access modes stay, whatever is seen. -/
def Settling (w : World) (_ : List Event) (w' : World) : Prop := w.SameModes w'

variable {w w' w'' : World}

theorem SameModes.of_files (h : w'.files = w.files) : w.SameModes w' where
  nextKey := by rw [h]
  file f _ file' hfile' := ⟨file', by rw [← h]; exact hfile', rfl⟩

theorem SameModes.refl (w : World) : w.SameModes w := .of_files rfl

theorem SameModes.trans (h : w.SameModes w') (h' : w'.SameModes w'') : w.SameModes w'' where
  nextKey := Nat.le_trans h.nextKey h'.nextKey
  file f hf file'' hfile'' := by
    obtain ⟨file', hfile', hmode'⟩ := h'.file f (Nat.lt_of_lt_of_le hf h.nextKey) file'' hfile''
    obtain ⟨file, hfile, hmode⟩ := h.file f hf file' hfile'
    exact ⟨file, hfile, hmode'.trans hmode⟩

/-- An open file may change in all but its access mode. -/
theorem sameModes_setFile (g : FileId) {change : OpenFile → OpenFile}
    (h : ∀ file, (change file).flags.accessMode = file.flags.accessMode) :
    w.SameModes (w.setFile g change) where
  nextKey := Nat.le_of_eq (Arena.nextKey_modify _ _ _).symm
  file f _ file' hfile' := by
    obtain ⟨file, hfile, rfl | rfl⟩ := Arena.exists_get?_of_modify hfile'
    · exact ⟨_, hfile, rfl⟩
    · exact ⟨file, hfile, h file⟩

theorem sameModes_push (file : OpenFile) : w.SameModes { w with files := w.files.push file } where
  nextKey := by simp
  file f hf file' hfile' := by
    rw [w.get?_pushed file hf] at hfile'
    exact ⟨file', hfile', rfl⟩

theorem sameModes_remove (g : FileId) :
    w.SameModes { w with files := w.files.remove g } where
  nextKey := by simp
  file _ _ file' hfile' := ⟨file', Arena.get?_of_remove hfile', rfl⟩

end World

theorem OpenFile.flags_setPosition (file : OpenFile) (position : Nat) :
    (file.setPosition position).flags = file.flags := by
  rw [setPosition]
  split <;> rfl

theorem OpenFile.flags_setCursor (file : OpenFile) (cursor : Nat) :
    (file.setCursor cursor).flags = file.flags := by
  rw [setCursor]
  split <;> rfl

namespace World

instance : Stretch Settling where
  quiet _ := .refl _
  trans h h' := SameModes.trans h h'

instance : Following Settling where
  beside h := .of_files h.files
  settled w := .of_files w.spares_settle.files
  moved _ g position := sameModes_setFile g fun file => by rw [file.flags_setPosition]
  flagged _ g flags := sameModes_setFile g fun file => file.flags.accessMode_withStatus flags
  turned _ g _ := sameModes_setFile g fun file => by rw [file.flags_setCursor]
  seen _ h := h
  tables _ _ _ := .of_files rfl
  removed _ g := sameModes_remove g
  spared h := .of_files h.files
  pushed _ file := sameModes_push file

end World

open World (SameModes Settling)

/-- **The access mode of an open file never changes.** -/
theorem Operation.sameModes (op : Operation) (w : World) : w.SameModes (op.run w) :=
  op.follows (R := Settling) w

/-! ## Handles made from others -/

section

variable {n : Numbering} {c : ContextId} {t : TaskId} {h target : Handle} {f : FileId}

theorem Numbering.fileOf_copied {after : Numbering} (hcopied : n.copied h t target = .ok after) :
    after.fileOf target t = n.fileOf h t := by
  obtain ⟨f, hf, hcopied⟩ := bind_eq_ok.1 hcopied
  split at hcopied
  · next hsame =>
    cases hcopied
    rw [hsame]
  · obtain ⟨⟨displaced, placed⟩, hplace, hcopied⟩ := bind_eq_ok.1 hcopied
    cases hcopied
    obtain ⟨_, hplaceable, hplace⟩ := bind_eq_ok.1 hplace
    cases hplace
    rw [hf]
    exact found_set (placeable_eq_ok.1 hplaceable).1 f

end

section

variable {w : World} {t : TaskId} {h copy target : Handle} {file : OpenFile}

/-- A handle that another was duplicated onto stands for the file of the other. -/
theorem duplicateTo_fileOf (hw : w.Orderly) (hok : (duplicateTo t h target w).result = .ok copy) :
    (fileOf t copy ((Operation.duplicateTo t h target).run w)).result = (fileOf t h w).result := by
  obtain ⟨hresult, hnumbering, -, -⟩ := duplicateTo_renders hw t h target
  rw [hok] at hresult
  have hrun : (Operation.duplicateTo t h target).run w = (duplicateTo t h target w).world := rfl
  rw [result_fileOf, result_fileOf, hrun, hnumbering]
  cases hcopied : w.numbering.copied h t target with
  | error e =>
    rw [hcopied] at hresult
    cases hresult
  | ok after =>
    rw [hcopied] at hresult
    cases hresult
    exact Numbering.fileOf_copied hcopied

/-- A node is opened with the access mode that is asked for. -/
theorem accessMode_openFound (n : NodeId) (flags : OpenFlags) :
    (openFound n flags).Leads (fun _ _ => True) w
      fun file _ => file.flags.accessMode = flags.accessMode := by
  refine ((openFound_makes n flags).mono fun _ _ _ => trivial).imp ?_
  rintro _ _ - ⟨kind, rfl⟩
  exact flags.accessMode_without (by decide)

/-- A node that is opened once more has the access mode it was open with. -/
theorem reopen_openFileOf (hw : w.Orderly) (hfile : (openFileOf t h w).result = .ok file)
    (hok : (reopen t h w).result = .ok copy) :
    ∃ fresh, (openFileOf t copy ((Operation.reopen t h).run w)).result = .ok fresh ∧
      fresh.flags.accessMode = file.flags.accessMode := by
  obtain ⟨hresult, hworld⟩ := Prod.mk.inj (ended_reopen hfile)
  have hspares : (reopening file).Does Sparing True :=
    does_bind (openFound_spares standard_discreet file.node _) fun _ => does_pure _
  obtain ⟨fresh, hbinds⟩ := openInto_binds hw hspares (hresult.symm.trans hok)
  obtain ⟨f, hf, -⟩ := Query.result_bind_eq_ok.1 hfile
  rw [result_fileOf] at hf
  have hsame : copy.isKernel = h.isKernel :=
    hbinds.kernel.trans (Numbering.isKernel_of_fileOf hf).symm
  refine ⟨fresh, ?_, ?_⟩
  · have hrun : (Operation.reopen t h).run w = (reopen t h w).world := rfl
    rw [hrun, hworld]
    exact hbinds.openFileOf_eq (by rw [hsame])
  · have hleads (w₁ : World) : (reopening file).Leads (fun _ _ => True) w₁
        fun fresh _ => fresh.flags.accessMode = file.flags.accessMode := by
      refine leads_bind (accessMode_openFound file.node _) fun fresh _ _ hmode => leads_pure ?_
      rw [fresh.flags_setPosition, hmode]
      exact file.flags.accessMode_without (by decide)
    exact (hleads _).2 fresh hbinds.opened

end

end VirtualFs
