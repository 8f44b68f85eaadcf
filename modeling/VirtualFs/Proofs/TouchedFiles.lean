/-
The open files that a call on a handle touches. It moves the file that the handle
stands for, or changes its flags; tables and all other open files stay as they
are (`World.OnlyOpen`). Of which file that is, only so much is asked as a caller
knows: that it is one of some files.
-/
import VirtualFs.Proofs.Readers
import VirtualFs.Proofs.StreamCalls

namespace VirtualFs

open Relation (ReflTransGen)
open World (Sparing)
open VirtualFs.Action (leads_pure leads_change leads_query leads_bind leads_query_bind leads_when)

namespace World

/-- Tables are the same, and so is every open file but some. -/
structure OnlyOpen (touched : FileId → Prop) (w w' : World) : Prop where
  contexts : w'.contexts = w.contexts
  tasks : w'.tasks = w.tasks
  nextKey : w'.files.nextKey = w.files.nextKey
  file : ∀ g, ¬touched g → w'.files.get? g = w.files.get? g

variable {touched : FileId → Prop} {f : FileId} {w w' w'' : World}

theorem OnlyOpen.refl (touched : FileId → Prop) (w : World) : OnlyOpen touched w w :=
  ⟨rfl, rfl, rfl, fun _ _ => rfl⟩

theorem OnlyOpen.trans (h : OnlyOpen touched w w') (h' : OnlyOpen touched w' w'') :
    OnlyOpen touched w w'' where
  contexts := h'.contexts.trans h.contexts
  tasks := h'.tasks.trans h.tasks
  nextKey := h'.nextKey.trans h.nextKey
  file g hg := (h'.file g hg).trans (h.file g hg)

theorem OnlyOpen.of_steps (hsteps : ReflTransGen (OnlyOpen touched) w w') :
    OnlyOpen touched w w' := by
  induction hsteps with
  | refl => exact .refl touched w
  | tail _ hstep ih => exact ih.trans hstep

theorem Spares.onlyOpen (h : w.Spares w') (touched : FileId → Prop) : OnlyOpen touched w w' :=
  ⟨h.contexts, h.tasks, by rw [h.files], fun g _ => by rw [h.files]⟩

theorem onlyOpen_setFile (w : World) (hf : touched f) (change : OpenFile → OpenFile) :
    OnlyOpen touched w (w.setFile f change) := by
  refine ⟨rfl, rfl, Arena.nextKey_modify _ _ _, fun g hg => ?_⟩
  rw [setFile, Arena.get?_modify, if_neg]
  rintro rfl
  exact hg hf

theorem OnlyOpen.numbering_eq (h : OnlyOpen touched w w') : w'.numbering = w.numbering :=
  numbering_congr h.contexts h.tasks h.nextKey

/-- Handles stand for the files that they stood for. -/
theorem OnlyOpen.fileOf_eq (h : OnlyOpen touched w w') (t : TaskId) (handle : Handle) :
    (fileOf t handle w').result = (fileOf t handle w).result := by
  rw [result_fileOf, result_fileOf, h.numbering_eq]

/-- What is behind a handle whose file is not touched is as it was. -/
theorem OnlyOpen.openFileOf_eq (h : OnlyOpen touched w w') {t : TaskId} {handle : Handle}
    (hother : ∀ g, (fileOf t handle w).result = .ok g → ¬touched g) :
    (openFileOf t handle w').result = (openFileOf t handle w).result := by
  rw [openFileOf, Query.result_bind, Query.result_bind, h.fileOf_eq]
  cases hg : (fileOf t handle w).result with
  | error e => rfl
  | ok g =>
    rw [Except.bind, Except.bind, Query.result_look, Query.result_look, World.file, World.file,
      h.file g (hother g hg)]

end World

open World (OnlyOpen)

/-! ## Calls -/

section

variable {touched : FileId → Prop} {f : FileId} {w : World} {t : TaskId} {h : Handle}

theorem Action.Does.onlyOpen {α : Type} {full : Prop} {x : Act α} (hx : x.Does Sparing full) :
    x.LeadsOnly (OnlyOpen touched) w :=
  ⟨.single ((hx w).1.onlyOpen touched), fun _ _ => trivial⟩

theorem setFile_onlyOpen (hf : touched f) (change : OpenFile → OpenFile) :
    (Action.change (·.setFile f change) : Act Unit).LeadsOnly (OnlyOpen touched) w :=
  leads_change (.single (w.onlyOpen_setFile hf change)) trivial

theorem moveBy_onlyOpen (hf : touched f) (position count : Nat) :
    (moveBy f position count).LeadsOnly (OnlyOpen touched) w :=
  leads_query_bind fun _ _ => setFile_onlyOpen hf _

variable (hfile : ∀ f, (fileOf t h w).result = .ok f → touched f)

include hfile

theorem setFlags_onlyOpen (flags : OpenFlags) :
    (setFlags t h flags).LeadsOnly (OnlyOpen touched) w :=
  leads_query_bind fun f hf => setFile_onlyOpen (hfile f hf) _

section

variable [Backends]

theorem readv_onlyOpen (buffers : List ByteArray) :
    (readv t h buffers).LeadsOnly (OnlyOpen touched) w := by
  refine leads_query_bind fun found hfound => ?_
  rw [Query.result_attempt, Except.ok.injEq] at hfound
  split
  · exact leads_pure trivial
  · next f file ops =>
    have hf := hfile f (streamOf_found (readableOf_found hfound)).1
    exact receive_leads (leads_query fun _ _ => trivial) fun data =>
      leads_bind (moveBy_onlyOpen hf _ _) fun _ _ _ _ => leads_pure trivial

theorem seek_onlyOpen (offset : Int) (origin : SeekOrigin) :
    (seek t h offset origin).LeadsOnly (OnlyOpen touched) w :=
  leads_query_bind fun found hfound => leads_query_bind fun _ _ => leads_query_bind fun _ _ =>
    leads_bind (setFile_onlyOpen (hfile found.1 (streamOf_found hfound).1) _)
      fun _ _ _ _ => leads_pure trivial

theorem nextEntry_onlyOpen : (nextEntry t h).LeadsOnly (OnlyOpen touched) w :=
  leads_query_bind fun found hfound => leads_query_bind fun _ _ => leads_query_bind fun _ _ =>
    leads_bind (leads_when (fun _ => setFile_onlyOpen (hfile found.1 (directoryOf_found hfound).1) _)
      fun _ => trivial) fun _ _ _ _ => leads_pure trivial

omit [Backends] in
theorem rewind_onlyOpen : (rewind t h).LeadsOnly (OnlyOpen touched) w :=
  leads_query_bind fun found hfound => leads_query_bind fun _ _ =>
    setFile_onlyOpen (hfile found.1 (directoryOf_found hfound).1) _

/-- The handle stands for its file from one entry to the next. -/
theorem takeEntries_onlyOpen (count : Nat) :
    (takeEntries t h count).LeadsOnly (OnlyOpen touched) w := by
  induction count generalizing w with
  | zero => exact leads_pure trivial
  | succ count ih =>
    refine leads_bind (nextEntry_onlyOpen hfile) fun found w' hsteps _ => ?_
    have hfile' (f : FileId) (hf : (fileOf t h w').result = .ok f) : touched f :=
      hfile f (((OnlyOpen.of_steps hsteps).fileOf_eq t h).symm.trans hf)
    cases found with
    | none => exact leads_pure trivial
    | some entry => exact leads_bind (ih hfile') fun _ _ _ _ => leads_pure trivial

variable {full : Prop} (hlaws : Backends.Discreet full)

include hlaws

theorem writev_onlyOpen (segments : List ByteArray) :
    (writev t h segments).LeadsOnly (OnlyOpen touched) w := by
  refine leads_query_bind fun found hfound => leads_query_bind fun position _ => ?_
  have hf := hfile found.1 (streamOf_found (writableOf_found hfound)).1
  have hwrite := OpsKind.write_does (hlaws.writes (R := Sparing) fun _ _ _ haside => haside.1)
    found.2.2 found.2.1 position (Bytes.gather segments)
  exact leads_bind hwrite.onlyOpen fun count _ _ _ =>
    leads_bind (moveBy_onlyOpen hf _ _) fun _ _ _ _ => leads_pure trivial

end

end

end VirtualFs
