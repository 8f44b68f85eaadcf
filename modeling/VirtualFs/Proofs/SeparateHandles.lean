/-
What is asked of a handle is done to its own open file. As long as no number is
bound or freed, tables stay as they are, and so do all other open files; so two
handles that stand for files of their own may be used side by side in any order,
and neither moves the other or changes its flags.
-/
import VirtualFs.Proofs.ReadOnlyHandles
import VirtualFs.Proofs.TouchedFiles

namespace VirtualFs

open World (OnlyOpen Sparing)
open VirtualFs.Action (leads_pure leads_query leads_bind leads_query_bind)

/-! ## What a handle is asked -/

namespace HandleCall

/-- Binds or frees a number, or binds the working directory. -/
def rebinds : HandleCall → Bool
  | changeDirectoryTo | duplicate | duplicateTo _ | reopen | close => true
  | _ => false

/-- What is left of a world by calls on handles, one after the other. -/
def runAll (t : TaskId) (calls : List (Handle × HandleCall)) (w : World) : World :=
  calls.foldl (fun w asked => asked.2.run t asked.1 w) w

variable {f : FileId} {w : World} {t : TaskId} {h : Handle}

/-- **A call that binds nothing is about the handle's own open file**, and leaves all other open
files as they are. -/
theorem onlyOpen {call : HandleCall} (hcall : call.rebinds = false)
    (hf : (fileOf t h w).result = .ok f) : OnlyOpen (· = f) w (call.run t h w) := by
  have hled {α : Type} {x : Act α} (hx : x.LeadsOnly (OnlyOpen (· = f)) w) :
      OnlyOpen (· = f) w (x.after w) :=
    .of_steps hx.1
  have hspared {α : Type} {x : Act α} (hx : x.Does Sparing True) :
      OnlyOpen (· = f) w (x.after w) :=
    (hx w).1.onlyOpen _
  have hfile (g : FileId) (hg : (fileOf t h w).result = .ok g) : g = f :=
    Except.ok.inj (hg.symm.trans hf)
  have hwrites : @Backends.Writes standard Sparing :=
    standard_discreet.writes fun _ _ _ haside => haside.1
  cases call with
  | readv buffers => exact hled (readv_onlyOpen hfile buffers)
  | preadv position buffers => exact hspared (preadv_does standard_discreet t h position buffers)
  | readFully buffer =>
    refine hled (x := VirtualFs.readFully t h buffer) ?_
    rw [VirtualFs.readFully, ← bind_pure_comp]
    exact leads_bind (readv_onlyOpen hfile [buffer]) fun _ _ _ _ => leads_pure trivial
  | preadFully position buffer =>
    refine hspared (x := VirtualFs.preadFully t h position buffer) ?_
    rw [VirtualFs.preadFully, ← bind_pure_comp]
    exact Action.does_bind (preadv_does standard_discreet t h position [buffer]) fun _ =>
      Action.does_pure _
  | writev segments => exact hled (writev_onlyOpen hfile standard_discreet segments)
  | pwritev position segments => exact hspared (pwritev_does hwrites t h position segments)
  | writeFully data =>
    exact hled (leads_bind (writev_onlyOpen hfile standard_discreet [data]) fun _ _ _ _ =>
      leads_query fun _ _ => trivial)
  | pwriteFully position data =>
    exact hspared (Action.does_bind (pwritev_does hwrites t h position [data]) fun _ =>
      Action.does_query (.ofResult fun _ => trivial))
  | seek offset origin => exact hled (seek_onlyOpen hfile offset origin)
  | flush | handleStatus | flagsOf | directoryPath => exact .refl _ w
  | control request input buffer =>
    exact hspared (control_does standard_discreet t h request input buffer)
  | writeStatus status mask => exact hspared (writeStatus_does hwrites t h status mask)
  | setFlags flags => exact hled (setFlags_onlyOpen hfile flags)
  | nextEntry => exact hled (nextEntry_onlyOpen hfile)
  | remainingEntries =>
    exact hled (leads_query_bind fun _ _ => leads_query_bind fun bound _ =>
      takeEntries_onlyOpen hfile bound)
  | rewind => exact hled (rewind_onlyOpen hfile)
  | changeDirectoryTo | duplicate | duplicateTo | reopen | close => cases hcall

/-- A sequence of such calls is about the handle's open file, for which it stands throughout. -/
theorem runAll_onlyOpen {calls : List HandleCall} (hcalls : ∀ call ∈ calls, call.rebinds = false)
    (hf : (fileOf t h w).result = .ok f) :
    OnlyOpen (· = f) w (runAll t (calls.map (h, ·)) w) := by
  induction calls generalizing w with
  | nil => exact .refl _ w
  | cons call rest ih =>
    have hstep := onlyOpen (hcalls call List.mem_cons_self) hf
    exact hstep.trans
      (ih (fun later hlater => hcalls later (List.mem_cons_of_mem _ hlater))
        ((hstep.fileOf_eq t h).trans hf))

end HandleCall

/-! ## Two handles -/

namespace World

/-- Two handles of a task stand for open files of their own. -/
def Separate (w : World) (t : TaskId) (h h' : Handle) : Prop :=
  ∃ f f', f ≠ f' ∧ (fileOf t h w).result = .ok f ∧ (fileOf t h' w).result = .ok f'

/-- Two handles do not get in each other's way. Whatever they have been used for in turn, and
whatever is asked of one of them then, it leaves what the other stands for as it is. -/
def Independent (w : World) (t : TaskId) (h h' : Handle) : Prop :=
  ∀ before : List (Handle × HandleCall),
    (∀ asked ∈ before, (asked.1 = h ∨ asked.1 = h') ∧ asked.2.rebinds = false) →
  ∀ calls : List HandleCall, (∀ call ∈ calls, call.rebinds = false) →
    let w' := HandleCall.runAll t before w
    (openFileOf t h' (HandleCall.runAll t (calls.map (h, ·)) w')).result =
        (openFileOf t h' w').result ∧
      (openFileOf t h (HandleCall.runAll t (calls.map (h', ·)) w')).result =
        (openFileOf t h w').result

variable {w : World} {t : TaskId} {h h' asked : Handle}

theorem Separate.run (hseparate : w.Separate t h h') (hasked : asked = h ∨ asked = h')
    {call : HandleCall} (hcall : call.rebinds = false) :
    (call.run t asked w).Separate t h h' := by
  obtain ⟨f, f', hne, hf, hf'⟩ := hseparate
  obtain ⟨g, honly⟩ : ∃ g, OnlyOpen (· = g) w (call.run t asked w) := by
    rcases hasked with rfl | rfl
    · exact ⟨f, HandleCall.onlyOpen hcall hf⟩
    · exact ⟨f', HandleCall.onlyOpen hcall hf'⟩
  exact ⟨f, f', hne, (honly.fileOf_eq t h).trans hf, (honly.fileOf_eq t h').trans hf'⟩

theorem Separate.runAll (hseparate : w.Separate t h h') {calls : List (Handle × HandleCall)}
    (hcalls : ∀ asked ∈ calls, (asked.1 = h ∨ asked.1 = h') ∧ asked.2.rebinds = false) :
    (HandleCall.runAll t calls w).Separate t h h' := by
  induction calls generalizing w with
  | nil => exact hseparate
  | cons call rest ih =>
    obtain ⟨hasked, hcall⟩ := hcalls call List.mem_cons_self
    exact ih (hseparate.run hasked hcall) fun later hlater =>
      hcalls later (List.mem_cons_of_mem _ hlater)

/-- **Handles with open files of their own are independent.** -/
theorem Separate.independent (hseparate : w.Separate t h h') : w.Independent t h h' := by
  intro before hbefore calls hcalls
  obtain ⟨f, f', hne, hf, hf'⟩ := hseparate.runAll hbefore
  have hother {k : Handle} {g g' : FileId} {w' : World} (hne : g ≠ g')
      (hg : (fileOf t k w').result = .ok g) (g'' : FileId)
      (hg'' : (fileOf t k w').result = .ok g'') : g'' ≠ g' := by
    rwa [← Except.ok.inj (hg.symm.trans hg'')]
  exact ⟨(HandleCall.runAll_onlyOpen hcalls hf).openFileOf_eq (hother hne.symm hf'),
    (HandleCall.runAll_onlyOpen hcalls hf').openFileOf_eq (hother hne hf)⟩

end World

end VirtualFs
