/-
Numbers that stray. Once the slots of a table need the bit that selects the
kernel's, the number that a context gives next is one of another table. It
cannot be bound where it was reserved, and it cannot be given back there: every
call that takes it fails, and the reservation stays (`TableCall.strands`).
Publishing devices apart, this is the one way for an operation that fails to
leave a trace. Operations lead there by themselves if the instance allows for
that many open files: copies of one file fill the table up to there.
-/
import VirtualFs.Proofs.HandleNumbers

namespace VirtualFs

open World (Sparing)
open VirtualFs.Action (ended_bind ended_look_bind ended_query_bind_error)

/-- The next number of a context is for a slot whose number selects another table. -/
structure World.Strays (w : World) (c : ContextId) (i : Nat) : Prop where
  least : w.numbering.least c = some i
  kernel : ¬(Handle.ofSlot i (w.numbering.kernel c)).isKernel = w.numbering.kernel c

/-- Fails, and leaves a slot reserved. -/
structure Action.Strands {α : Type} (x : Act α) (c : ContextId) (i : Nat) (w : World) : Prop where
  fails : ∃ e, (x w).result = .error e
  reserved : (x w).world.numbering = w.numbering.set c i .reserved

section

variable {α β : Type} {w : World} {c : ContextId} {i : Nat} {h : Handle} {e : Error}

theorem Action.Strands.of_ended {x : Act α} {w' : World} (hended : x.ended w = (.error e, w'))
    (hreserved : w'.numbering = w.numbering.set c i .reserved) : x.Strands c i w := by
  obtain ⟨hresult, hworld⟩ := Prod.mk.inj hended
  exact ⟨⟨e, hresult⟩, hworld ▸ hreserved⟩

theorem Action.Strands.congr {x y : Act α} (hy : y.Strands c i w)
    (hended : x.ended w = y.ended w) : x.Strands c i w := by
  obtain ⟨e, he⟩ := hy.fails
  exact .of_ended (hended.trans (Prod.ext he rfl)) hy.reserved

theorem Action.Strands.map {x : Act α} (hx : x.Strands c i w) (g : α → β) :
    (g <$> x).Strands c i w := by
  obtain ⟨e, he⟩ := hx.fails
  have hended : (g <$> x).ended w = (.error e, (x w).world) := by
    have hx' : x.ended w = (.error e, (x w).world) := Prod.ext he rfl
    rw [← bind_pure_comp, ended_bind, hx']
  exact .of_ended hended hx.reserved

/-- Giving back a number of another table changes nothing. -/
theorem giveBack_wrongTable (hkernel : ¬h.isKernel = w.numbering.kernel c) :
    (giveBack c h w).world = w := by
  have hother : ¬h.isKernel = (w.context c).kernel := hkernel
  have hended : (giveBack c h).ended w = (.ok (), w) := by
    rw [giveBack, freeHandle, ended_bind, ended_look_bind, if_neg hother]
    rfl
  exact (Prod.mk.inj hended).2

/-- A number that strays stays reserved if the work with it fails. -/
theorem ended_withReserved_strays (hw : w.Orderly) (hstrays : w.Strays c i)
    {work : Handle → Act Handle} {w' : World}
    (hwork : (work (.ofSlot i (w.numbering.kernel c))).ended (w.reserving c) = (.error e, w'))
    (hsame : w'.numbering = (w.reserving c).numbering) :
    (withReserved c work).ended w = (.error e, w') := by
  obtain ⟨hallocated, hreserved⟩ := allocateHandle_least hw hstrays.least
  have hkernel : ¬(Handle.ofSlot i (w.numbering.kernel c)).isKernel = w'.numbering.kernel c := by
    rw [hsame, hreserved, Numbering.set_kernel]
    exact hstrays.kernel
  have hallocate : (allocateHandle c).ended w =
      (.ok (.ofSlot i (w.numbering.kernel c)), w.reserving c) := Prod.ext hallocated rfl
  have hended := ended_withReserved work hallocate
  rw [hwork] at hended
  dsimp only at hended
  rwa [giveBack_wrongTable hkernel] at hended

end

/-! ## Calls that take a number that strays -/

section

variable {w : World} {c : ContextId} {i : Nat} (hw : w.Orderly) (hstrays : w.Strays c i)

include hw hstrays

/-- Nothing can be bound to the number. -/
theorem fillable_strays {w' : World} (hsame : w'.numbering = (w.reserving c).numbering) :
    w'.numbering.fillable c (.ofSlot i (w.numbering.kernel c)) = .error .badHandle := by
  rw [Numbering.fillable, hsame, (allocateHandle_least hw hstrays.least).2, Numbering.set_kernel,
    if_neg fun hboth => hstrays.kernel hboth.1]

/-- The slot was free, and stays reserved. -/
theorem slot_reserving_strays :
    w.numbering.slot c i = .free ∧ (w.reserving c).numbering.slot c i = .reserved := by
  refine ⟨(Numbering.least_eq_some_iff.1 hstrays.least).2.1, ?_⟩
  rw [(allocateHandle_least hw hstrays.least).2, Numbering.set_slot, if_pos ⟨rfl, rfl⟩]

theorem ended_duplicate_strays {t : TaskId} {h : Handle} {f : FileId}
    (hc : w.contextOf t h.isKernel = c) (hf : (fileOf t h w).result = .ok f) :
    (duplicate t h).ended w = (.error .badHandle, w.reserving c) := by
  rw [ended_duplicate hf, hc]
  refine ended_withReserved_strays hw hstrays ?_ rfl
  have hbindable : (bindable c (.ofSlot i (w.numbering.kernel c)) (w.reserving c)).result =
      .error .badHandle := by
    rw [result_bindable, fillable_strays hw hstrays rfl]
  rw [ended_bind, bindHandle, ended_query_bind_error hbindable]

/-- A copy fails, and all that is left of it is the reservation. -/
theorem run_duplicate_strays {t : TaskId} {h : Handle} {f : FileId}
    (hc : w.contextOf t h.isKernel = c) (hf : (fileOf t h w).result = .ok f) :
    (((Operation.duplicate t h).act w).result = .error .badHandle) ∧
      (Operation.duplicate t h).run w = w.reserving c := by
  have hended := ended_duplicate_strays hw hstrays hc hf
  have honly : ((Operation.duplicate t h).act).ended w = (.error .badHandle, w.reserving c) := by
    show (duplicate t h).only.ended w = _
    rw [Action.only, ended_bind, hended]
  rw [Operation.run_eq_after]
  exact Prod.mk.inj honly

/-- Whatever an open does, nothing is bound in the end, and the number is gone. -/
theorem openInto_strands {opening : Act OpenFile} (hspares : opening.Does Sparing True) :
    (openInto c opening).Strands c i w := by
  obtain ⟨hsame, -, -, -⟩ := opening_keeps (c := c) hw hspares
  have hfillable := fillable_strays hw hstrays hsame
  obtain ⟨e, hfails⟩ : ∃ e,
      (opening >>= commitFile c (.ofSlot i (w.numbering.kernel c))).ended (w.reserving c) =
        (.error e, (opening (w.reserving c)).world) := by
    rw [ended_bind]
    -- Either the opening fails, or what it opened cannot be bound.
    rcases hopening : opening.ended (w.reserving c) with ⟨e | file, w'⟩ <;>
      obtain ⟨-, rfl⟩ := Prod.mk.inj hopening
    · exact ⟨e, rfl⟩
    · rcases ended_commitFile c (.ofSlot i (w.numbering.kernel c)) file
          (opening (w.reserving c)).world with ⟨e, -, hcommit⟩ | ⟨hok, -⟩
      · exact ⟨e, hcommit⟩
      · cases hfillable.symm.trans hok
  exact .of_ended (ended_withReserved_strays hw hstrays hfails hsame)
    (hsame.trans (allocateHandle_least hw hstrays.least).2)

end

/-- **A number that strays is lost.** No call succeeds that opens or copies a file under it, and the
number stays reserved with nothing to show for it. -/
theorem TableCall.strands {w : World} {c : ContextId} {i : Nat} (hw : w.Orderly)
    (hstrays : w.Strays c i) {call : TableCall} (hgiver : w.numbering.giver call = some c)
    (hasks : w.numbering.Asks call) (hcall : call ≠ .allocate c) : call.act.Strands c i w := by
  cases call with
  | allocate c' =>
    cases hgiver
    exact absurd rfl hcall
  | openPath t base path flags mode =>
    cases hgiver
    exact ((openInto_strands hw hstrays
      (pathOpening_spares standard_discreet t base path flags mode)).congr
        (ended_openPath t base path flags mode)).map _
  | openHeld t n flags =>
    cases hgiver
    exact ((openInto_strands hw hstrays (openFound_spares standard_discreet n flags)).congr
      (ended_openHeld t n flags)).map _
  | duplicate t h =>
    cases hgiver
    obtain ⟨f, hf⟩ := hasks
    rw [← result_fileOf] at hf
    exact (Action.Strands.of_ended (ended_duplicate_strays hw hstrays rfl hf)
      (allocateHandle_least hw hstrays.least).2).map _
  | reopen t h =>
    cases hgiver
    obtain ⟨f, hf⟩ := hasks
    rw [← result_fileOf] at hf
    have hfile : (openFileOf t h w).result = .ok (w.file f) :=
      Query.result_bind_eq_ok.2 ⟨f, hf, rfl⟩
    exact ((openInto_strands hw hstrays (reopening_spares (w.file f))).congr
      (ended_reopen hfile)).map _
  | duplicateTo | close | closeAll | bind | free | install | lookup => cases hgiver

/-! ## Tables that copies crowd -/

namespace Numbering

variable {n : Numbering} {c : ContextId} {t : TaskId} {h : Handle} {f : FileId} {count : Nat}

theorem crowd_one (hslot : n.slot c 0 = .taken f) : n.crowd c (.taken f) 1 = n := by
  rw [← set_crowd, crowd_zero, ← hslot, set_self]

/-- A handle for one of the first slots stands for the file that has taken them. -/
theorem fileOf_crowd (hc : n.contextOf t h.isKernel = c) (hkernel : h.isKernel = n.kernel c)
    (hslot : h.slot < count) : (n.crowd c (.taken f) count).fileOf h t = .ok f := by
  have hfind : (n.crowd c (.taken f) count).find c h = some f := by
    have hown : h.isKernel = (n.crowd c (.taken f) count).kernel c := hkernel
    rw [find, if_pos hown, crowd_slot hslot]
    rfl
  have hcrowded : (n.crowd c (.taken f) count).contextOf t h.isKernel = c := hc
  rw [fileOf, hcrowded, found, hfind]

end Numbering

section

variable {w : World} {c : ContextId} {t : TaskId} {h : Handle} {f : FileId} {count : Nat}

/-- The world once a handle has been copied so many times. -/
def World.duplicated (w : World) (t : TaskId) (h : Handle) (count : Nat) : World :=
  (Operation.duplicate t h).run^[count] w

theorem World.duplicated_succ :
    w.duplicated t h (count + 1) = (Operation.duplicate t h).run (w.duplicated t h count) :=
  Function.iterate_succ_apply' _ _ _

/-- A copy is bound to the least slot that is free. -/
theorem duplicate_least {i : Nat} (hw : w.Orderly) (hf : w.numbering.fileOf h t = .ok f)
    (hleast : w.numbering.least (w.numbering.contextOf t h.isKernel) = some i)
    (hi : i < Handle.slotLimit) : ((Operation.duplicate t h).run w).numbering =
      w.numbering.set (w.numbering.contextOf t h.isKernel) i (.taken f) := by
  have hreach : w.numbering.InReach (w.numbering.contextOf t h.isKernel) := by
    intro j hj
    rw [hleast] at hj
    exact Option.some.inj hj ▸ hi
  have hcopied := (duplicate_renders hw t h hreach).numbering
  rw [hf] at hcopied
  refine hcopied.trans ?_
  show w.numbering.after (w.numbering.give _ (.taken f)) = _
  rw [Numbering.give_least hleast]
  rfl

/-- Copies of the one file that is open take the slots of its table one after the other. -/
theorem World.Reachable.duplicated (hw : w.Reachable) (hf : (fileOf t h w).result = .ok f)
    (hc : w.contextOf t h.isKernel = c) (hslot : h.slot = 0)
    (hfree : ∀ i, i ≠ 0 → w.numbering.slot c i = .free) (hlimit : count < w.numbering.limit c)
    (hcount : count < Handle.slotLimit) : (w.duplicated t h count).Reachable ∧
      (w.duplicated t h count).numbering = w.numbering.crowd c (.taken f) (count + 1) := by
  subst hc
  rw [result_fileOf] at hf
  have hkernel := Numbering.isKernel_of_fileOf hf
  -- The slots so far are taken, so the handle still stands for the file, and the next slot is free.
  induction count with
  | zero =>
    have htaken := Numbering.slot_of_found hf
    rw [hslot] at htaken
    exact ⟨hw, (Numbering.crowd_one htaken).symm⟩
  | succ count ih =>
    obtain ⟨hcopied, hcrowded⟩ := ih (Nat.lt_of_succ_lt hcount) (Nat.lt_of_succ_lt hlimit)
    have hc : (w.duplicated t h count).numbering.contextOf t h.isKernel =
        w.contextOf t h.isKernel := by
      rw [hcrowded]
      rfl
    have hfound : (w.duplicated t h count).numbering.fileOf h t = .ok f := by
      rw [hcrowded]
      exact Numbering.fileOf_crowd rfl hkernel (hslot ▸ Nat.succ_pos count)
    have hleast : (w.duplicated t h count).numbering.least
        ((w.duplicated t h count).numbering.contextOf t h.isKernel) = some (count + 1) := by
      rw [hc, hcrowded]
      exact Numbering.least_crowd nofun (hfree _ (Nat.succ_ne_zero count)) hlimit
    rw [duplicated_succ]
    refine ⟨hcopied.steps (.single ⟨_, rfl⟩), ?_⟩
    rw [duplicate_least hcopied.kept.orderly hfound hleast hcount, hc, hcrowded,
      Numbering.set_crowd]

/-- Where the table of a task has a slot too many, copies lead to a number that strays. -/
theorem World.Reachable.strays_duplicated (hw : w.Reachable) (hf : (fileOf t h w).result = .ok f)
    (hc : w.contextOf t h.isKernel = c) (hslot : h.slot = 0)
    (hfree : ∀ i, i ≠ 0 → w.numbering.slot c i = .free)
    (hlimit : Handle.slotLimit < w.numbering.limit c) (hkernel : w.numbering.kernel c = false)
    (hcount : count + 1 = Handle.slotLimit) : (w.duplicated t h count).Reachable ∧
      (w.duplicated t h count).contextOf t h.isKernel = c ∧
      (fileOf t h (w.duplicated t h count)).result = .ok f ∧
      (w.duplicated t h count).Strays c Handle.slotLimit := by
  have hbelow : count < Handle.slotLimit := hcount ▸ Nat.lt_succ_self count
  obtain ⟨hreach, hcrowded⟩ := hw.duplicated hf hc hslot hfree (Nat.lt_trans hbelow hlimit) hbelow
  rw [result_fileOf] at hf
  have hown := Numbering.isKernel_of_fileOf hf
  have hcontext : (w.duplicated t h count).numbering.contextOf t h.isKernel = c := by
    rw [hcrowded]
    exact hc
  have hplain : (w.duplicated t h count).numbering.kernel c = false := by
    rw [hcrowded]
    exact hkernel
  refine ⟨hreach, hcontext, ?_, ?_, ?_⟩
  · rw [result_fileOf, hcrowded]
    exact Numbering.fileOf_crowd hc (hc ▸ hown) (hslot ▸ Nat.succ_pos count)
  · rw [hcrowded, ← hcount]
    exact Numbering.least_crowd nofun (hfree _ (Nat.succ_ne_zero count)) (hcount ▸ hlimit)
  · rw [hplain]
    decide

end

/-- An instance with one slot too many, and a task with a context of its own that has opened the
root directory. -/
def World.roomy : World :=
  Operation.runAll [.addContext false, .addTask 1, .openPath 0 none "/" ⟨0⟩ 0]
    (fresh { handles := Handle.slotLimit + 1 })

theorem World.files_roomy :
    (World.roomy.context 1).files = { limit := Handle.slotLimit + 1, slots := [.taken 0] } := by
  decide +kernel

/-- Once copies have taken all slots that leave the upper two bits alone, one more copy fails and
leaves its number reserved. -/
theorem failed_duplicate_strands_number :
    let full := World.roomy.duplicated 0 ⟨0⟩ 0x3fffffff
    let again := Operation.duplicate 0 ⟨0⟩
    full.Reachable ∧ ¬again.Publishes ∧ (again.act full).result = .error .badHandle ∧
      full.numbering.slot 1 Handle.slotLimit = .free ∧
      (again.run full).numbering.slot 1 Handle.slotLimit = .reserved ∧ again.run full ≠ full := by
  have hreach : World.roomy.Reachable := ⟨_, World.steps_runAll _ _⟩
  have hfile : (fileOf 0 ⟨0⟩ World.roomy).result = .ok 0 := by decide +kernel
  have hcontext : World.roomy.contextOf 0 (Handle.mk 0).isKernel = 1 := by decide +kernel
  have hfree : ∀ i, i ≠ 0 → World.roomy.numbering.slot 1 i = .free := by
    intro i hi
    obtain ⟨j, rfl⟩ := Nat.exists_eq_succ_of_ne_zero hi
    rw [World.numbering_slot, World.files_roomy]
    rfl
  have hcount : 0x3fffffff + 1 = Handle.slotLimit := rfl
  have hfull := hreach.strays_duplicated hfile hcontext (by decide) hfree (by decide +kernel)
    (by decide +kernel) hcount
  -- A table with that many slots is never to be looked at slot by slot.
  generalize World.roomy.duplicated 0 ⟨0⟩ 0x3fffffff = full at hfull ⊢
  obtain ⟨hreach, hcontext, hfile, hstrays⟩ := hfull
  have horderly := hreach.kept.orderly
  obtain ⟨hresult, hrun⟩ := run_duplicate_strays horderly hstrays hcontext hfile
  obtain ⟨hfree, hreserved⟩ := slot_reserving_strays horderly hstrays
  rw [← hrun] at hreserved
  refine ⟨hreach, id, hresult, hfree, hreserved, fun hsame => ?_⟩
  rw [hsame, hfree] at hreserved
  cases hreserved

end VirtualFs
