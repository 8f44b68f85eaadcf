/-
What handle numbers select. The number of a slot is the slot cut to 32 bits,
with one more bit set in the kernel's table, and nothing bounds how many slots a
table may have. So numbers select the slots they were made for exactly as long
as these leave the upper two bits alone (`numbers_select_iff`). An instance whose
limit allows for more comes to a world in which a number of a task's own table
selects the kernel's, and two slots of the kernel's table have one number.
-/
import VirtualFs.Proofs.ContextCalls

namespace VirtualFs

open VirtualFs.Action (result_bind_eq_ok result_map_eq_ok)

/-- A number that may be passed around and selects a slot, of the kernel's table or of another. -/
structure Handle.Selects (h : Handle) (kernel : Bool) (slot : Nat) : Prop where
  nonneg : 0 ≤ h.raw
  isKernel : h.isKernel = kernel
  slot : h.slot = slot

namespace Handle

theorem selects_ofSlot {slot : Nat} (hslot : slot < slotLimit) (kernel : Bool) :
    (ofSlot slot kernel).Selects kernel slot :=
  ⟨nonneg_ofSlot hslot kernel, isKernel_ofSlot hslot kernel, slot_ofSlot hslot kernel⟩

theorem Selects.lt {h : Handle} {kernel : Bool} {slot : Nat} (hselects : h.Selects kernel slot) :
    slot < slotLimit := by
  have hlt := slot_lt_of_nonneg hselects.nonneg
  rwa [hselects.slot] at hlt

end Handle

/-! ## Numbers that are given out -/

section

variable {w : World} {c : ContextId} {h : Handle} {i : Nat}

/-- Succeeds only with the number that the context would give out, and leaves a file under it. -/
def Action.TakesNumber (x : Act Handle) (c : ContextId) (w : World) : Prop :=
  ∀ h, (x w).result = .ok h → (allocateHandle c w).result = .ok h ∧
    ∃ f, (lookupHandle c h (x w).world).result = .ok f

theorem Action.TakesNumber.congr {x y : Act Handle} (hy : y.TakesNumber c w)
    (hended : x.ended w = y.ended w) : x.TakesNumber c w := by
  obtain ⟨hresult, hworld⟩ := Prod.mk.inj hended
  intro h hok
  rw [hresult] at hok
  rw [hworld]
  exact hy h hok

theorem Action.TakesNumber.of_error {x : Act Handle} {e : Error} {w' : World}
    (hended : x.ended w = (.error e, w')) : x.TakesNumber c w := by
  intro h hok
  cases (Prod.mk.inj hended).1.symm.trans hok

/-- What is answered to a call that takes a number is the number. -/
theorem Action.TakesNumber.reply {x : Act Handle} (hx : x.TakesNumber c w) {r : Reply}
    (hok : ((Reply.handle <$> x) w).result = .ok r) :
    ∃ h, r = .handle h ∧ (allocateHandle c w).result = .ok h ∧
      ∃ f, (lookupHandle c h ((Reply.handle <$> x) w).world).result = .ok f := by
  obtain ⟨h, hgiven, rfl⟩ := result_map_eq_ok.1 hok
  obtain ⟨hallocated, hfound⟩ := hx h hgiven
  have hworld : ((Reply.handle <$> x) w).world = (x w).world := x.after_map Reply.handle w
  rw [hworld]
  exact ⟨h, rfl, hallocated, hfound⟩

/-- Nothing can be bound to a number of another table. -/
theorem bindHandle_wrongTable (hkernel : ¬h.isKernel = w.numbering.kernel c) (f : FileId) :
    (bindHandle c h f w).result = .error .badHandle := by
  have hbindable : (bindable c h w).result = .error .badHandle := by
    rw [result_bindable, Numbering.fillable, if_neg fun hboth => hkernel hboth.1]
  rw [bindHandle, Action.liftM_bind_error hbindable]

/-- Work on a reserved number that answers with the number has it from the table. -/
theorem withReserved_allocated {work : Handle → Act Handle}
    (hwork : ∀ h w' copy, (work h w').result = .ok copy → copy = h)
    (hok : (withReserved c work w).result = .ok h) : (allocateHandle c w).result = .ok h := by
  rcases hallocate : (allocateHandle c).ended w with ⟨e | reserved, w₁⟩
  · have hended := ended_withReserved_error work hallocate
    cases (Prod.mk.inj hended).1.symm.trans hok
  · have hended := ended_withReserved work hallocate
    rcases hrun : (work reserved).ended w₁ with ⟨e | copy, w₂⟩ <;> rw [hrun] at hended
    · cases (Prod.mk.inj hended).1.symm.trans hok
    · obtain rfl : copy = h := Except.ok.inj ((Prod.mk.inj hended).1.symm.trans hok)
      rw [hwork reserved w₁ copy (Prod.mk.inj hrun).1]
      exact (Prod.mk.inj hallocate).1

theorem openInto_takes (hw : w.Orderly) {opening : Act OpenFile}
    (hspares : opening.Does World.Sparing True) : (openInto c opening).TakesNumber c w := by
  intro h hok
  obtain ⟨file, hbinds⟩ := openInto_binds hw hspares hok
  refine ⟨withReserved_allocated (fun h w' copy hcopy => ?_) hok, _, hbinds.found⟩
  obtain ⟨file, -, hcommit⟩ := result_bind_eq_ok.1 hcopy
  rw [result_commitFile] at hcommit
  cases hfillable : (opening w').world.numbering.fillable c h with
  | error e =>
    rw [hfillable] at hcommit
    cases hcommit
  | ok =>
    rw [hfillable] at hcommit
    exact (Except.ok.inj hcommit).symm

theorem duplicate_takes (hw : w.Orderly) (t : TaskId) (h : Handle) :
    (duplicate t h).TakesNumber (w.contextOf t h.isKernel) w := by
  cases hf : (fileOf t h w).result with
  | error e => exact .of_error (ended_duplicate_error hf)
  | ok f =>
    refine .congr (fun copy hok => ⟨?_, f, ?_⟩) (ended_duplicate hf)
    · refine withReserved_allocated (fun h w' copy hcopy => ?_) hok
      obtain ⟨_, -, hcopy⟩ := result_bind_eq_ok.1 hcopy
      exact (Except.ok.inj hcopy).symm
    · have hopen := hw.has_of_found ((result_fileOf t h).symm.trans hf)
      obtain ⟨-, -, hfound⟩ := withReserved_fileOf hw hopen hok
      rw [result_lookupHandle]
      exact hfound

theorem reopen_takes (hw : w.Orderly) (t : TaskId) (h : Handle) :
    (reopen t h).TakesNumber (w.contextOf t h.isKernel) w := by
  cases hfile : (openFileOf t h w).result with
  | error e => exact .of_error (ended_reopen_error hfile)
  | ok file => exact (openInto_takes hw (reopening_spares file)).congr (ended_reopen hfile)

/-- What a call gives out is what the context would give out first, and what opens or copies a file
leaves it under the number. -/
theorem TableCall.gives (hw : w.Orderly) {call : TableCall} {r : Reply}
    (hgiver : w.numbering.giver call = some c) (hok : (call.act w).result = .ok r) :
    ∃ h, r = .handle h ∧ (allocateHandle c w).result = .ok h ∧
      (call ≠ .allocate c → ∃ f, (lookupHandle c h (call.act w).world).result = .ok f) := by
  cases call with
  | allocate c' =>
    cases hgiver
    obtain ⟨h, hallocated, rfl⟩ := result_map_eq_ok.1 hok
    exact ⟨h, rfl, hallocated, fun hne => absurd rfl hne⟩
  | openPath t base path flags mode =>
    cases hgiver
    have htakes := (openInto_takes hw
      (pathOpening_spares standard_discreet t base path flags mode)).congr
        (ended_openPath t base path flags mode)
    obtain ⟨h, hr, hallocated, hfound⟩ := htakes.reply hok
    exact ⟨h, hr, hallocated, fun _ => hfound⟩
  | openHeld t n flags =>
    cases hgiver
    have htakes := (openInto_takes hw (openFound_spares standard_discreet n flags)).congr
      (ended_openHeld t n flags)
    obtain ⟨h, hr, hallocated, hfound⟩ := htakes.reply hok
    exact ⟨h, hr, hallocated, fun _ => hfound⟩
  | duplicate t source =>
    cases hgiver
    obtain ⟨h, hr, hallocated, hfound⟩ := (duplicate_takes hw t source).reply hok
    exact ⟨h, hr, hallocated, fun _ => hfound⟩
  | reopen t source =>
    cases hgiver
    obtain ⟨h, hr, hallocated, hfound⟩ := (reopen_takes hw t source).reply hok
    exact ⟨h, hr, hallocated, fun _ => hfound⟩
  | duplicateTo | close | closeAll | bind | free | install | lookup => cases hgiver

end

/-! ## Slots below a limit -/

/-- As far as slots below a limit go, handle numbers select their own table and slot. -/
structure World.SelectsBelow (limit : Nat) (w : World) : Prop where
  /-- A call gives out a number for the least slot that is free, and the number selects it. -/
  given : ∀ call c r, w.numbering.giver call = some c → (call.act w).result = .ok r →
    ∃ h i, r = .handle h ∧ w.numbering.least c = some i ∧
      (i < limit → h.Selects (w.numbering.kernel c) i)
  /-- If it is only allocated, the slot is reserved. -/
  reserved : ∀ c i, w.numbering.least c = some i →
    (allocateHandle c w).world.numbering = w.numbering.set c i .reserved
  /-- What opens or copies a file leaves it under the number. -/
  opened : ∀ call c h, w.numbering.giver call = some c → call ≠ .allocate c →
    (call.act w).result = .ok (.handle h) →
      ∃ f, (lookupHandle c h (call.act w).world).result = .ok f
  /-- While a slot is reserved, an open file can be bound to its number and is found under it
  then. -/
  binds : ∀ c i f, i < limit → w.numbering.slot c i = .reserved → w.files.has f = true →
    let h := Handle.ofSlot i (w.numbering.kernel c)
    (bindHandle c h f w).result = .ok () ∧
      (lookupHandle c h (bindHandle c h f w).world).result = .ok f
  /-- Slots in use have numbers of their own in their table, and the kernel's table has numbers of
  its own. -/
  distinct : ∀ c c' i i', i < limit → i' < limit → w.numbering.slot c i ≠ .free →
    w.numbering.slot c' i' ≠ .free →
      Handle.ofSlot i (w.numbering.kernel c) = Handle.ofSlot i' (w.numbering.kernel c') →
        i = i' ∧ w.numbering.kernel c = w.numbering.kernel c'

namespace World

variable {w : World} {c : ContextId} {i limit limit' : Nat} {f : FileId}

/-- A slot that is reserved can be bound under a number that selects it. -/
theorem Orderly.bindHandle_selects (hw : w.Orderly) {h : Handle}
    (hselects : h.Selects (w.numbering.kernel c) i) (hreserved : w.numbering.slot c i = .reserved)
    (hf : w.files.has f = true) : (bindHandle c h f w).result = .ok () ∧
      (lookupHandle c h (bindHandle c h f w).world).result = .ok f := by
  rw [← hselects.slot] at hreserved
  have hfillable := Numbering.fillable_eq_ok.2 ⟨hselects.isKernel, hreserved⟩
  have hbind := bindHandle_renders hw c h hf
  rw [Numbering.fill, hfillable] at hbind
  refine ⟨hbind.result, ?_⟩
  rw [result_lookupHandle, hbind.numbering]
  exact Numbering.found_set hselects.isKernel f

/-- Whatever the limits of an instance, below the upper two bits all is well. -/
theorem Orderly.selectsBelow (hw : w.Orderly) : w.SelectsBelow Handle.slotLimit where
  given call c r hgiver hok := by
    obtain ⟨h, rfl, hallocated, -⟩ := call.gives hw hgiver hok
    obtain ⟨i, hleast, rfl, -⟩ := allocateHandle_eq_ok hw hallocated
    exact ⟨_, i, rfl, hleast, fun hi => Handle.selects_ofSlot hi _⟩
  reserved c i hleast := (allocateHandle_least hw hleast).2
  opened call c h hgiver hcall hok := by
    obtain ⟨h', heq, -, hfound⟩ := call.gives hw hgiver hok
    cases heq
    exact hfound hcall
  binds c i f hi hreserved hf :=
    hw.bindHandle_selects (Handle.selects_ofSlot hi _) hreserved hf
  distinct c c' i i' hi hi' _ _ heq := by
    have hselects := Handle.selects_ofSlot hi (w.numbering.kernel c)
    have hselects' := Handle.selects_ofSlot hi' (w.numbering.kernel c')
    rw [← heq] at hselects'
    exact ⟨hselects.slot.symm.trans hselects'.slot,
      hselects.isKernel.symm.trans hselects'.isKernel⟩

theorem Orderly.lt_of_used (hw : w.Orderly) (hused : w.numbering.slot c i ≠ .free) :
    i < w.numbering.limit c :=
  (hw.neat_context c).lt_of_slotAt hused

/-- Slots that a table does not have make no difference. -/
theorem SelectsBelow.mono (h : w.SelectsBelow limit) (hw : w.Orderly)
    (hlimit : ∀ c i, i < limit' → i < w.numbering.limit c → i < limit) :
    w.SelectsBelow limit' where
  given call c r hgiver hok := by
    obtain ⟨h', i, hr, hleast, hselects⟩ := h.given call c r hgiver hok
    exact ⟨h', i, hr, hleast, fun hi =>
      hselects (hlimit c i hi (Numbering.least_eq_some_iff.1 hleast).1)⟩
  reserved := h.reserved
  opened := h.opened
  binds c i f hi hreserved hf := by
    have hused : w.numbering.slot c i ≠ .free := by
      rw [hreserved]
      nofun
    exact h.binds c i f (hlimit c i hi (hw.lt_of_used hused)) hreserved hf
  distinct c c' i i' hi hi' hused hused' :=
    h.distinct c c' i i' (hlimit c i hi (hw.lt_of_used hused))
      (hlimit c' i' hi' (hw.lt_of_used hused')) hused hused'

/-- What selects its slot is given out while the slots leave the upper bits alone. -/
theorem SelectsBelow.lt_of_least (h : w.SelectsBelow limit) (hw : w.Orderly)
    (hleast : w.numbering.least c = some i) (hi : i < limit) : i < Handle.slotLimit := by
  have hallocated := (allocateHandle_least hw hleast).1
  obtain ⟨h, i', -, hleast', hselects⟩ := h.given (.allocate c) c _ rfl
    (result_map_eq_ok.2 ⟨_, hallocated, rfl⟩)
  obtain rfl := Option.some.inj (hleast.symm.trans hleast')
  exact (hselects hi).lt

end World

/-! ## Crowded tables -/

namespace Numbering

variable {n : Numbering} {c : ContextId} {s : Slot FileId} {count : Nat}

/-- The numbering once the first so many slots of a context have come into one state. -/
def crowd (n : Numbering) (c : ContextId) (s : Slot FileId) (count : Nat) : Numbering :=
  { n with slot := fun c' i => if c' = c ∧ i < count then s else n.slot c' i }

theorem crowd_zero : n.crowd c s 0 = n := by
  refine Numbering.ext rfl rfl rfl (funext fun c' => funext fun i => ?_) rfl
  exact if_neg fun h => absurd h.2 (Nat.not_lt_zero i)

theorem set_crowd : (n.crowd c s count).set c count s = n.crowd c s (count + 1) := by
  refine Numbering.ext rfl rfl rfl (funext fun c' => funext fun i => ?_) rfl
  rw [set_slot, crowd, crowd]
  by_cases hc : c' = c
  · obtain hlt | rfl | hgt := Nat.lt_trichotomy i count
    · simp [hc, hlt, Nat.lt_succ_of_lt hlt]
    · simp [hc]
    · have hnot : ¬i < count + 1 := by omega
      simp [hc, Nat.ne_of_gt hgt, Nat.not_lt.2 (Nat.le_of_lt hgt), hnot]
  · simp [hc]

theorem crowd_slot {i : Nat} (hi : i < count) : (n.crowd c s count).slot c i = s :=
  if_pos ⟨rfl, hi⟩

theorem least_crowd (hused : s ≠ .free) (hfree : n.slot c count = .free)
    (hcount : count < n.limit c) : (n.crowd c s count).least c = some count := by
  refine least_eq_some_iff.2 ⟨hcount, ?_, fun i hi => ?_⟩
  · rw [crowd]
    simp [hfree]
  · rwa [crowd_slot hi]

end Numbering

namespace World

variable {limits : Limits} {w : World} {c : ContextId} {count : Nat}

/-- The world once a context has given out so many numbers. -/
def crowd (w : World) (c : ContextId) (count : Nat) : World := (World.reserving · c)^[count] w

theorem crowd_succ : w.crowd c (count + 1) = (w.crowd c count).reserving c :=
  Function.iterate_succ_apply' _ _ _

/-- A table of which nothing is in use gives out its numbers from the first on. -/
theorem Attained.crowd (hw : w.Attained limits) (hfree : ∀ i, w.numbering.slot c i = .free)
    (hcount : count ≤ w.numbering.limit c) :
    (w.crowd c count).Attained limits ∧
      (w.crowd c count).numbering = w.numbering.crowd c .reserved count := by
  induction count with
  | zero => exact ⟨hw, Numbering.crowd_zero.symm⟩
  | succ count ih =>
    obtain ⟨hcrowded, hnumbering⟩ := ih (Nat.le_of_succ_le hcount)
    have hleast : (w.crowd c count).numbering.least c = some count := by
      rw [hnumbering]
      exact Numbering.least_crowd nofun (hfree count) hcount
    rw [crowd_succ, (allocateHandle_least hcrowded.orderly hleast).2, hnumbering,
      Numbering.set_crowd]
    exact ⟨hcrowded.reserving c, rfl⟩

theorem Attained.least_crowd (hw : w.Attained limits) (hfree : ∀ i, w.numbering.slot c i = .free)
    (hcount : count < w.numbering.limit c) :
    (w.crowd c count).numbering.least c = some count := by
  rw [(hw.crowd hfree (Nat.le_of_lt hcount)).2]
  exact Numbering.least_crowd nofun (hfree count) hcount

end World

/-- **How far numbers reach.** Handle numbers select their own table and slot below some limit, in
every world an instance may come to, exactly if no slot that is below the limit and in a table needs
the upper two bits. So they always do if the instance allows for no more slots than that. -/
theorem numbers_select_iff (limits : Limits) (limit : Nat) :
    (∀ w : World, w.Attained limits → w.SelectsBelow limit) ↔
      limit ≤ Handle.slotLimit ∨ limits.handles ≤ Handle.slotLimit := by
  constructor
  · intro hselects
    by_contra hlarge
    rw [not_or, Nat.not_le, Nat.not_le] at hlarge
    obtain ⟨hlimit, hhandles⟩ := hlarge
    -- The kernel's table, with all slots reserved that leave the upper bits alone.
    have hfresh : (World.fresh limits).Attained limits := .fresh
    have hfree : ∀ i, (World.fresh limits).numbering.slot 0 i = .free := fun _ => rfl
    have hcrowded := (hfresh.crowd hfree (Nat.le_of_lt hhandles)).1
    have hleast := hfresh.least_crowd hfree hhandles
    exact absurd ((hselects _ hcrowded).lt_of_least hcrowded.orderly hleast hlimit)
      (Nat.lt_irrefl _)
  · intro hsmall w hw
    refine hw.orderly.selectsBelow.mono hw.orderly fun c i hi htable => ?_
    have hhandles := hw.limit_le c
    omega

/-- An instance whose tables may have one slot more than that, with a context besides the
kernel's. -/
def World.oversized : World :=
  (Operation.addContext false).run (fresh { handles := Handle.slotLimit + 1 })

/-- Once all other slots are reserved, the last number of a task's own table is the first of the
kernel's: it cannot be bound where it was given out. In the kernel's table the first slot and the
last have one number, and giving it back for the last frees the first. -/
theorem last_number_selects_first_kernel_slot :
    let tasks := World.oversized.crowd 1 Handle.slotLimit
    let kernels := World.oversized.crowd 0 (Handle.slotLimit + 1)
    (tasks.Attained { handles := Handle.slotLimit + 1 } ∧
      tasks.numbering.kernel 1 = false ∧ tasks.numbering.least 1 = some Handle.slotLimit ∧
      (allocateHandle 1 tasks).result = .ok ⟨0x40000000⟩ ∧
      (Handle.mk 0x40000000).isKernel = true ∧ (Handle.mk 0x40000000).slot = 0 ∧
      ∀ f, (bindHandle 1 ⟨0x40000000⟩ f (allocateHandle 1 tasks).world).result =
        .error .badHandle) ∧
    (kernels.Attained { handles := Handle.slotLimit + 1 } ∧
      kernels.numbering.kernel 0 = true ∧ kernels.numbering.slot 0 0 = .reserved ∧
      kernels.numbering.slot 0 Handle.slotLimit = .reserved ∧
      Handle.ofSlot 0 true = ⟨0x40000000⟩ ∧ Handle.ofSlot Handle.slotLimit true = ⟨0x40000000⟩ ∧
      (freeHandle 0 ⟨0x40000000⟩ kernels).world.numbering = kernels.numbering.set 0 0 .free) := by
  have hattained : World.oversized.Attained { handles := Handle.slotLimit + 1 } :=
    .operated _ .fresh
  have htask : ∀ i, World.oversized.numbering.slot 1 i = .free := fun _ => rfl
  have hkernel : ∀ i, World.oversized.numbering.slot 0 i = .free := fun _ => rfl
  have htasks := hattained.crowd htask (Nat.le_succ Handle.slotLimit)
  have hleast := hattained.least_crowd htask (Nat.lt_succ_self Handle.slotLimit)
  have hkernels := hattained.crowd hkernel (Nat.le_refl (Handle.slotLimit + 1))
  have hisKernel : (Handle.mk 0x40000000).isKernel = true := by decide
  have hslot : (Handle.mk 0x40000000).slot = 0 := by decide
  -- A table with that many slots is never to be looked at slot by slot.
  generalize World.oversized.crowd 1 Handle.slotLimit = tasks at htasks hleast ⊢
  generalize World.oversized.crowd 0 (Handle.slotLimit + 1) = kernels at hkernels ⊢
  obtain ⟨htasks, hnumbering⟩ := htasks
  obtain ⟨hkernels, hnumbering'⟩ := hkernels
  have htaskOwn : tasks.numbering.kernel 1 = false := by
    rw [hnumbering]
    rfl
  have hkernelOwn : kernels.numbering.kernel 0 = true := by
    rw [hnumbering']
    rfl
  obtain ⟨hallocated, hreserved⟩ := allocateHandle_least htasks.orderly hleast
  rw [World.reserving] at hreserved
  refine ⟨⟨htasks, htaskOwn, hleast, ?_, hisKernel, hslot, fun f => bindHandle_wrongTable ?_ f⟩,
    hkernels, hkernelOwn, ?_, ?_, by decide, by decide, ?_⟩
  · rw [hallocated, htaskOwn]
    rfl
  · rw [hisKernel, hreserved, Numbering.set_kernel, htaskOwn]
    exact Bool.noConfusion
  · rw [hnumbering', Numbering.crowd_slot (Nat.succ_pos _)]
  · rw [hnumbering', Numbering.crowd_slot (Nat.lt_succ_self _)]
  · have hfreed : (freeHandle 0 ⟨0x40000000⟩).Renders kernels.numbering kernels _ :=
      freeHandle_renders hkernels.orderly 0 ⟨0x40000000⟩
    rw [hfreed.numbering, Numbering.after, Numbering.release,
      if_pos (hisKernel.trans hkernelOwn.symm), hslot]

end VirtualFs
