/-
A handle that is made for a number of a table names that number and that
table, as long as the number does not reach the bit that tells the tables
apart.
-/
import VirtualFs.Handle

namespace VirtualFs.Handle

/-- The numbers below this one leave alone the bit that selects the kernel's table. -/
def slotLimit : Nat := 0x40000000

theorem getLsbD_kernelBit (i : Nat) : kernelBit.toBitVec.getLsbD i = decide (i = 30) := by
  have hbit : kernelBit.toBitVec = BitVec.twoPow 32 30 := by decide
  rw [hbit, BitVec.getLsbD_twoPow]
  by_cases hi : i = 30
  · subst hi
    rfl
  · simp [hi, Ne.symm hi]

theorem getLsbD_ofSlot (slot : Nat) (kernel : Bool) (i : Nat) :
    (ofSlot slot kernel).raw.toBitVec.getLsbD i =
      ((BitVec.ofNat 32 slot).getLsbD i || (kernel && decide (i = 30))) := by
  cases kernel with
  | false => rw [Bool.false_and, Bool.or_false]; rfl
  | true =>
    rw [Bool.true_and, ← getLsbD_kernelBit, ← BitVec.getLsbD_or]
    rfl

/-! ## Numbers that are not negative -/

section

variable {h : Handle}

theorem nonneg_iff : 0 ≤ h.raw ↔ h.raw.toBitVec.getLsbD 31 = false := by
  have hmsb : h.raw.toBitVec.getLsbD 31 = h.raw.toBitVec.msb :=
    (BitVec.msb_eq_getLsbD_last _).symm
  have hzero : (0 : Int32).toInt = 0 := rfl
  rw [hmsb, BitVec.msb_eq_toInt, decide_eq_false_iff_not, Int.not_lt, Int32.toInt_toBitVec,
    Int32.le_iff_toInt_le, hzero]

theorem getLsbD_and_not (i : Nat) : (h.raw &&& ~~~kernelBit).toBitVec.getLsbD i =
    (h.raw.toBitVec.getLsbD i && !decide (i = 30)) := by
  rw [Int32.toBitVec_and, Int32.toBitVec_not, BitVec.getLsbD_and, BitVec.getLsbD_not,
    getLsbD_kernelBit]
  by_cases hi : i < 32
  · rw [decide_eq_true hi, Bool.true_and]
  · rw [BitVec.getLsbD_of_ge _ _ (Nat.not_lt.1 hi), Bool.false_and, Bool.false_and]

/-- The slot is the number without the selecting bit. -/
theorem slot_of_nonneg (hraw : 0 ≤ h.raw) : h.slot = (h.raw &&& ~~~kernelBit).toBitVec.toNat := by
  have hmsb : (h.raw &&& ~~~kernelBit).toBitVec.msb = false := by
    rw [BitVec.msb_eq_getLsbD_last, getLsbD_and_not, nonneg_iff.1 hraw, Bool.false_and]
  have hbits : h.slot = ((h.raw &&& ~~~kernelBit).toBitVec.signExtend 64).toNat := rfl
  rw [hbits, BitVec.signExtend_eq_setWidth_of_msb_false hmsb, BitVec.toNat_setWidth]
  exact Nat.mod_eq_of_lt (Nat.lt_trans (BitVec.isLt _) (by decide))

/-- There are no more slots that it could select. -/
theorem slot_lt_of_nonneg (hraw : 0 ≤ h.raw) : h.slot < slotLimit := by
  have hlimit : slotLimit = 2 ^ 30 := rfl
  rw [slot_of_nonneg hraw, hlimit]
  refine Nat.lt_pow_two_of_testBit _ fun i hi => ?_
  rw [BitVec.testBit_toNat, getLsbD_and_not]
  obtain rfl | rfl | hout : i = 30 ∨ i = 31 ∨ 32 ≤ i := by omega
  · simp
  · rw [nonneg_iff.1 hraw, Bool.false_and]
  · rw [BitVec.getLsbD_of_ge _ _ hout, Bool.false_and]

end

/-! ## Numbers of slots -/

section

variable {slot : Nat} (h : slot < slotLimit)

include h

theorem nonneg_ofSlot (kernel : Bool) : 0 ≤ (ofSlot slot kernel).raw := by
  have hbit : slot.testBit 31 = false := Nat.testBit_lt_two_pow (Nat.lt_trans h (by decide))
  rw [nonneg_iff, getLsbD_ofSlot, BitVec.getLsbD_ofNat, hbit]
  simp

theorem getLsbD_slot : (BitVec.ofNat 32 slot).getLsbD 30 = false := by
  have hbit : slot.testBit 30 = false := Nat.testBit_lt_two_pow h
  rw [BitVec.getLsbD_ofNat, hbit, Bool.and_false]

/-- Without the selecting bit the slot is left. -/
theorem ofSlot_and_not (kernel : Bool) :
    ((ofSlot slot kernel).raw &&& ~~~kernelBit).toBitVec = BitVec.ofNat 32 slot := by
  refine BitVec.eq_of_getLsbD_eq fun i _ => ?_
  rw [getLsbD_and_not, getLsbD_ofSlot]
  by_cases heq : i = 30
  · rw [heq, getLsbD_slot h]
    simp
  · simp [heq]

theorem slot_ofSlot (kernel : Bool) : (ofSlot slot kernel).slot = slot := by
  rw [slot_of_nonneg (nonneg_ofSlot h kernel), ofSlot_and_not h, BitVec.toNat_ofNat]
  exact Nat.mod_eq_of_lt (Nat.lt_trans h (by decide))

theorem isKernel_ofSlot (kernel : Bool) : (ofSlot slot kernel).isKernel = kernel := by
  have hbit : ((ofSlot slot kernel).raw &&& kernelBit).toBitVec =
      if kernel then kernelBit.toBitVec else 0 := by
    refine BitVec.eq_of_getLsbD_eq fun i _ => ?_
    rw [Int32.toBitVec_and, BitVec.getLsbD_and, getLsbD_kernelBit, getLsbD_ofSlot]
    by_cases heq : i = 30
    · rw [heq, getLsbD_slot h]
      cases kernel <;> decide
    · cases kernel <;> simp [heq, getLsbD_kernelBit]
  have hsame : (ofSlot slot kernel).raw &&& kernelBit = if kernel then kernelBit else 0 := by
    refine Int32.toBitVec_inj.1 (hbit.trans ?_)
    cases kernel <;> rfl
  rw [isKernel, hsame]
  cases kernel <;> decide

end

end VirtualFs.Handle
