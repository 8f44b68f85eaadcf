/-
Masks on 32-bit words: a mask passes through "or", and two masks in a row
are one.
-/

namespace VirtualFs.Word

theorem or_and (a b c : UInt32) : (a ||| b) &&& c = (a &&& c) ||| (b &&& c) := by
  rw [← UInt32.toBitVec_inj]
  simp [BitVec.and_or_distrib_right]

theorem and_and (a b c : UInt32) : (a &&& b) &&& c = a &&& (b &&& c) := UInt32.and_assoc a b c

end VirtualFs.Word
