/-
The order of names. Names are kept in the order of their code points, and that is
the order of their encoded bytes: of two characters the larger one starts with a
larger byte, or with the same one and goes on with larger ones, and no encoding
is the beginning of another.
-/
import VirtualFs.Proofs.ByteStrings

namespace VirtualFs

/-- The bytes a name is written with. -/
def nameBytes (name : String) : List UInt8 := Bytes.list name.toUTF8

theorem nameBytes_eq_flatMap (name : String) :
    nameBytes name = name.toList.flatMap String.utf8EncodeChar := by
  conv => lhs; rw [nameBytes, ← String.ofList_toList (s := name)]
  show Bytes.list (String.ofList name.toList).toByteArray = _
  rw [String.toByteArray_ofList, Bytes.list, List.utf8Encode, List.data_toByteArray]

/-- The encodings of two characters differ in a byte, and there they are in the order of the
characters. -/
theorem utf8EncodeChar_append_lt {c d : Char} (h : c < d) (u v : List UInt8) :
    String.utf8EncodeChar c ++ u < String.utf8EncodeChar d ++ v := by
  have hlt : c.val.toNat < d.val.toNat := h
  have hmax : d.val.toNat < 0x110000 := by
    rcases d.valid with hd | hd <;> omega
  unfold String.utf8EncodeChar
  generalize c.val.toNat = m at hlt ⊢
  generalize d.val.toNat = n at hlt hmax ⊢
  dsimp only
  by_cases hwide : 65535 < m
  · -- Both take four bytes, and the first digit in which they differ decides.
    rw [if_neg (by omega), if_neg (by omega), if_neg (by omega), if_neg (by omega),
      if_neg (by omega), if_neg (by omega)]
    simp only [List.cons_append, List.nil_append, List.cons_lt_cons_iff, UInt8.lt_iff_toNat_lt,
      ← UInt8.toNat_inj, UInt8.toNat_ofNat']
    by_cases hfirst : m / 262144 < n / 262144
    · exact .inl (by omega)
    by_cases hsecond : m / 4096 < n / 4096
    · exact .inr ⟨by omega, .inl (by omega)⟩
    by_cases hthird : m / 64 < n / 64
    · exact .inr ⟨by omega, .inr ⟨by omega, .inl (by omega)⟩⟩
    · exact .inr ⟨by omega, .inr ⟨by omega, .inr ⟨by omega, .inl (by omega)⟩⟩⟩
  · split_ifs <;>
    simp only [List.cons_append, List.nil_append, List.cons_lt_cons_iff, UInt8.lt_iff_toNat_lt,
      ← UInt8.toNat_inj, UInt8.toNat_ofNat'] <;> omega

/-- What is encoded keeps the order of the characters. -/
theorem flatMap_utf8EncodeChar_lt {a b : List Char} (h : a < b) :
    a.flatMap String.utf8EncodeChar < b.flatMap String.utf8EncodeChar := by
  induction a generalizing b with
  | nil =>
    cases b with
    | nil => exact absurd h (List.not_lt_nil _)
    | cons d b =>
      obtain ⟨byte, rest, hbytes⟩ :=
        List.exists_cons_of_ne_nil (String.utf8EncodeChar_ne_nil (c := d))
      rw [List.flatMap_cons, hbytes]
      exact List.nil_lt_cons _ _
  | cons c a ih =>
    cases b with
    | nil => exact absurd h (List.not_lt_nil _)
    | cons d b =>
      rw [List.flatMap_cons, List.flatMap_cons]
      rcases List.cons_lt_cons_iff.1 h with hlt | ⟨rfl, hrest⟩
      · exact utf8EncodeChar_append_lt hlt _ _
      · exact List.append_left_lt (ih hrest)

theorem nameBytes_lt {a b : String} (h : a < b) : nameBytes a < nameBytes b := by
  rw [nameBytes_eq_flatMap, nameBytes_eq_flatMap]
  exact flatMap_utf8EncodeChar_lt (String.lt_iff.1 h)

/-- **Names are in the order of their bytes.** -/
theorem nameBytes_lt_iff {a b : String} : nameBytes a < nameBytes b ↔ a < b := by
  refine ⟨fun h => ?_, nameBytes_lt⟩
  by_contra hnot
  by_cases hba : b < a
  · exact List.lt_asymm h (nameBytes_lt hba)
  · obtain rfl := String.le_antisymm (String.not_lt.1 hba) (String.not_lt.1 hnot)
    exact List.lt_irrefl _ h

end VirtualFs
