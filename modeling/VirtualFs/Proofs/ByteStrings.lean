/-
Byte strings as lists of bytes: what is done to strings is done to the lists.
-/
import VirtualFs.Proofs.Streams

namespace VirtualFs.Bytes

open Streams (window refill)

/-- The bytes of a string in their order. -/
def list (bytes : ByteArray) : List UInt8 := bytes.data.toList

@[simp] theorem length_list (bytes : ByteArray) : (list bytes).length = bytes.size := by
  simp [list]

@[simp] theorem list_empty : list .empty = [] := rfl

@[simp] theorem list_append (a b : ByteArray) : list (a ++ b) = list a ++ list b := by
  simp [list]

@[simp] theorem list_extract (bytes : ByteArray) (start stop : Nat) :
    list (bytes.extract start stop) = ((list bytes).drop start).take (stop - start) := by
  simp [list]

theorem list_eq_nil_iff {bytes : ByteArray} : list bytes = [] ↔ bytes.size = 0 := by
  rw [← List.length_eq_zero_iff, length_list]

@[simp] theorem list_fill (byte : UInt8) (n : Nat) :
    list (fill byte n) = List.replicate n byte := by
  fun_induction fill byte n with
  | case1 => rfl
  | case2 n hn half heven ih =>
    rw [list_append, ih, List.replicate_append_replicate]
    congr 1
    omega
  | case3 n hn half hodd ih =>
    have hpush : list ((half ++ half).push byte) = list (half ++ half) ++ [byte] := by simp [list]
    rw [hpush, list_append, ih, List.replicate_append_replicate, ← List.replicate_succ']
    congr 1
    omega

@[simp] theorem list_zeros (n : Nat) : list (zeros n) = List.replicate n 0 := list_fill 0 n

theorem list_extract_window (bytes : ByteArray) (position room : Nat) :
    list (bytes.extract position (position + room)) = window (list bytes) position room := by
  rw [list_extract, window, Nat.add_sub_cancel_left]

theorem list_resize (bytes : ByteArray) (size : Nat) :
    list (resize bytes size) = Streams.resize (list bytes) size := by
  simp [resize, Streams.resize]

theorem list_overwrite (bytes : ByteArray) (position : Nat) (data : ByteArray) :
    list (overwrite bytes position data) =
      Streams.overwrite (list bytes) position (list data) := by
  have htail : ((list bytes).drop (position + data.size)).take
      (bytes.size - (position + data.size)) = (list bytes).drop (position + data.size) :=
    List.take_of_length_le (by simp)
  simp [overwrite, Streams.overwrite, htail]

/-- Segments act as their concatenation. -/
theorem list_gather (segments : List ByteArray) :
    list (gather segments) = (segments.map list).flatten := by
  have hfold : ∀ start : ByteArray,
      list (segments.foldl (· ++ ·) start) = list start ++ (segments.map list).flatten := by
    induction segments with
    | nil => simp
    | cons segment rest ih => intro start; simp [ih]
  exact hfold .empty

theorem length_flatten_list (buffers : List ByteArray) :
    (buffers.map list).flatten.length = room buffers := by
  induction buffers with
  | nil => rfl
  | cons buffer rest ih =>
    rw [List.map_cons, List.flatten_cons, List.length_append, length_list, ih, room]

/-- Buffers are filled in their order, and what is left of them stays. -/
theorem list_scatter (data : ByteArray) (buffers : List ByteArray) :
    (scatter data buffers).map list = refill (list data) (buffers.map list) := by
  induction buffers generalizing data with
  | nil => rfl
  | cons buffer rest ih =>
    rw [scatter, List.map_cons, ih, refill, refill, List.map_cons, List.map_cons,
      List.splitLengths_cons]
    congr 1
    · have hrest : ((list buffer).drop data.size).take (buffer.size - data.size) =
          (list buffer).drop data.size := List.take_of_length_le (by simp)
      simp [List.take_append, List.drop_append, hrest]
    · have hdata : ((list data).drop buffer.size).take (data.size - buffer.size) =
          (list data).drop buffer.size := List.take_of_length_le (by simp)
      simp [List.drop_append, hdata]

end VirtualFs.Bytes
