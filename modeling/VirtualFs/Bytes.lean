/-
Byte strings: filling, resizing, writing at a position, and spreading one
string over a list of buffers. A write past the end leaves zeros in the gap,
and spreading changes no buffer's size (`size_scatter`).
-/

namespace VirtualFs.Bytes

/-- A byte repeated. -/
def fill (byte : UInt8) (n : Nat) : ByteArray :=
  if n = 0 then .empty
  else
    let half := fill byte (n / 2)
    if n % 2 = 0 then half ++ half else (half ++ half).push byte
termination_by n

/-- So many zero bytes. -/
def zeros (n : Nat) : ByteArray := fill 0 n

/-- Cut or extended with zeros to `n` bytes. -/
def resize (old : ByteArray) (n : Nat) : ByteArray :=
  old.extract 0 n ++ zeros (n - old.size)

/-- The bytes with `data` written at `pos`; a gap before it reads as zeros. -/
def overwrite (old : ByteArray) (pos : Nat) (data : ByteArray) : ByteArray :=
  old.extract 0 pos ++ zeros (pos - old.size) ++ data ++ old.extract (pos + data.size) old.size

/-- The buffers with the front of their concatenation replaced by `data`. -/
def scatter (data : ByteArray) : List ByteArray → List ByteArray
  | [] => []
  | buffer :: rest =>
    (data.extract 0 buffer.size ++ buffer.extract data.size buffer.size) ::
      scatter (data.extract buffer.size data.size) rest

/-- The segments one after the other. -/
def gather (segments : List ByteArray) : ByteArray := segments.foldl (· ++ ·) .empty

/-- How many bytes the buffers hold together. -/
def room : List ByteArray → Nat
  | [] => 0
  | buffer :: rest => buffer.size + room rest

@[simp] theorem size_fill (byte : UInt8) (n : Nat) : (fill byte n).size = n := by
  fun_induction fill byte n with
  | case1 => rfl
  | case2 n hn half he ih => simp [half, ih]; omega
  | case3 n hn half he ih => simp [half, ih]; omega

@[simp] theorem size_zeros (n : Nat) : (zeros n).size = n := size_fill 0 n

@[simp] theorem size_resize (old : ByteArray) (n : Nat) : (resize old n).size = n := by
  simp [resize]; omega

theorem size_overwrite (old : ByteArray) (pos : Nat) (data : ByteArray) :
    (overwrite old pos data).size = max old.size (pos + data.size) := by
  simp [overwrite]; omega

/-- Spreading bytes over buffers changes no buffer's size. -/
theorem size_scatter (data : ByteArray) (buffers : List ByteArray) :
    (scatter data buffers).map ByteArray.size = buffers.map ByteArray.size := by
  induction buffers generalizing data with
  | nil => rfl
  | cons buffer rest ih => simp [scatter, ih]; omega

end VirtualFs.Bytes
