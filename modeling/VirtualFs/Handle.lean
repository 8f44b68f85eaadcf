/-
Handle numbers. A handle is a number that is not negative; one of its bits
says whether it belongs to the kernel's table or to a task's own, and the
other bits are the slot within that table.
-/

namespace VirtualFs

/-- The number of an open file. -/
structure Handle where
  raw : Int32
  deriving DecidableEq, Repr, Inhabited

namespace Handle

/-- The bit that selects the kernel's table. -/
def kernelBit : Int32 := 0x40000000

/-- The handle of a slot, in a word of 32 bits. -/
def ofSlot (slot : Nat) (kernel : Bool) : Handle :=
  let number := Int32.ofNat slot
  ⟨if kernel then number ||| kernelBit else number⟩

/-- The handle a raw number names; a negative number names none. -/
def ofRaw? (raw : Int32) : Option Handle :=
  if raw < 0 then none else some ⟨raw⟩

def isKernel (h : Handle) : Bool := h.raw &&& kernelBit != 0

/-- The slot within the handle's table. A negative word counts from the top of 64 bits. -/
def slot (h : Handle) : Nat := (h.raw &&& ~~~kernelBit).toInt64.toUInt64.toNat

/-- The handle in a log line: a kernel handle is its slot behind a "k". -/
def text (h : Handle) : String :=
  if h.isKernel then "k" ++ toString h.slot else toString h.raw.toInt

end Handle

end VirtualFs
