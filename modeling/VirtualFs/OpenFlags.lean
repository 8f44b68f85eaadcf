/-
The flag word of an open call, and where a seek counts from.
-/
import VirtualFs.Error
import VirtualFs.Word

namespace VirtualFs

/-- The flags an open was asked for, and those an open file remembers. -/
structure OpenFlags where
  bits : UInt32 := 0
  deriving DecidableEq, Repr, Inhabited

namespace OpenFlags

def readOnlyMode : UInt32 := 0
def writeOnlyMode : UInt32 := 1
def readWriteMode : UInt32 := 2
def accessMask : UInt32 := 3

def createBit : UInt32 := 0x40
def exclusiveBit : UInt32 := 0x80
def truncateBit : UInt32 := 0x200
def appendBit : UInt32 := 0x400
def nonblockBit : UInt32 := 0x800
def directoryBit : UInt32 := 0x10000
def nofollowBit : UInt32 := 0x20000
def closeOnExecBit : UInt32 := 0x80000
def pathBit : UInt32 := 0x200000

/-- Takes the handle from the kernel's table. -/
def kernelBit : UInt32 := 0x40000000

/-- The flags that may change while a file is open. -/
def statusMask : UInt32 := appendBit ||| nonblockBit

def has (f : OpenFlags) (bit : UInt32) : Bool := f.bits &&& bit != 0

/-- The flags with some bits cleared. -/
def without (f : OpenFlags) (bits : UInt32) : OpenFlags := ⟨f.bits &&& ~~~bits⟩

def accessMode (f : OpenFlags) : UInt32 := f.bits &&& accessMask

def readable (f : OpenFlags) : Bool :=
  f.accessMode == readOnlyMode || f.accessMode == readWriteMode

def writable (f : OpenFlags) : Bool :=
  f.accessMode == writeOnlyMode || f.accessMode == readWriteMode

def creates (f : OpenFlags) : Bool := f.has createBit
def exclusive (f : OpenFlags) : Bool := f.has exclusiveBit
def truncates (f : OpenFlags) : Bool := f.has truncateBit
def appends (f : OpenFlags) : Bool := f.has appendBit
def directoryOnly (f : OpenFlags) : Bool := f.has directoryBit
def nofollow (f : OpenFlags) : Bool := f.has nofollowBit
def pathOnly (f : OpenFlags) : Bool := f.has pathBit
def forKernel (f : OpenFlags) : Bool := f.has kernelBit

/-- The flags with their status bits taken from `new`. -/
def withStatus (f new : OpenFlags) : OpenFlags :=
  ⟨(f.bits &&& ~~~statusMask) ||| (new.bits &&& statusMask)⟩

/-- Changing the status never changes who may read or write. -/
@[simp] theorem accessMode_withStatus (f new : OpenFlags) :
    (f.withStatus new).accessMode = f.accessMode := by
  have h₁ : ~~~statusMask &&& accessMask = accessMask := by decide
  have h₂ : statusMask &&& accessMask = 0 := by decide
  simp only [withStatus, accessMode, Word.or_and, Word.and_and, h₁, h₂]; simp

end OpenFlags

/-- Where a seek counts from. -/
inductive SeekOrigin where
  | start
  | current
  | finish
  deriving DecidableEq, Repr, Inhabited

/-- The origin a raw number stands for. -/
def SeekOrigin.ofRaw (raw : UInt32) : Except Error SeekOrigin :=
  if raw = 0 then .ok .start
  else if raw = 1 then .ok .current
  else if raw = 2 then .ok .finish
  else .error .invalidArgument

end VirtualFs
