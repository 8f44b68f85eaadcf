/-
Mode words: the type of a node in the upper bits, its permissions in the
lower twelve. `make` puts the two together, and each half reads back
(`typeBits_make`, `permissions_make`).
-/
import VirtualFs.Word

namespace VirtualFs.Mode

/-- The bits that hold the type. -/
def typeMask : UInt32 := 0o170000

def socket : UInt32 := 0o140000
def symlink : UInt32 := 0o120000
def regular : UInt32 := 0o100000
def block : UInt32 := 0o060000
def directory : UInt32 := 0o040000
def character : UInt32 := 0o020000
def fifo : UInt32 := 0o010000

/-- The permission and set-id bits. -/
def permissionMask : UInt32 := 0o7777

/-- Write permission for owner, group and others. -/
def writeBits : UInt32 := 0o222

def typeBits (mode : UInt32) : UInt32 := mode &&& typeMask

def permissions (mode : UInt32) : UInt32 := mode &&& permissionMask

/-- The mode with the type of the first word and the permissions of the second. -/
def make (type perms : UInt32) : UInt32 := (type &&& typeMask) ||| (perms &&& permissionMask)

def isRegular (mode : UInt32) : Bool := typeBits mode == regular

def isDirectory (mode : UInt32) : Bool := typeBits mode == directory

def isSymlink (mode : UInt32) : Bool := typeBits mode == symlink

def isCharacter (mode : UInt32) : Bool := typeBits mode == character

/-- The code of the type in a directory entry; 0 for a type that has none. -/
def entryType (mode : UInt32) : UInt32 :=
  let type := typeBits mode
  if type == directory then 4
  else if type == regular then 8
  else if type == symlink then 10
  else if type == character then 2
  else if type == block then 6
  else if type == fifo then 1
  else if type == socket then 12
  else 0

/-- The digits of a mode, in base eight. -/
def octal (mode : UInt32) : String :=
  String.ofList (Nat.toDigits 8 mode.toNat)

@[simp] theorem typeBits_make (type perms : UInt32) :
    typeBits (make type perms) = typeBits type := by
  have h : (0o7777 : UInt32) &&& 0o170000 = 0 := by decide
  simp only [typeBits, make, typeMask, permissionMask, Word.or_and, Word.and_and, h]; simp

@[simp] theorem permissions_make (type perms : UInt32) :
    permissions (make type perms) = permissions perms := by
  have h : (0o170000 : UInt32) &&& 0o7777 = 0 := by decide
  simp only [permissions, make, typeMask, permissionMask, Word.or_and, Word.and_and, h]; simp

end VirtualFs.Mode
