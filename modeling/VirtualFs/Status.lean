/-
What can be asked about a node, and which of it a change applies to; and the
entries a directory reads as.
-/

namespace VirtualFs

/-- The attributes of one node. -/
structure Status where
  /-- The id of the node's volume. -/
  volume : Nat := 0
  ino : Nat := 0
  mode : UInt32 := 0
  links : UInt32 := 0
  uid : UInt32 := 0
  gid : UInt32 := 0
  size : Nat := 0
  accessTime : UInt64 := 0
  modifyTime : UInt64 := 0
  changeTime : UInt64 := 0
  deriving DecidableEq, Repr, Inhabited

/-- The fields of a `Status` that a change applies. -/
structure StatusMask where
  bits : UInt32
  deriving DecidableEq, Repr, Inhabited

namespace StatusMask

/-- The mask of a word; bits without a meaning are dropped. -/
def ofBits (bits : UInt32) : StatusMask := ⟨bits &&& 0x7f⟩

def has (m : StatusMask) (bit : UInt32) : Bool := m.bits &&& bit != 0

def mode (m : StatusMask) : Bool := m.has 0x01
def uid (m : StatusMask) : Bool := m.has 0x02
def gid (m : StatusMask) : Bool := m.has 0x04
def size (m : StatusMask) : Bool := m.has 0x08
def accessTime (m : StatusMask) : Bool := m.has 0x10
def modifyTime (m : StatusMask) : Bool := m.has 0x20
def changeTime (m : StatusMask) : Bool := m.has 0x40

end StatusMask

/-- One entry read from a directory. -/
structure DirEntry where
  name : String
  ino : Nat
  /-- The id of the volume the entry was read on. -/
  volume : Nat
  /-- The code of the node's type. -/
  type : UInt32
  deriving DecidableEq, Repr, Inhabited

/-- How a volume may be used. -/
structure VolumeFlags where
  bits : UInt32 := 0
  deriving DecidableEq, Repr, Inhabited

namespace VolumeFlags

/-- The flags of a word; bits without a meaning are dropped. -/
def ofBits (bits : UInt32) : VolumeFlags := ⟨bits &&& 0x3f⟩

def readOnlyBit : UInt32 := 0x01

def isReadOnly (f : VolumeFlags) : Bool := f.bits &&& readOnlyBit != 0

/-- The flags by name. -/
def named : List (UInt32 × String) :=
  [(0x01, "READ_ONLY"), (0x02, "REMOVABLE"), (0x04, "PERSISTENT"), (0x08, "SHARED"),
    (0x10, "BLOCK_BASED"), (0x20, "CAN_MOUNT")]

/-- The names of the flags that are set. -/
def text (f : VolumeFlags) : String :=
  match (named.filter fun flag => f.bits &&& flag.1 != 0).map Prod.snd with
  | [] => "0x0"
  | names => " | ".intercalate names

end VolumeFlags

end VirtualFs
