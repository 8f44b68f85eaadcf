/-
The numbers an instance is built with. Two lengths are fixed for every
instance; the rest is a `Limits` record, whose defaults are the usual ones.
-/

namespace VirtualFs

/-- The longest path, in bytes. -/
def pathMax : Nat := 4096

/-- The longest single name, in bytes. -/
def nameMax : Nat := 255

/-- The bounds an instance applies. -/
structure Limits where
  /-- How deep links inside link targets may nest. -/
  linkDepth : UInt32 := 5
  /-- How many links in a row are followed. -/
  linkChain : UInt32 := 16
  /-- The longest link target that is written or read. -/
  linkLength : Nat := pathMax
  /-- The longest directory path that is rebuilt. -/
  pathLength : Nat := pathMax
  /-- How many handles one table holds. -/
  handles : Nat := 256
  deriving DecidableEq, Repr, Inhabited

/-- Positions and lengths are counted in words of 64 bits. -/
def wordLimit : Nat := 0x10000000000000000

/-- The largest position a seek may reach. -/
def positionMax : Nat := 0x7fffffffffffffff

/-- The id of the volume mounted at "/". -/
def rootVolumeId : Nat := 1

/-- The first id given to an ordinary mount. -/
def firstVolumeId : Nat := 16

end VirtualFs
