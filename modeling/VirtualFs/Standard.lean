/-
The drivers and operations that the library comes with.
-/
import VirtualFs.RamFs.Devices
import VirtualFs.Scripted.Filesystem

namespace VirtualFs

/-- The memory filesystem and the scripted ones. -/
instance standard : Backends where
  driver
    | .ram => RamFs.driver
    | .scripted fs => Scripted.driver fs
  ops
    | .ram => RamFs.ops
    | .bare => Scripted.bareOps
    | .scripted _ script => Scripted.ops script

end VirtualFs
