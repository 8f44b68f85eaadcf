/-
A virtual file system: paths, links, mounts, open files and the drivers
behind them.
-/
import VirtualFs.Action.Lemmas
import VirtualFs.Describe
import VirtualFs.Direct
import VirtualFs.Listing
import VirtualFs.ReservationTable.Lemmas
import VirtualFs.Scope
import VirtualFs.Scripted.Meter
import VirtualFs.Syscall
import VirtualFs.Proofs.Decomposition
import VirtualFs.Proofs.Lookup
import VirtualFs.Proofs.Trace
import VirtualFs.Proofs.Unwinding
import VirtualFs.Proofs.Tree
import VirtualFs.Proofs.Arrival
import VirtualFs.Proofs.Edit
import VirtualFs.Proofs.Extension
import VirtualFs.Proofs.RamEdits
import VirtualFs.Proofs.Descent
import VirtualFs.Proofs.DeviceEdits
import VirtualFs.Proofs.RequestEdits
import VirtualFs.Proofs.Forest
import VirtualFs.Proofs.Whereabouts
import VirtualFs.Proofs.Leads
import VirtualFs.Proofs.Drivers
import VirtualFs.Proofs.FailedOperations
import VirtualFs.Proofs.Attachment
import VirtualFs.Proofs.Stranding
import VirtualFs.Proofs.LooseDirectories
import VirtualFs.Proofs.Failure
import VirtualFs.Proofs.MountHistory
import VirtualFs.Proofs.Visibility
import VirtualFs.Proofs.Moves
import VirtualFs.Proofs.Operating
import VirtualFs.Proofs.RamMoves
import VirtualFs.Proofs.Confinement
import VirtualFs.Proofs.MountTable
import VirtualFs.Proofs.ClosedOnce
import VirtualFs.Proofs.TableCalls
import VirtualFs.Proofs.StreamRuns
import VirtualFs.Proofs.Scans
import VirtualFs.Proofs.WiderLimits
import VirtualFs.Proofs.Transparency
import VirtualFs.Proofs.Frozen
import VirtualFs.Proofs.CallHistory
import VirtualFs.Proofs.AccessModes
import VirtualFs.Proofs.ReadOnlyHandles
import VirtualFs.Proofs.Tidiness
import VirtualFs.Proofs.Entries
import VirtualFs.Proofs.NamedEntries
import VirtualFs.Proofs.Moorings
import VirtualFs.Proofs.OwnContext
import VirtualFs.Proofs.Descriptors
import VirtualFs.Proofs.RawPaths
import VirtualFs.Proofs.Relocation
import VirtualFs.Proofs.TrailingSlashes
import VirtualFs.Proofs.LookupFailures
import VirtualFs.Proofs.NumberedOpens
import VirtualFs.Proofs.NodeOpens
import VirtualFs.Proofs.DanglingLinks
import VirtualFs.Proofs.LastingLookups
import VirtualFs.Proofs.CreatedFiles
import VirtualFs.Proofs.NumberSearch
import VirtualFs.Proofs.DevicePaths
import VirtualFs.Proofs.DeviceCalls
import VirtualFs.Proofs.DeviceNumbers
import VirtualFs.Proofs.AbsolutePaths
import VirtualFs.Proofs.OpenKinds
import VirtualFs.Proofs.SeparateHandles
import VirtualFs.Proofs.ReopenedFiles
import VirtualFs.Proofs.BufferedPaths
import VirtualFs.Proofs.LinkBounds
import VirtualFs.Proofs.ByteOrder
import VirtualFs.Proofs.UndisturbedScans
import VirtualFs.Proofs.ContextCalls
import VirtualFs.Proofs.StrayNumbers
import VirtualFs.Proofs.SlotHistory
import VirtualFs.Proofs.AncestorWalk
import VirtualFs.Proofs.ExhaustiveSearch
