/-
What the library asks of drivers, and what it relies on. A request that may
change a filesystem (`DriverRequest`) is made on nodes the library has found,
with the driver and the volume of the node, and under names it has checked
(`DriverRequest.Proper`). In return a driver keeps to its own data
(`World.Confined`): who a node is, where volumes are mounted, the handle
tables and what is held from outside the trees are the library's.
-/
import VirtualFs.Mounting
import VirtualFs.Proofs.Leads
import VirtualFs.Proofs.WellFormed

namespace VirtualFs

/-- The same node as before, for all that a driver may have done to its data. -/
structure Node.Stays (a b : Node) : Prop where
  ino : b.ino = a.ino
  volumeId : b.volumeId = a.volumeId
  volume : b.volume = a.volume
  mountRoot : b.mountRoot = a.mountRoot

theorem Node.Stays.refl (a : Node) : a.Stays a := ⟨rfl, rfl, rfl, rfl⟩

theorem Node.Stays.trans {a b c : Node} (h : a.Stays b) (h' : b.Stays c) : a.Stays c :=
  ⟨h'.ino.trans h.ino, h'.volumeId.trans h.volumeId, h'.volume.trans h.volume,
    h'.mountRoot.trans h.mountRoot⟩

/-- The same volume as before: only the number its next node gets is the driver's. -/
def Volume.Stays (a b : Volume) : Prop := b = { a with nextIno := b.nextIno }

namespace Volume.Stays

variable {a b c : Volume}

theorem refl (a : Volume) : a.Stays a := rfl

theorem view {α : Type} (f : Volume → α) (hf : ∀ v next, f { v with nextIno := next } = f v)
    (h : a.Stays b) : f b = f a := by
  rw [Stays] at h
  rw [h, hf]

theorem id_eq (h : a.Stays b) : b.id = a.id := h.view Volume.id fun _ _ => rfl

theorem root_eq (h : a.Stays b) : b.root = a.root := h.view Volume.root fun _ _ => rfl

theorem point_eq (h : a.Stays b) : b.point = a.point := h.view Volume.point fun _ _ => rfl

theorem trans (h : a.Stays b) (h' : b.Stays c) : a.Stays c := by
  rw [Stays] at h h' ⊢
  rw [h] at h'
  exact h'

end Volume.Stays

namespace World

variable (w : World)

/-- A node that is there, of a volume that is there and whose id it carries. -/
structure Known (n : NodeId) : Prop where
  live : w.Live n
  volume : w.volumes.has (w.node n).volume = true
  volumeId : (w.volume (w.node n).volume).id = (w.node n).volumeId

/-- A node that the library keeps: the root of a volume, what is open, a working directory, or what
a caller holds. -/
def Anchored (n : NodeId) : Prop :=
  (∃ v, w.volumes.has v = true ∧ (w.volume v).root = n) ∨
    (∃ f file, w.files.get? f = some file ∧ file.node = n) ∨
      (∃ (c : ContextId) (context : Context), w.contexts[c]? = some context ∧ context.cwd = n) ∨
        ∃ name, w.pins.get? name = some n

/-- The second world differs from the first only in what is the drivers', and by a volume that was
made. Nodes may have come, and all but those that the library keeps may have gone. -/
structure Confined (made : Option VolumeKey) (w' : World) : Prop where
  limits : w'.limits = w.limits
  table : w'.table = w.table
  nextVolumeId : w'.nextVolumeId = w.nextVolumeId
  rootVolume : w'.rootVolume = w.rootVolume
  drivers : w'.drivers = w.drivers
  contexts : w'.contexts = w.contexts
  tasks : w'.tasks = w.tasks
  files : w'.files = w.files
  pins : w'.pins = w.pins
  hasVolume : ∀ v, w'.volumes.has v = true ↔ made = some v ∨ w.volumes.has v = true
  volume : ∀ v, w.volumes.has v = true → (w.volume v).Stays (w'.volume v)
  nextKey : w.nodes.nextKey ≤ w'.nodes.nextKey
  old : ∀ n, n < w.nodes.nextKey → w'.Live n → w.Live n ∧ (w.node n).Stays (w'.node n)
  /-- Nothing is mounted on a node by making it. -/
  new : ∀ n, w.nodes.nextKey ≤ n → w'.Live n → (w'.node n).mountRoot = none
  kept : ∀ n, w.Anchored n → w.Live n → w'.Live n

end World

/-! ## Requests to drivers -/

/-- A request to a driver, or to the operations of a node, that may change a filesystem. -/
inductive DriverRequest where
  | createFile (driver : DriverKind) (volume : VolumeKey) (parent : NodeId) (name : String)
      (flags : OpenFlags) (mode : UInt32)
  | createDirectory (driver : DriverKind) (volume : VolumeKey) (parent : NodeId) (name : String)
      (mode : UInt32)
  | createSymlink (driver : DriverKind) (volume : VolumeKey) (parent : NodeId)
      (name target : String)
  | rename (driver : DriverKind) (volume : VolumeKey) (oldParent : NodeId) (oldName : String)
      (newParent : NodeId) (newName : String) (mustBeDirectory : Bool)
  | unlink (driver : DriverKind) (volume : VolumeKey) (parent : NodeId) (name : String)
  | removeDirectory (driver : DriverKind) (volume : VolumeKey) (parent : NodeId) (name : String)
  | openFile (ops : OpsKind) (volume : VolumeKey) (node : NodeId) (flags : OpenFlags)
  | write (ops : OpsKind) (file : OpenFile) (position : Nat) (data : ByteArray)
  | writeStatus (ops : OpsKind) (volume : VolumeKey) (node : NodeId) (status : Status)
      (mask : StatusMask)

namespace DriverRequest

/-- The world a request leaves, whether it is granted or not. -/
def after [Backends] : DriverRequest → World → World
  | createFile driver volume parent name flags mode =>
    (driver.createFile volume parent name flags mode).after
  | createDirectory driver volume parent name mode =>
    (driver.createDirectory volume parent name mode).after
  | createSymlink driver volume parent name target =>
    (driver.createSymlink volume parent name target).after
  | rename driver volume oldParent oldName newParent newName mustBeDirectory =>
    (driver.rename volume oldParent oldName newParent newName mustBeDirectory).after
  | unlink driver volume parent name => (driver.unlink volume parent name).after
  | removeDirectory driver volume parent name => (driver.removeDirectory volume parent name).after
  | openFile ops volume node flags => (ops.openFile volume node flags).after
  | write ops file position data => (ops.write file position data).after
  | writeStatus ops volume node status mask => (ops.writeStatus volume node status mask).after

/-- The directory in which a request puts an entry. -/
def target : DriverRequest → Option NodeId
  | createFile _ _ parent _ _ _ | createDirectory _ _ parent _ _
  | createSymlink _ _ parent _ _ => some parent
  | rename _ _ _ _ newParent _ _ => some newParent
  | unlink .. | removeDirectory .. | openFile .. | write .. | writeStatus .. => none

end DriverRequest

namespace World

variable (w : World)

/-- A node with its own driver and volume, which may be written to. -/
structure Asked (driver : DriverKind) (volume : VolumeKey) (n : NodeId) : Prop where
  known : w.Known n
  driver_eq : driver = (w.node n).driver
  volume_eq : volume = (w.node n).volume
  writable : (w.volume volume).flags.isReadOnly = false

/-- A node with its own operations and volume. -/
structure Used (ops : OpsKind) (volume : VolumeKey) (n : NodeId) : Prop where
  known : w.Known n
  ops_eq : (w.node n).ops = some ops
  volume_eq : volume = (w.node n).volume

end World

/-- A request as the library makes it. -/
def DriverRequest.Proper (w : World) : DriverRequest → Prop
  | createFile driver volume parent name _ _ | createDirectory driver volume parent name _
  | createSymlink driver volume parent name _ | unlink driver volume parent name
  | removeDirectory driver volume parent name =>
    w.Asked driver volume parent ∧ IsEntryName name
  | rename driver volume oldParent oldName newParent newName _ =>
    w.Asked driver volume oldParent ∧ w.Known newParent ∧
      (w.node oldParent).volumeId = (w.node newParent).volumeId ∧
        IsEntryName oldName ∧ IsEntryName newName
  | openFile ops volume n flags =>
    w.Used ops volume n ∧ (flags.writable = true → (w.volume volume).flags.isReadOnly = false)
  | write ops file _ _ => w.Used ops (w.node file.node).volume file.node
  | writeStatus ops volume n _ _ =>
    w.Used ops volume n ∧ (w.volume volume).flags.isReadOnly = false

/-! ## What drivers keep to -/

namespace World

/-- A volume that a driver has just made: it has the id that was asked for and a root of its own,
and it is mounted nowhere. -/
structure Minted (w w' : World) (id : Nat) (v : VolumeKey) : Prop where
  fresh : w.volumes.has v = false
  id_eq : (w'.volume v).id = id
  point : (w'.volume v).point = none
  freshRoot : w.nodes.nextKey ≤ (w'.volume v).root
  live : w'.Live (w'.volume v).root
  volume : (w'.node (w'.volume v).root).volume = v
  volumeId : (w'.node (w'.volume v).root).volumeId = id

/-- A directory that a volume may be mounted on: nothing is, and it is no root. -/
structure Mountable (w : World) (p : NodeId) : Prop where
  known : w.Known p
  isDirectory : w.isDirectory p = true
  bare : (w.node p).mountRoot = none
  not_root : w.sameIdentity p (w.volume (w.node p).volume).root = false

/-- In this world the drivers keep to what they are there for. A lookup finds a node of the volume
it looks in; what is opened is a node that is there, and so is its volume. -/
structure Lawful [Backends] (w : World) : Prop where
  locate : ∀ dir name n, w.Known dir → w.isDirectory dir = true →
    ((w.node dir).driver.locate (w.node dir).volume dir name w).result = .ok n →
    w.Live n ∧ (w.node n).volume = (w.node dir).volume ∧
      (w.node n).volumeId = (w.node dir).volumeId
  listing : ∀ ops volume n flags file, w.Used ops volume n →
    (ops.openDirectory volume n flags w).result = .ok file → w.Known file.node
  confined : ∀ request : DriverRequest, request.Proper w → w.Confined none (request.after w)
  created : ∀ driver volume parent name flags mode file,
    DriverRequest.Proper w (.createFile driver volume parent name flags mode) →
    (driver.createFile volume parent name flags mode w).result = .ok file →
    ((driver.createFile volume parent name flags mode).after w).Known file.node
  opened : ∀ ops volume n flags file, DriverRequest.Proper w (.openFile ops volume n flags) →
    (ops.openFile volume n flags w).result = .ok file →
    ((ops.openFile volume n flags).after w).Known file.node
  mount : ∀ name driver device flags args p, w.drivers.get? name = some driver → w.Mountable p →
    let w' : World := { w with nextVolumeId := w.nextVolumeId + 1 }
    let done := driver.mount w.nextVolumeId device flags args w'
    w'.Confined done.result.toOption done.world ∧ done.world.Live p ∧
      ∀ v, done.result = .ok v → w'.Minted done.world w.nextVolumeId v

end World

end VirtualFs
