/-
The registry of drivers and the table of volumes. A volume is mounted on a
plain directory, one that carries no volume and is no root itself. Ids count
up, and an id is used up even if the driver then refuses to mount, or if the
directory carries a volume by the time the driver has made its own.
-/
import VirtualFs.Open

namespace VirtualFs

open Query (demand expect ofResult look)

variable [Backends]

/-- Registers a driver under its name. -/
def addFilesystem (driver : DriverKind) : Act Unit := do
  demand (!(← look (·.drivers.contains driver.name))) .alreadyExists
  Action.log (.filesystemAdded driver.name)
  Action.change fun w => { w with drivers := w.drivers.insert driver.name driver }

/-- The driver of a name. -/
def driverNamed (name : String) : Query (Option DriverKind) := look (·.drivers.get? name)

/-- The directory a path names, if a volume can be mounted on it. -/
def resolveMountPoint (t : TaskId) (path : String) : Query NodeId := do
  let point ← resolve t none path .full
  demand (← look (·.isDirectory point)) .notADirectory
  demand (← look fun w => (w.node point).mountRoot).isNone .busy
  let volume ← volumeOf point
  demand (!(← look fun w => w.sameIdentity point (w.volume volume).root)) .busy
  pure point

/-- The id of the next mount, which is used up. -/
def takeVolumeId : Act Nat := do
  let id ← Action.look (·.nextVolumeId)
  Action.change fun w => { w with nextVolumeId := id + 1 }
  pure id

/-- Enters a volume into the table and ties it to its mount point. -/
def World.attach (w : World) (id : Nat) (volume : VolumeKey) (point : NodeId) : World :=
  let w := { w with table := w.table ++ [(id, volume)] }
  let w := w.setVolume volume fun v => { v with point := some point }
  w.setNode point fun n => { n with mountRoot := some (w.volume volume).root }

/-- Mounts a filesystem on a directory, which must still be bare when the driver is done. -/
def mount (t : TaskId) (device dir fs : String) (flags : VolumeFlags) (args : String) :
    Act VolumeKey := do
  let point ← resolveMountPoint t dir
  let driver ← expect (← look (·.drivers.get? fs)) .noDevice
  let id ← takeVolumeId
  let volume ← driver.mount id device flags args
  demand (← look fun w => (w.node point).mountRoot).isNone .busy
  Action.change (·.attach id volume point)
  Action.log (.mounted fs device id dir)
  pure volume

/-- Flushes volumes one after the other, and answers with the first failure after `earlier`. -/
def syncVolumes (earlier : Except Error Unit) : List VolumeKey → Query Unit
  | [] => ofResult earlier
  | volume :: rest => do
    let (id, driver) ← look fun w => ((w.volume volume).id, (w.volume volume).driver)
    match ← Query.attempt (driver.sync volume) with
    | .ok () => syncVolumes earlier rest
    | .error cause =>
      Query.log (.syncFailed id cause)
      syncVolumes (earlier.bind fun () => .error cause) rest

/-- Flushes every mounted volume; all are tried. -/
def sync : Query Unit := do syncVolumes (.ok ()) (← look (·.table.map Prod.snd))

end VirtualFs
