/-
Making an instance. A fresh instance has the memory filesystem mounted at
"/", a device directory, and the kernel's context. There is also one global
instance, which the first call that asks for it makes.
-/
import VirtualFs.Mounting
import VirtualFs.Standard

namespace VirtualFs

open Query (demand expect ofResult look)

/-- Makes a context that starts in "/". -/
def addContext (kernel : Bool) : Act ContextId := do
  let w ← Action.world
  let context : Context := { kernel, files := { limit := w.limits.handles }, cwd := w.rootNode }
  Action.change fun w => { w with contexts := w.contexts.push context }
  pure w.contexts.size

/-- Makes a task that works in a context. -/
def addTask (context : ContextId) : Act TaskId := do
  let t ← look (·.tasks.size)
  Action.change fun w => { w with tasks := w.tasks.push { context } }
  pure t

/-- Mounts the root volume and registers its driver. -/
def bootActions : Act Unit := do
  let driver := DriverKind.ram
  let volume ← driver.mount rootVolumeId "" {} ""
  Action.change fun w =>
    { w with
      rootVolume := volume
      table := [(rootVolumeId, volume)]
      drivers := w.drivers.insert driver.name driver }
  driver.createDirectory volume (← look (·.rootNode)) deviceDir 0o755
  let _ ← addContext true
  Action.log (.rootMounted driver.name)

/-- A fresh instance of the given bounds. -/
def boot (limits : Limits) : Outcome Error Unit := bootActions { limits }

/-- The world of a fresh instance. -/
def World.fresh (limits : Limits) : World := (boot limits).world

/-- The global instance after a call that asks for it: the first call makes it, and later ones find
it as it is. Also says whether this call made it. -/
def ensureInstance (current : Option World) (limits : Limits) : World × Bool :=
  match current with
  | some w => (w, false)
  | none => (World.fresh limits, true)

/-- Publishes a device below the device directory. -/
def addDevice (path : String) (ops : OpsKind) : Act Nat := do
  let ino ← RamFs.publishDevice (← look (·.rootVolume)) path ops
  Action.log (.deviceAdded path ino)
  pure ino

/-- Moves a device of the device directory. -/
def moveDevice (ino : Nat) (path : String) : Act Unit := do
  RamFs.moveDevice (← look (·.rootVolume)) ino path

/-- Takes a device of the device directory away. -/
def withdrawDevice (ino : Nat) : Act Unit := do
  RamFs.withdrawDevice (← look (·.rootVolume)) ino

end VirtualFs
