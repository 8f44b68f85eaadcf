/-
The operations of an instance whose volumes are all memory volumes, and the
worlds they lead to. An operation is told by its arguments; what it answers
does not matter here, only the world it leaves, whether it succeeds or fails.
Operations that are queries leave the world as it was and are not listed.

Callers may also hold nodes they were led to, and bring a counter of nested
links of their own.

An operation is also an action over any drivers there are (`Operation.act`),
which fails if the operation does.
-/
import VirtualFs.Direct
import VirtualFs.Proofs.Leads

namespace VirtualFs

open Query (expect look ofResult)
section

variable [Backends]

/-- Holds the node that a path leads to, from a node that is held already or else from the task's
own directory. -/
def holdPath (t : TaskId) (start : Option String) (path : String) (flags : LookupMode)
    (name : String) : Act Unit := do
  let start ← look fun w => start.bind w.held?
  holdNode name (← resolve t start path flags)

/-- Opens a node that is held under a name. -/
def openPinned (t : TaskId) (name : String) (flags : OpenFlags) : Act Handle := do
  openHeld t (← expect (← look (·.held? name)) .notFound) flags

end

/-- An operation with its arguments. -/
inductive Operation where
  | openPath (t : TaskId) (base : Option Handle) (path : String) (flags : OpenFlags) (mode : UInt32)
  | openPinned (t : TaskId) (name : String) (flags : OpenFlags)
  | close (t : TaskId) (h : Handle)
  | duplicate (t : TaskId) (h : Handle)
  | duplicateTo (t : TaskId) (h target : Handle)
  | reopen (t : TaskId) (h : Handle)
  | setFlags (t : TaskId) (h : Handle) (flags : OpenFlags)
  | readv (t : TaskId) (h : Handle) (buffers : List ByteArray)
  | preadv (t : TaskId) (h : Handle) (position : Nat) (buffers : List ByteArray)
  | writev (t : TaskId) (h : Handle) (segments : List ByteArray)
  | pwritev (t : TaskId) (h : Handle) (position : Nat) (segments : List ByteArray)
  | seek (t : TaskId) (h : Handle) (offset : Int) (origin : SeekOrigin)
  | control (t : TaskId) (h : Handle) (request : UInt32) (input buffer : ByteArray)
  | nextEntry (t : TaskId) (h : Handle)
  | rewind (t : TaskId) (h : Handle)
  | makeDirectory (t : TaskId) (base : Option Handle) (path : String) (mode : UInt32)
  | removeDirectory (t : TaskId) (base : Option Handle) (path : String)
  | unlink (t : TaskId) (base : Option Handle) (path : String)
  | makeSymlink (t : TaskId) (base : Option Handle) (path target : String)
  | rename (t : TaskId) (oldBase : Option Handle) (oldPath : String) (newBase : Option Handle)
      (newPath : String)
  | writeStatus (t : TaskId) (h : Handle) (status : Status) (mask : StatusMask)
  | changeDirectory (t : TaskId) (path : String)
  | changeDirectoryTo (t : TaskId) (h : Handle)
  | mount (t : TaskId) (device dir fs : String) (flags : VolumeFlags) (args : String)
  | addDevice (path : String) (ops : OpsKind)
  | moveDevice (ino : Nat) (path : String)
  | withdrawDevice (ino : Nat)
  | hold (t : TaskId) (start : Option String) (path : String) (flags : LookupMode) (name : String)
  | release (name : String)
  | addContext (kernel : Bool)
  | addTask (context : ContextId)
  | closeAll (c : ContextId)
  | retireContext (c : ContextId)
  | setDepth (t : TaskId) (depth : UInt32)

/-- The world an operation leaves. -/
def Operation.run : Operation → World → World
  | .openPath t base path flags mode => (VirtualFs.openPath t base path flags mode).after
  | .openPinned t name flags => (VirtualFs.openPinned t name flags).after
  | .close t h => (VirtualFs.close t h).after
  | .duplicate t h => (VirtualFs.duplicate t h).after
  | .duplicateTo t h target => (VirtualFs.duplicateTo t h target).after
  | .reopen t h => (VirtualFs.reopen t h).after
  | .setFlags t h flags => (VirtualFs.setFlags t h flags).after
  | .readv t h buffers => (VirtualFs.readv t h buffers).after
  | .preadv t h position buffers => (VirtualFs.preadv t h position buffers).after
  | .writev t h segments => (VirtualFs.writev t h segments).after
  | .pwritev t h position segments => (VirtualFs.pwritev t h position segments).after
  | .seek t h offset origin => (VirtualFs.seek t h offset origin).after
  | .control t h request input buffer => (VirtualFs.control t h request input buffer).after
  | .nextEntry t h => (VirtualFs.nextEntry t h).after
  | .rewind t h => (VirtualFs.rewind t h).after
  | .makeDirectory t base path mode => (VirtualFs.makeDirectory t base path mode).after
  | .removeDirectory t base path => (VirtualFs.removeDirectory t base path).after
  | .unlink t base path => (VirtualFs.unlink t base path).after
  | .makeSymlink t base path target => (VirtualFs.makeSymlink t base path target).after
  | .rename t oldBase oldPath newBase newPath =>
    (VirtualFs.rename t oldBase oldPath newBase newPath).after
  | .writeStatus t h status mask => (VirtualFs.writeStatus t h status mask).after
  | .changeDirectory t path => (VirtualFs.changeDirectory t path).after
  | .changeDirectoryTo t h => (VirtualFs.changeDirectoryTo t h).after
  | .mount t device dir fs flags args => (VirtualFs.mount t device dir fs flags args).after
  | .addDevice path ops => (VirtualFs.addDevice path ops).after
  | .moveDevice ino path => (VirtualFs.moveDevice ino path).after
  | .withdrawDevice ino => (VirtualFs.withdrawDevice ino).after
  | .hold t start path flags name => (holdPath t start path flags name).after
  | .release name => (releaseNode name).after
  | .addContext kernel => (VirtualFs.addContext kernel).after
  | .addTask context => (VirtualFs.addTask context).after
  | .closeAll c => (emptyTable c).after
  | .retireContext c => (VirtualFs.retireContext c).after
  | .setDepth t depth => fun w => w.setTask t fun task => { task with depth }

/-- The world that operations leave one after the other. -/
def Operation.runAll (ops : List Operation) (w : World) : World :=
  ops.foldl (fun w op => op.run w) w

namespace World

/-- The second world is one the first leads to by operations, in any order and number. -/
def Steps : World → World → Prop :=
  Relation.ReflTransGen fun w w' => ∃ op : Operation, w' = op.run w

/-- A world that a fresh instance leads to. -/
def Reachable (w : World) : Prop := ∃ limits, Steps (fresh limits) w

end World

theorem World.steps_runAll (ops : List Operation) (w : World) :
    w.Steps (Operation.runAll ops w) := by
  induction ops generalizing w with
  | nil => exact .refl
  | cons op rest ih => exact .head ⟨op, rfl⟩ (ih (op.run w))

/-! ## Operations as actions -/

/-- An action whose value is of no interest. -/
def Action.only {ε α : Type} (x : Action ε α) : Action ε Unit := do
  let _ ← x
  pure ()

/-- A call that fills buffers, which fails if it could not fill them. -/
def Action.filling {α : Type} (x : Act (Received α)) : Act Unit := do
  let received ← x
  let _ ← ofResult received.result
  pure ()

/-- What an operation does, with the drivers there are. It fails if the operation does. -/
def Operation.act [Backends] : Operation → Act Unit
  | .openPath t base path flags mode => (VirtualFs.openPath t base path flags mode).only
  | .openPinned t name flags => (VirtualFs.openPinned t name flags).only
  | .close t h => (VirtualFs.close t h).only
  | .duplicate t h => (VirtualFs.duplicate t h).only
  | .duplicateTo t h target => (VirtualFs.duplicateTo t h target).only
  | .reopen t h => (VirtualFs.reopen t h).only
  | .setFlags t h flags => (VirtualFs.setFlags t h flags).only
  | .readv t h buffers => Action.filling (VirtualFs.readv t h buffers)
  | .preadv t h position buffers => Action.filling (VirtualFs.preadv t h position buffers)
  | .writev t h segments => (VirtualFs.writev t h segments).only
  | .pwritev t h position segments => (VirtualFs.pwritev t h position segments).only
  | .seek t h offset origin => (VirtualFs.seek t h offset origin).only
  | .control t h request input buffer => Action.filling (VirtualFs.control t h request input buffer)
  | .nextEntry t h => (VirtualFs.nextEntry t h).only
  | .rewind t h => (VirtualFs.rewind t h).only
  | .makeDirectory t base path mode => (VirtualFs.makeDirectory t base path mode).only
  | .removeDirectory t base path => (VirtualFs.removeDirectory t base path).only
  | .unlink t base path => (VirtualFs.unlink t base path).only
  | .makeSymlink t base path target => (VirtualFs.makeSymlink t base path target).only
  | .rename t oldBase oldPath newBase newPath =>
    (VirtualFs.rename t oldBase oldPath newBase newPath).only
  | .writeStatus t h status mask => (VirtualFs.writeStatus t h status mask).only
  | .changeDirectory t path => (VirtualFs.changeDirectory t path).only
  | .changeDirectoryTo t h => (VirtualFs.changeDirectoryTo t h).only
  | .mount t device dir fs flags args => (VirtualFs.mount t device dir fs flags args).only
  | .addDevice path ops => (VirtualFs.addDevice path ops).only
  | .moveDevice ino path => (VirtualFs.moveDevice ino path).only
  | .withdrawDevice ino => (VirtualFs.withdrawDevice ino).only
  | .hold t start path flags name => (holdPath t start path flags name).only
  | .release name => (releaseNode name).only
  | .addContext kernel => (VirtualFs.addContext kernel).only
  | .addTask context => (VirtualFs.addTask context).only
  | .closeAll c => (emptyTable c).only
  | .retireContext c => (VirtualFs.retireContext c).only
  | .setDepth t depth => Action.change (·.setTask t fun task => { task with depth })

theorem Action.after_only {ε α : Type} (x : Action ε α) (w : World) :
    x.only.after w = x.after w :=
  x.after_map (fun _ => ()) w

theorem Action.after_filling {α : Type} (x : Act (Received α)) (w : World) :
    (filling x).after w = x.after w := by
  rw [after, after, filling]
  rcases hrun : x w with ⟨_ | received, w', t⟩
  · rw [bind_error hrun]
  · rw [bind_ok hrun]
    cases hresult : received.result with
    | error e => rfl
    | ok a => rfl

/-- The world an operation leaves is the one its action leaves. -/
theorem Operation.run_eq_after (op : Operation) (w : World) :
    op.run w = (@Operation.act standard op).after w := by
  cases op with
  | readv | preadv | control => exact (Action.after_filling _ w).symm
  | setDepth => rfl
  | _ => exact (Action.after_only _ w).symm

end VirtualFs
