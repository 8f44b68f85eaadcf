/-
Counting the calls made to scripted operations and filesystems. The counts
are read off the trace of a run.
-/
import VirtualFs.Event

namespace VirtualFs

/-- How often scripted operations were called, and how many bytes they took. -/
structure OpsCounts where
  opens : Nat := 0
  closes : Nat := 0
  reads : Nat := 0
  writes : Nat := 0
  written : Nat := 0
  links : Nat := 0
  syncs : Nat := 0
  deriving DecidableEq, Repr, Inhabited

namespace OpsCounts

/-- The counts after one more call to operations with a script. -/
def add (c : OpsCounts) (script : Script) : OpsCall → OpsCounts
  | .openFile _ | .openDirectory _ => { c with opens := c.opens + 1 }
  | .close .. => { c with closes := c.closes + 1 }
  | .read .. => { c with reads := c.reads + 1 }
  | .write _ size =>
    let taken := if (script.fault? .write).isSome then 0 else script.share size
    { c with writes := c.writes + 1, written := c.written + taken }
  | .readLink .. => { c with links := c.links + 1 }
  | .sync _ => { c with syncs := c.syncs + 1 }

/-- The counts kept under a number, after one more event. -/
def observe (meter : Nat) (c : OpsCounts) : Event → OpsCounts
  | .used (.scripted m script) call => if m = meter then c.add script call else c
  | _ => c

end OpsCounts

/-- How often a scripted filesystem was called, with the counts of its nodes together. -/
structure FsCounts where
  mounts : Nat := 0
  renames : Nat := 0
  syncs : Nat := 0
  ops : OpsCounts := {}
  deriving DecidableEq, Repr, Inhabited

namespace FsCounts

/-- The counts after one more call to the filesystem; a bare one keeps none. -/
def add (c : FsCounts) (fs : ScriptedFs) (call : DriverCall) : FsCounts :=
  if fs.bare then c
  else
    match call with
    | .mount _ => { c with mounts := c.mounts + 1 }
    | .rename .. => { c with renames := c.renames + 1 }
    | .sync _ => { c with syncs := c.syncs + 1 }
    | _ => c

/-- The counts kept under a number, after one more event. -/
def observe (meter : Nat) (c : FsCounts) (event : Event) : FsCounts :=
  let c := { c with ops := c.ops.observe meter event }
  match event with
  | .asked (.scripted fs) call => if fs.meter = meter then c.add fs call else c
  | _ => c

end FsCounts

/-- The counts of the operations kept under a number, over a run. -/
def opsCounts (meter : Nat) (trace : List Event) : OpsCounts :=
  trace.foldl (OpsCounts.observe meter) {}

/-- The counts of the filesystem kept under a number, over a run. -/
def fsCounts (meter : Nat) (trace : List Event) : FsCounts :=
  trace.foldl (FsCounts.observe meter) {}

end VirtualFs
