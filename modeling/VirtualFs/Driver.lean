/-
What drivers and node operations can do. A driver does the naming of one
kind of filesystem: it mounts, looks names up and changes directories. Node
operations do the rest, once a node has been found. Requests that are not
written down keep the default given here.

`Backends` says which driver and which operations a kind stands for;
the library works over any such choice. Calls go through `DriverKind` and
`OpsKind`, which put each one on the trace.

A request that may change the world is an `Act`, one that only asks a `Query`.
Looking a name up, opening and listing a directory, reading, closing, telling
attributes, checking access, flushing and what is asked of a device only ask.
So a driver that makes a node when its name is first looked up is not met here
as it is, nor are operations that keep a state of their own and change it when
they are asked. They are reached indirectly, by what holds of runs in which
drivers and operations behave differently from one call to the next: a node may
be made by the mount of its volume and be found by a later lookup only, and
another state is another behaviour. Within one call they answer the same
question about the same world alike.
-/
import VirtualFs.Action

namespace VirtualFs

/-- What a driver does. Only mounting and looking up have no default. -/
structure Driver where
  /-- The name the driver is registered under. -/
  name : String
  /-- Creates a volume of the given id, whose root must carry it. -/
  mount (id : Nat) (device : String) (flags : VolumeFlags) (args : String) : Act VolumeKey
  /-- Finds a name in a directory. The names "." and ".." come here too, but never ".." of the root
  of a volume. -/
  locate (volume : VolumeKey) (parent : NodeId) (name : String) : Query NodeId
  /-- Creates a regular file and opens it. -/
  createFile (volume : VolumeKey) (parent : NodeId) (name : String) (flags : OpenFlags)
    (mode : UInt32) : Act OpenFile := throw .notImplemented
  createDirectory (volume : VolumeKey) (parent : NodeId) (name : String) (mode : UInt32) :
    Act Unit := throw .notImplemented
  createSymlink (volume : VolumeKey) (parent : NodeId) (name target : String) : Act Unit :=
    throw .notImplemented
  /-- Moves an entry within a volume; `mustBeDirectory` refuses anything but a directory. -/
  rename (volume : VolumeKey) (oldParent : NodeId) (oldName : String) (newParent : NodeId)
    (newName : String) (mustBeDirectory : Bool) : Act Unit := throw .notImplemented
  unlink (volume : VolumeKey) (parent : NodeId) (name : String) : Act Unit := throw .notImplemented
  removeDirectory (volume : VolumeKey) (parent : NodeId) (name : String) : Act Unit :=
    throw .notImplemented
  /-- Flushes a volume. -/
  sync (volume : VolumeKey) : Query Unit := pure ()

/-- The attributes that can be told from a node alone. -/
def World.plainStatus (w : World) (n : NodeId) : Status :=
  let node := w.node n
  { volume := node.volumeId, ino := node.ino, mode := node.mode, links := 1 }

/-- What the operations of a node do. -/
structure NodeOps where
  openFile (volume : VolumeKey) (node : NodeId) (flags : OpenFlags) : Act OpenFile :=
    pure (.stream node flags)
  openDirectory (volume : VolumeKey) (node : NodeId) (flags : OpenFlags) : Query OpenFile :=
    pure (.directory node flags)
  /-- Called once, when the last handle is gone. -/
  close (file : OpenFile) : Query Unit := pure ()
  /-- The bytes from a position on, at most `room` of them. -/
  read (file : OpenFile) (position room : Nat) : Query ByteArray := throw .notImplemented
  /-- Writes bytes at a position and says how many were taken. -/
  write (file : OpenFile) (position : Nat) (data : ByteArray) : Act Nat := throw .notImplemented
  /-- The target of a link. -/
  readLink (volume : VolumeKey) (node : NodeId) : Query String := throw .notImplemented
  /-- The entry of a directory with a number, none past the end. -/
  entry (volume : VolumeKey) (dir : NodeId) (index : Nat) : Query (Option DirEntry) :=
    throw .notImplemented
  /-- The attributes of a node. The size of a link must be the length of its target, for it is
  checked before the target is read; so the default knows no links. -/
  status (volume : VolumeKey) (node : NodeId) : Query Status := do
    Query.demand (!(← Query.look (·.isSymlink node))) .notImplemented
    Query.look (·.plainStatus node)
  writeStatus (volume : VolumeKey) (node : NodeId) (status : Status) (mask : StatusMask) :
    Act Unit := throw .notImplemented
  /-- Checks access bits against a node. -/
  checkAccess (volume : VolumeKey) (node : NodeId) (mode : UInt32) : Query Unit := pure ()
  /-- A request to a device: the bytes it answers, at most `room` of them. -/
  control (file : OpenFile) (request : UInt32) (input : ByteArray) (room : Nat) :
    Query ByteArray := throw .notSupported
  sync (file : OpenFile) : Query Unit := pure ()

/-- What the kinds of drivers and of operations stand for. -/
class Backends where
  driver : DriverKind → Driver
  ops : OpsKind → NodeOps

namespace DriverKind

variable [Backends]

def name (d : DriverKind) : String := (Backends.driver d).name

def mount (d : DriverKind) (id : Nat) (device : String) (flags : VolumeFlags) (args : String) :
    Act VolumeKey := do
  Action.note (.asked d (.mount id))
  (Backends.driver d).mount id device flags args

def locate (d : DriverKind) (volume : VolumeKey) (parent : NodeId) (name : String) :
    Query NodeId := do
  Query.note (.asked d (.locate volume parent name))
  (Backends.driver d).locate volume parent name

def createFile (d : DriverKind) (volume : VolumeKey) (parent : NodeId) (name : String)
    (flags : OpenFlags) (mode : UInt32) : Act OpenFile := do
  Action.note (.asked d (.createFile volume parent name))
  let file ← (Backends.driver d).createFile volume parent name flags mode
  Action.note (.opened file.node)
  pure file

def createDirectory (d : DriverKind) (volume : VolumeKey) (parent : NodeId) (name : String)
    (mode : UInt32) : Act Unit := do
  Action.note (.asked d (.createDirectory volume parent name))
  (Backends.driver d).createDirectory volume parent name mode

def createSymlink (d : DriverKind) (volume : VolumeKey) (parent : NodeId) (name target : String) :
    Act Unit := do
  Action.note (.asked d (.createSymlink volume parent name))
  (Backends.driver d).createSymlink volume parent name target

def rename (d : DriverKind) (volume : VolumeKey) (oldParent : NodeId) (oldName : String)
    (newParent : NodeId) (newName : String) (mustBeDirectory : Bool) : Act Unit := do
  Action.note (.asked d (.rename volume oldParent oldName newParent newName))
  (Backends.driver d).rename volume oldParent oldName newParent newName mustBeDirectory

def unlink (d : DriverKind) (volume : VolumeKey) (parent : NodeId) (name : String) : Act Unit := do
  Action.note (.asked d (.unlink volume parent name))
  (Backends.driver d).unlink volume parent name

def removeDirectory (d : DriverKind) (volume : VolumeKey) (parent : NodeId) (name : String) :
    Act Unit := do
  Action.note (.asked d (.removeDirectory volume parent name))
  (Backends.driver d).removeDirectory volume parent name

def sync (d : DriverKind) (volume : VolumeKey) : Query Unit := do
  Query.note (.asked d (.sync volume))
  (Backends.driver d).sync volume

end DriverKind

namespace OpsKind

variable [Backends]

def openFile (o : OpsKind) (volume : VolumeKey) (node : NodeId) (flags : OpenFlags) :
    Act OpenFile := do
  Action.note (.used o (.openFile node))
  let file ← (Backends.ops o).openFile volume node flags
  Action.note (.opened file.node)
  pure file

def openDirectory (o : OpsKind) (volume : VolumeKey) (node : NodeId) (flags : OpenFlags) :
    Query OpenFile := do
  Query.note (.used o (.openDirectory node))
  let file ← (Backends.ops o).openDirectory volume node flags
  Query.note (.opened file.node)
  pure file

def close (o : OpsKind) (file : OpenFile) (key : Option FileId) : Query Unit := do
  Query.note (.used o (.close file.node key))
  (Backends.ops o).close file

def read (o : OpsKind) (file : OpenFile) (position room : Nat) : Query ByteArray := do
  Query.note (.used o (.read file.node room))
  (Backends.ops o).read file position room

def write (o : OpsKind) (file : OpenFile) (position : Nat) (data : ByteArray) : Act Nat := do
  Action.note (.used o (.write file.node data.size))
  (Backends.ops o).write file position data

/-- Reads a link at a depth of nested links. -/
def readLink (o : OpsKind) (volume : VolumeKey) (node : NodeId) (depth : UInt32) :
    Query String := do
  Query.note (.used o (.readLink node depth))
  (Backends.ops o).readLink volume node

def entry (o : OpsKind) (volume : VolumeKey) (dir : NodeId) (index : Nat) :
    Query (Option DirEntry) :=
  (Backends.ops o).entry volume dir index

def status (o : OpsKind) (volume : VolumeKey) (node : NodeId) : Query Status :=
  (Backends.ops o).status volume node

def writeStatus (o : OpsKind) (volume : VolumeKey) (node : NodeId) (status : Status)
    (mask : StatusMask) : Act Unit :=
  (Backends.ops o).writeStatus volume node status mask

def checkAccess (o : OpsKind) (volume : VolumeKey) (node : NodeId) (mode : UInt32) : Query Unit :=
  (Backends.ops o).checkAccess volume node mode

def control (o : OpsKind) (file : OpenFile) (request : UInt32) (input : ByteArray) (room : Nat) :
    Query ByteArray :=
  (Backends.ops o).control file request input room

def sync (o : OpsKind) (file : OpenFile) : Query Unit := do
  Query.note (.used o (.sync file.node))
  (Backends.ops o).sync file

end OpsKind

end VirtualFs
