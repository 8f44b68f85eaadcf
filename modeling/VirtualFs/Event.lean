/-
What can be seen of a run besides its result: the calls made to drivers and
to node operations, in order, and the lines written to the log. A line keeps
what it is about; its level and its text are read off here.
-/
import VirtualFs.World

namespace VirtualFs

/-- A node as it is named in descriptions: by volume, number and mode. -/
structure NodeTag where
  volumeId : Nat
  ino : Nat
  mode : UInt32
  deriving DecidableEq, Repr, Inhabited

/-- The tag of a node at this moment. -/
def World.tag (w : World) (n : NodeId) : NodeTag :=
  let node := w.node n
  ⟨node.volumeId, node.ino, node.mode⟩

/-- The description of a node. -/
def NodeTag.text (t : NodeTag) : String :=
  "Inode \x7b volume: " ++ toString t.volumeId ++ ", ino: " ++ toString t.ino ++ ", mode: " ++
    Mode.octal t.mode ++ ", .. \x7d"

/-- A call to a driver. -/
inductive DriverCall where
  | mount (id : Nat)
  | locate (volume : VolumeKey) (parent : NodeId) (name : String)
  | createFile (volume : VolumeKey) (parent : NodeId) (name : String)
  | createDirectory (volume : VolumeKey) (parent : NodeId) (name : String)
  | createSymlink (volume : VolumeKey) (parent : NodeId) (name : String)
  | rename (volume : VolumeKey) (oldParent : NodeId) (oldName : String) (newParent : NodeId)
      (newName : String)
  | unlink (volume : VolumeKey) (parent : NodeId) (name : String)
  | removeDirectory (volume : VolumeKey) (parent : NodeId) (name : String)
  | sync (volume : VolumeKey)
  deriving DecidableEq, Repr

/-- A call to a node's operations. -/
inductive OpsCall where
  | openFile (node : NodeId)
  | openDirectory (node : NodeId)
  /-- Closing an open file of a node; one that no table ever held has no key. -/
  | close (node : NodeId) (file : Option FileId)
  | read (node : NodeId) (room : Nat)
  | write (node : NodeId) (size : Nat)
  /-- Reading a link, at a depth of nested links. -/
  | readLink (node : NodeId) (depth : UInt32)
  | sync (node : NodeId)
  deriving DecidableEq, Repr

/-- How much a log line matters. -/
inductive Level where
  | error
  | warn
  | info
  | debug
  | trace
  deriving DecidableEq, Repr, Inhabited

namespace Level

def rank : Level → Nat
  | error => 1
  | warn => 2
  | info => 3
  | debug => 4
  | trace => 5

def text : Level → String
  | error => "ERROR"
  | warn => "WARN"
  | info => "INFO"
  | debug => "DEBUG"
  | trace => "TRACE"

/-- The level of a name in small letters. -/
def ofName? : String → Option Level
  | "error" => some error
  | "warn" => some warn
  | "info" => some info
  | "debug" => some debug
  | "trace" => some trace
  | _ => none

end Level

/-- A line of the log. -/
inductive Message where
  /-- A name was looked up in a directory. -/
  | looked (dir : NodeTag) (name : String) (found : NodeTag)
  | nestedTooDeep (link : NodeTag)
  | chainTooLong (link : NodeTag)
  /-- A directory is not listed where its parent link says. -/
  | unlisted (child parent : NodeTag)
  | closeFailed (node : NodeTag) (cause : Error)
  | syncFailed (volumeId : Nat) (cause : Error)
  | opened (path : String) (handle : Handle)
  | filesystemAdded (name : String)
  | deviceAdded (path : String) (ino : Nat)
  | rootMounted (driver : String)
  | mounted (fs device : String) (volumeId : Nat) (dir : String)
  /-- A system call was refused by the operation it stands for. -/
  | callFailed (cause : Error)
  deriving DecidableEq, Repr

/-- The directory that holds device nodes, below "/". -/
def deviceDir : String := "dev"

namespace Message

def level : Message → Level
  | looked .. | opened .. => .trace
  | nestedTooDeep _ | chainTooLong _ | unlisted .. | closeFailed .. | syncFailed .. => .warn
  | filesystemAdded _ | deviceAdded .. | callFailed _ => .debug
  | rootMounted _ | mounted .. => .info

def text : Message → String
  | looked dir name found => "[VFS] lookup " ++ dir.text ++ "/" ++ name ++ " -> " ++ found.text
  | nestedTooDeep link => "[VFS] symlink nesting too deep at " ++ link.text
  | chainTooLong link => "[VFS] symlink chain too long at " ++ link.text
  | unlisted child parent => "[VFS] no entry for " ++ child.text ++ " in " ++ parent.text
  | closeFailed node cause => "[VFS] close of " ++ node.text ++ " failed: " ++ cause.message
  | syncFailed id cause => "[VFS] sync of volume " ++ toString id ++ " failed: " ++ cause.message
  | opened path handle => "[VFS] open '" ++ path ++ "' -> " ++ handle.text
  | filesystemAdded name => "[VFS] registered filesystem '" ++ name ++ "'"
  | deviceAdded path ino =>
    "[VFS] device /" ++ deviceDir ++ "/" ++ path ++ " registered as " ++ toString ino
  | rootMounted driver =>
    "[VFS] root volume " ++ toString rootVolumeId ++ " mounted (" ++ driver ++ ")"
  | mounted fs device id dir =>
    "[VFS] mounted " ++ fs ++ " '" ++ device ++ "' as volume " ++ toString id ++ " on " ++ dir
  | callFailed cause => "[SYSCALL] failed: " ++ cause.message

/-- The line as it is printed: the level, then the text. -/
def line (m : Message) : String := m.level.text ++ " " ++ m.text

end Message

/-- One thing seen during a run. -/
inductive Event where
  /-- A driver was called. -/
  | asked (driver : DriverKind) (call : DriverCall)
  /-- A node's operations were called. -/
  | used (ops : OpsKind) (call : OpsCall)
  /-- An open file came into being that has to be closed. -/
  | opened (node : NodeId)
  | logged (message : Message)

/-- The lines of at least a level of importance, in order. -/
def logLines (level : Level) (trace : List Event) : List String :=
  trace.filterMap fun
    | .logged message => if message.level.rank ≤ level.rank then some message.line else none
    | _ => none

end VirtualFs
