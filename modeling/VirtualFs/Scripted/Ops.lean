/-
Node operations that follow a script. Every operation fails if the script
says so, and then answers from the script or keeps its default.
-/
import VirtualFs.Bytes
import VirtualFs.Driver
import VirtualFs.Scripted.Script

namespace VirtualFs.Scripted

open Query (demand expect ofResult look)

/-- The request that fetches the script's control bytes. -/
def fetchRequest : UInt32 := 0x5401

/-- The request that answers its input backwards. -/
def reverseRequest : UInt32 := 0x5402

/-- The children of a scripted directory. -/
def childrenOf (dir : NodeId) : Query (NameMap NodeId) := do
  match ← look fun w => (w.node dir).payload with
  | .scripted (some children) => pure children
  | _ => throw .notADirectory

/-- The entry of a scripted directory with a number; the directory itself is not listed. -/
def nthEntry (dir : NodeId) (index : Nat) : Query (Option DirEntry) := do
  let children ← childrenOf dir
  let w ← Query.world
  pure (children.entries[index]?.map fun (name, child) =>
    { name
      ino := (w.node child).ino
      volume := (w.node child).volumeId
      type := Mode.entryType (w.node child).mode })

/-- The bytes a control request answers, before they are cut to the room for them. -/
def controlAnswer (s : Script) (request : UInt32) (input : ByteArray) : Except Error ByteArray :=
  if request = fetchRequest then .ok s.control
  else if request = reverseRequest then .ok ⟨input.data.reverse⟩
  else .error .notSupported

/-- The operations whose every request keeps its default. -/
def bareOps : NodeOps := {}

/-- The operations that follow a script. -/
def ops (s : Script) : NodeOps where
  openFile volume n flags := do
    ofResult (s.pass .opening)
    bareOps.openFile volume n flags
  openDirectory volume n flags := do
    ofResult (s.pass .opening)
    bareOps.openDirectory volume n flags
  close _ := ofResult (s.pass .closing)
  read _ _ room := do
    ofResult (s.pass .read)
    pure (Bytes.fill s.value (s.share room))
  write _ _ data := do
    ofResult (s.pass .write)
    pure (s.share data.size)
  readLink _ _ := do
    ofResult (s.pass .readLink)
    pure s.target
  entry _ dir index := do
    ofResult (s.pass .listing)
    nthEntry dir index
  status volume n := do
    ofResult (s.pass .status)
    match s.size with
    | none => bareOps.status volume n
    | some size =>
      let status ← look (·.plainStatus n)
      pure { status with size }
  checkAccess volume n mode := do
    demand (mode &&& s.deny = 0) .accessDenied
    bareOps.checkAccess volume n mode
  control _ request input room := do
    ofResult (s.pass .control)
    let answer ← ofResult (controlAnswer s request input)
    pure (answer.extract 0 room)
  sync _ := ofResult (s.pass .sync)

end VirtualFs.Scripted
