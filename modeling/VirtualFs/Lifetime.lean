/-
How long things live. A node lives while something that lives refers to it:
a volume to its root, a directory to its children, a mount point to the root
mounted on it, an open file to its node, a context to its working directory,
a caller to what it holds by name. `settle` takes away every node nothing
refers to, and then what only those referred to, until nothing is left to
take. An open file lives while some table holds it, and is closed as it
goes.
-/
import VirtualFs.Driver

namespace VirtualFs

/-- The nodes a node keeps alive. -/
def Node.references (n : Node) : List NodeId := n.payload.children.values ++ n.mountRoot.toList

namespace World

/-- Every reference that keeps a node alive. -/
def references (w : World) : List NodeId :=
  w.volumes.toList.map (·.root) ++ w.nodes.toList.flatMap Node.references ++
    w.files.toList.map (·.node) ++ w.contexts.toList.map (·.cwd) ++ w.pins.values

/-- Marks the keys that occur in a list, of so many. -/
def marks (size : Nat) (keys : List Nat) : Array Bool :=
  keys.foldl (fun marked key => marked.setIfInBounds key true) (Array.replicate size false)

/-- The world without the nodes that nothing refers to. -/
def sweep (w : World) : World :=
  let marked := marks w.nodes.size w.references
  { w with nodes := w.nodes.keep fun n => marked.getD n false }

/-- How many nodes live. -/
def liveNodes (w : World) : Nat := w.nodes.toList.length

/-- Sweeps until a sweep takes nothing, at most so many times. -/
def settleFor : Nat → World → World
  | 0, w => w
  | rounds + 1, w =>
    let swept := w.sweep
    if swept.liveNodes = w.liveNodes then w else settleFor rounds swept

/-- The world in which every node is referred to. Each sweep but the last takes a node, so as many
rounds as there are nodes are enough. -/
def settle (w : World) : World := settleFor w.nodes.size w

/-- Whether some table holds an open file. -/
def holdsFile (w : World) (f : FileId) : Bool :=
  w.contexts.any fun context => context.files.values.contains f

end World

variable [Backends]

/-- Closes an open file whose last reference is gone, by its key if a table has held it. A node
opened for its path alone is never closed; a failing close is only logged. -/
def closeFile (key : Option FileId) (file : OpenFile) : Query Unit := do
  if file.isPath then pure ()
  else
    match ← Query.look fun w => (w.node file.node).ops with
    | none => pure ()
    | some ops =>
      match ← Query.attempt (ops.close file key) with
      | .ok () => pure ()
      | .error cause =>
        let tag ← Query.look fun w => w.tag file.node
        Query.log (.closeFailed tag cause)

/-- Closes an open file if no table holds it any more. -/
def dropFile (f : FileId) : Act Unit := do
  if ← Action.look fun w => w.holdsFile f || !w.files.has f then pure ()
  else
    closeFile (some f) (← Action.look fun w => w.file f)
    Action.change fun w => { w with files := w.files.remove f }.settle

/-- Drops open files in order; one that occurs several times goes at its last occurrence. -/
def dropFiles : List FileId → Act Unit
  | [] => pure ()
  | f :: rest => do
    if rest.contains f then pure () else dropFile f
    dropFiles rest

/-- Drops what a number was bound to, if anything. -/
def dropDisplaced : Option FileId → Act Unit
  | some f => dropFile f
  | none => pure ()

/-- Changes the working directory of a context. -/
def setWorkingDirectory (c : ContextId) (n : NodeId) : Act Unit :=
  Action.change fun w => (w.setContext c fun context => { context with cwd := n }).settle

/-- Holds a node under a name, in place of what was held there. -/
def holdNode (name : String) (n : NodeId) : Act Unit :=
  Action.change fun w => { w with pins := w.pins.insert name n }.settle

/-- Lets go of what is held under a name, and says whether anything was. -/
def releaseNode (name : String) : Act Bool := do
  let held ← Action.look fun w => w.pins.contains name
  Action.change fun w => { w with pins := w.pins.erase name }.settle
  pure held

end VirtualFs
