/-
The tables that give open files their numbers. A number is reserved before
the file behind it exists, and bound once it does, so that a full table
stops an open before it has done anything. A handle that belongs to the
other kind of table is never found.
-/
import VirtualFs.Lifetime

namespace VirtualFs

open Query (demand expect ofResult look)

/-- Whether a handle belongs to a context, by the bit that selects the kernel's. -/
def belongs (c : ContextId) (h : Handle) : Query Unit := do
  demand (h.isKernel = (← look fun w => (w.context c).kernel)) .badHandle

/-- The open file a handle is bound to in a context. -/
def lookupHandle (c : ContextId) (h : Handle) : Query FileId := do
  belongs c h
  expect (← look fun w => (w.context c).files.get? h.slot) .badHandle

/-- The open file a task's handle stands for. -/
def fileOf (t : TaskId) (h : Handle) : Query FileId := do
  lookupHandle (← look (·.contextOf t h.isKernel)) h

/-- What a task's handle stands for. -/
def openFileOf (t : TaskId) (h : Handle) : Query OpenFile := do
  let f ← fileOf t h
  look (·.file f)

/-- Reserves the lowest free number of a context. -/
def allocateHandle (c : ContextId) : Act Handle := do
  let context ← Action.look (·.context c)
  match context.files.reserve with
  | none => throw .tooManyOpenFiles
  | some (slot, files) =>
    Action.change (·.setContext c fun context => { context with files })
    pure (.ofSlot slot context.kernel)

/-- Frees a number, with the open file that was bound to it. -/
def freeHandle (c : ContextId) (h : Handle) : Act (Option FileId) := do
  let context ← Action.look (·.context c)
  if h.isKernel = context.kernel then
    let (f, files) := context.files.release h.slot
    Action.change (·.setContext c fun context => { context with files })
    pure f
  else pure none

/-- Whether a number is reserved in a context, so that a file may be bound to it. -/
def bindable (c : ContextId) (h : Handle) : Query Unit := do
  belongs c h
  demand (← look fun w => (w.context c).files.isReserved h.slot) .badHandle

/-- Binds an open file to a reserved number. -/
def bindHandle (c : ContextId) (h : Handle) (f : FileId) : Act Unit := do
  bindable c h
  let context ← Action.look (·.context c)
  match context.files.fill h.slot f with
  | .error _ => throw .badHandle
  | .ok files => Action.change (·.setContext c fun context => { context with files })

/-- Whether a file may be bound to a number of the caller's choice: it must be within the limit,
and one that an open has reserved is busy. -/
def installable (c : ContextId) (h : Handle) : Query Unit := do
  belongs c h
  let files ← look fun w => (w.context c).files
  demand (h.slot < files.limit) .badHandle
  demand (!files.isReserved h.slot) .busy

/-- Binds an open file to a number of the caller's choice, with the file it displaces. -/
def installHandle (c : ContextId) (h : Handle) (f : FileId) : Act (Option FileId) := do
  installable c h
  let context ← Action.look (·.context c)
  match context.files.replace h.slot f with
  | .error _ => throw .busy
  | .ok (displaced, files) =>
    Action.change (·.setContext c fun context => { context with files })
    pure displaced

/-- Adds an open file that no table holds yet. -/
def addFile (file : OpenFile) : Act FileId := do
  let f ← Action.look (·.files.nextKey)
  Action.change fun w => { w with files := w.files.push file }
  pure f

variable [Backends]

/-- Frees a number and drops what it was bound to. -/
def giveBack (c : ContextId) (h : Handle) : Act Unit := do dropDisplaced (← freeHandle c h)

/-- Reserves a number and gives it to the work, which returns the file that gets it; the number is
free again if the work fails. -/
def withReserved (c : ContextId) (work : Handle → Act Handle) : Act Handle := do
  let h ← allocateHandle c
  (work h).orUndo (giveBack c h)

/-- Binds a new open file to a reserved number; the file is closed if the number cannot be had. -/
def commitFile (c : ContextId) (h : Handle) (file : OpenFile) : Act Handle := do
  match ← Query.attempt (bindable c h) with
  | .error e =>
    closeFile none file
    throw e
  | .ok () =>
    bindHandle c h (← addFile file)
    pure h

/-- Empties a table; its open files are dropped in the order of their numbers. -/
def emptyTable (c : ContextId) : Act Unit := do
  let (files, table) := (← Action.look (·.context c)).files.drain
  Action.change (·.setContext c fun context => { context with files := table })
  dropFiles files

/-- Ends a context: its table is emptied and its working directory let go. -/
def retireContext (c : ContextId) : Act Unit := do
  emptyTable c
  setWorkingDirectory c (← Action.look (·.rootNode))

/-- How many numbers of a context are bound. -/
def boundCount (w : World) (c : ContextId) : Nat := (w.context c).files.occupied

end VirtualFs
