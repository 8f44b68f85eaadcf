/-
One name looked up in one directory. What a lookup does before it comes to
links is a query of its own (`lookIn`): it ends at a node, or it sees a node
in a directory, and only then does the caller's treatment of links decide.
-/
import VirtualFs.Action.Lemmas
import VirtualFs.Resolve

namespace VirtualFs

open Query (demand look)

/-- What a name in a directory comes to, before any link is followed. -/
inductive Sight where
  /-- The lookup ends here. -/
  | here (n : NodeId)
  /-- A node was found in a directory. -/
  | entry (dir n : NodeId)
  deriving DecidableEq, Repr, Inhabited

variable [Backends]

/-- Looks at a name in a directory. -/
def lookIn (parent : NodeId) (name : String) (crossing : Bool) : Query Sight := do
  if name = "" then pure (.here parent)
  else if name = "." then
    demand (← look (·.isDirectory parent)) .notADirectory
    pure (.here parent)
  else
    match ← lookupDirectory parent name with
    | none => pure (.here parent)
    | some dir =>
      demand (← look (·.isDirectory dir)) .notADirectory
      let volume ← volumeOf dir
      let driver ← look fun w => (w.node dir).driver
      let found ← driver.locate volume dir name
      let w ← Query.world
      Query.log (.looked (w.tag dir) name (w.tag found))
      pure (.entry dir (if crossing then w.cross found else found))

/-- A lookup is a look at the name, and then the treatment of links. -/
theorem resolveName_eq_lookIn (follow : Follow) (parent : NodeId) (name : String)
    (flags : LookupMode) :
    resolveName follow parent name flags = (do
      match ← lookIn parent name flags.crossMounts with
      | .here n => pure n
      | .entry dir n => if flags.followLinks then follow dir n else pure n) := by
  unfold resolveName lookIn
  by_cases hempty : name = ""
  · simp [hempty]
  by_cases hdot : name = "."
  · simp [hdot]
  simp only [hempty, hdot, if_false, bind_assoc]
  congr 1
  funext dir
  cases dir <;> simp

end VirtualFs
