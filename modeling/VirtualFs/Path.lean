/-
Paths as text. A path is cut at its slashes; the pieces before the last one
that are not empty are the directories to pass through, and the last piece,
which may be empty, is the name the path is about.
-/
import VirtualFs.Error
import VirtualFs.Limits

namespace VirtualFs

/-- The pieces of a text between its slashes. There is always at least one. -/
def pieces : List Char → List (List Char)
  | [] => [[]]
  | c :: rest =>
    if c = '/' then [] :: pieces rest
    else
      match pieces rest with
      | [] => [[c]]
      | piece :: more => (c :: piece) :: more

/-- A path taken apart. -/
structure Route where
  /-- Starts at the root of everything. -/
  absolute : Bool
  /-- The names passed through, none of them empty. -/
  dirs : List String
  /-- The last name; empty when the path is empty or ends in a slash. -/
  name : String
  deriving DecidableEq, Repr, Inhabited

/-- The route a path describes. -/
def Route.ofPath (path : String) : Route :=
  let parts := pieces path.toList
  { absolute := path.toList.head? == some '/'
    dirs := (parts.dropLast.filter fun part => !part.isEmpty).map String.ofList
    name := String.ofList (parts.getLastD []) }

/-- A path without the slashes at its end, and whether there were any. A path of slashes alone
stands for the root and keeps one. -/
def stripSlashes (path : String) : String × Bool :=
  let text := path.toList
  let kept := (text.reverse.dropWhile (· == '/')).reverse
  if kept.isEmpty then (String.ofList (text.take 1), 1 < text.length)
  else (String.ofList kept, kept.length != text.length)

/-- Whether a name may be created, removed or moved. -/
def checkName (name : String) : Except Error Unit :=
  if name = "" ∨ name = "." ∨ name = ".." then .error .invalidArgument
  else if nameMax < name.utf8ByteSize then .error .nameTooLong
  else .ok ()

theorem pieces_ne_nil (text : List Char) : pieces text ≠ [] := by
  cases text with
  | nil => simp [pieces]
  | cons c rest =>
    simp only [pieces]
    split
    · simp
    · split <;> simp

/-- No piece holds a slash. -/
theorem slash_notMem_of_mem_pieces {text piece : List Char} (h : piece ∈ pieces text) :
    '/' ∉ piece := by
  induction text generalizing piece with
  | nil => simp only [pieces, List.mem_singleton] at h; subst h; simp
  | cons c rest ih =>
    simp only [pieces] at h
    split at h
    · rcases List.mem_cons.1 h with rfl | h
      · simp
      · exact ih h
    · next hc =>
      split at h
      · next he => exact absurd he (pieces_ne_nil rest)
      · next p more he =>
        rcases List.mem_cons.1 h with rfl | h
        · have : '/' ∉ p := ih (by simp [he])
          simp [this, Ne.symm hc]
        · exact ih (by simp [he, h])

end VirtualFs
