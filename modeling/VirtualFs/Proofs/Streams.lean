/-
What files and streams are to those who read and write them: a list of bytes
for every file, and for every stream that was opened a position in its file.
The machine knows nothing of names, handles or arrays; it is told which file is
opened and what each call asks of which stream. Its answers are those of the
library (`Operation.streams_refine`).

A list of segments is one list of bytes, a list of buffers is one space to fill.
-/
import VirtualFs.RamFs.Files
import Mathlib.Data.List.SplitLengths
import Mathlib.Logic.Function.Basic

namespace VirtualFs

/-- An open byte stream: its node, its flags, and the position of the next transfer. -/
@[ext]
structure Stream where
  node : NodeId
  flags : OpenFlags
  position : Nat
  deriving DecidableEq, Repr, Inhabited

/-- The bytes of every file, and every stream that has been opened. -/
structure Streams where
  bytes : NodeId → List UInt8
  stream : FileId → Option Stream

/-- What is asked of files and streams. A transfer goes to a place, or without one goes on at the
position of its stream and moves it. -/
inductive StreamCall where
  | read (f : FileId) (place : Option Nat) (buffers : List (List UInt8))
  | write (f : FileId) (place : Option Nat) (segments : List (List UInt8))
  | seek (f : FileId) (offset : Int) (origin : SeekOrigin)
  | setFlags (f : FileId) (flags : OpenFlags)
  /-- Cuts or extends a file, which may lie on a volume that is only read. -/
  | resize (n : NodeId) (readOnly : Bool) (size : Nat)
  /-- A file is opened, and becomes a stream if a number could be bound to it. -/
  | opened (f : Option FileId) (n : NodeId) (flags : OpenFlags)
  /-- The file of a stream is opened once more, at the same position. -/
  | reopened (f copy : FileId)
  deriving DecidableEq, Repr

/-- How a call ends: with a count or a position, if it has one, and with its buffers. -/
structure StreamAnswer where
  result : Except Error Nat
  buffers : List (List UInt8) := []
  deriving DecidableEq, Repr

namespace Streams

/-! ## Lists of bytes -/

/-- The bytes from a position on, at most so many. -/
def window (bytes : List UInt8) (position room : Nat) : List UInt8 :=
  (bytes.drop position).take room

/-- The buffers, whose bytes in a row begin with the data and go on as they were. -/
def refill (data : List UInt8) (buffers : List (List UInt8)) : List (List UInt8) :=
  (buffers.map List.length).splitLengths (data ++ buffers.flatten.drop data.length)

/-- The bytes with `data` at a position, after zeros if there is a gap. -/
def overwrite (bytes : List UInt8) (position : Nat) (data : List UInt8) : List UInt8 :=
  bytes.take position ++ List.replicate (position - bytes.length) 0 ++ data ++
    bytes.drop (position + data.length)

/-- The bytes cut to a size, or extended to it with zeros. -/
def resize (bytes : List UInt8) (size : Nat) : List UInt8 :=
  bytes.take size ++ List.replicate (size - bytes.length) 0

@[simp] theorem length_window (bytes : List UInt8) (position room : Nat) :
    (window bytes position room).length = min room (bytes.length - position) := by
  rw [window, List.length_take, List.length_drop]

theorem length_overwrite (bytes : List UInt8) (position : Nat) (data : List UInt8) :
    (overwrite bytes position data).length = max bytes.length (position + data.length) := by
  simp only [overwrite, List.length_append, List.length_take, List.length_replicate,
    List.length_drop]
  omega

@[simp] theorem length_resize (bytes : List UInt8) (size : Nat) :
    (resize bytes size).length = size := by
  simp only [resize, List.length_append, List.length_take, List.length_replicate]
  omega

/-! ## The machine -/

/-- Nothing has been opened, and no file holds any bytes. -/
def blank : Streams where
  bytes _ := []
  stream _ := none

variable (m : Streams)

def setBytes (n : NodeId) (bytes : List UInt8) : Streams :=
  { m with bytes := Function.update m.bytes n bytes }

def setStream (f : FileId) (s : Stream) : Streams :=
  { m with stream := Function.update m.stream f (some s) }

theorem setBytes_self (n : NodeId) (bytes : List UInt8) : (m.setBytes n bytes).bytes n = bytes :=
  Function.update_self ..

theorem setBytes_of_ne {n n' : NodeId} (h : n' ≠ n) (bytes : List UInt8) :
    (m.setBytes n bytes).bytes n' = m.bytes n' :=
  Function.update_of_ne h ..

theorem setStream_self (f : FileId) (s : Stream) : (m.setStream f s).stream f = some s :=
  Function.update_self ..

theorem setStream_of_ne {f f' : FileId} (h : f' ≠ f) (s : Stream) :
    (m.setStream f s).stream f' = m.stream f' :=
  Function.update_of_ne h ..

/-- Moves a stream past a transfer that had no place of its own. -/
def pass (f : FileId) (s : Stream) (place : Option Nat) (next : Nat) : Streams :=
  match place with
  | some _ => m
  | none => m.setStream f { s with position := next }

/-- Reads from a place, or from the position of the stream. -/
def read (f : FileId) (s : Stream) (place : Option Nat) (buffers : List (List UInt8)) :
    StreamAnswer × Streams :=
  if s.flags.readable then
    let position := place.getD s.position
    let data := window (m.bytes s.node) position buffers.flatten.length
    (⟨.ok data.length, refill data buffers⟩, m.pass f s place (position + data.length))
  else (⟨.error .badHandle, buffers⟩, m)

/-- Writes to a place, or else to the end of a file that is appended to, or else to the position of
the stream. Writing nothing changes no byte. -/
def write (f : FileId) (s : Stream) (place : Option Nat) (segments : List (List UInt8)) :
    StreamAnswer × Streams :=
  if s.flags.writable then
    let bytes := m.bytes s.node
    let data := segments.flatten
    let position := place.getD (if s.flags.appends then bytes.length else s.position)
    if data = [] then ({ result := .ok 0 }, m.pass f s place position)
    else if position + data.length ≤ RamFs.fileSizeMax then
      ({ result := .ok data.length },
        (m.setBytes s.node (overwrite bytes position data)).pass f s place (position + data.length))
    else ({ result := .error .fileTooLarge }, m)
  else ({ result := .error .badHandle }, m)

/-- Where a seek counts from. -/
def seekBase (s : Stream) : SeekOrigin → Nat
  | .start => 0
  | .current => s.position
  | .finish => (m.bytes s.node).length

/-- Moves a stream, not before the start of its file nor past what a position may be. -/
def seek (f : FileId) (s : Stream) (offset : Int) (origin : SeekOrigin) : StreamAnswer × Streams :=
  let target := (m.seekBase s origin : Int) + offset
  if 0 ≤ target ∧ target ≤ positionMax then
    ({ result := .ok target.toNat }, m.setStream f { s with position := target.toNat })
  else ({ result := .error .invalidArgument }, m)

/-- Cuts or extends a file. -/
def setSize (n : NodeId) (readOnly : Bool) (size : Nat) : StreamAnswer × Streams :=
  if readOnly then ({ result := .error .readOnly }, m)
  else if size ≤ RamFs.fileSizeMax then
    ({ result := .ok 0 }, m.setBytes n (resize (m.bytes n) size))
  else ({ result := .error .fileTooLarge }, m)

/-- Empties a file that is opened for writing, if that is asked for. -/
def emptied (n : NodeId) (flags : OpenFlags) : Streams :=
  if flags.truncates && flags.writable then m.setBytes n [] else m

/-- What a stream remembers of the flags that it was opened with. -/
def remembered (flags : OpenFlags) : OpenFlags :=
  flags.without (OpenFlags.createBit ||| OpenFlags.kernelBit)

/-- Answers a call. What is opened gets its answer elsewhere, and a stream that was not opened gets
none. -/
def serve : StreamCall → Option StreamAnswer × Streams
  | .opened f n flags =>
    let m := m.emptied n flags
    (none,
      match f with
      | some f => m.setStream f { node := n, flags := remembered flags, position := 0 }
      | none => m)
  | .read f place buffers => onStream f fun s => m.read f s place buffers
  | .write f place segments => onStream f fun s => m.write f s place segments
  | .seek f offset origin => onStream f fun s => m.seek f s offset origin
  | .setFlags f flags => onStream f fun s =>
    ({ result := .ok 0 }, m.setStream f { s with flags := s.flags.withStatus flags })
  | .resize n readOnly size => ((m.setSize n readOnly size).1, (m.setSize n readOnly size).2)
  | .reopened f copy =>
    (none,
      match m.stream f with
      | some s =>
        m.setStream copy { s with flags := remembered (s.flags.without OpenFlags.truncateBit) }
      | none => m)
where
  /-- Asks a stream, if it is there. -/
  onStream (f : FileId) (ask : Stream → StreamAnswer × Streams) : Option StreamAnswer × Streams :=
    match m.stream f with
    | some s => ((ask s).1, (ask s).2)
    | none => (none, m)

/-- Answers calls in their order. -/
def serveAll : List StreamCall → Streams → List (Option StreamAnswer) × Streams
  | [], m => ([], m)
  | call :: rest, m =>
    let (answer, m) := m.serve call
    let (answers, m) := serveAll rest m
    (answer :: answers, m)

/-! ## Bounds -/

/-- No file is longer than a file may be, and no stream is past what a position may be. -/
structure Bounded (m : Streams) : Prop where
  bytes : ∀ n, (m.bytes n).length ≤ RamFs.fileSizeMax
  position : ∀ f s, m.stream f = some s → s.position ≤ positionMax

namespace Bounded

variable {m : Streams} (h : m.Bounded)

include h

theorem setBytes {n : NodeId} {bytes : List UInt8} (hbytes : bytes.length ≤ RamFs.fileSizeMax) :
    (m.setBytes n bytes).Bounded where
  bytes n' := by
    by_cases hn : n' = n
    · rw [hn, setBytes_self]
      exact hbytes
    · rw [setBytes_of_ne m hn]
      exact h.bytes n'
  position f s hs := h.position f s hs

theorem setStream {f : FileId} {s : Stream} (hs : s.position ≤ positionMax) :
    (m.setStream f s).Bounded where
  bytes n := h.bytes n
  position f' s' hs' := by
    by_cases hf : f' = f
    · rw [hf, setStream_self] at hs'
      cases hs'
      exact hs
    · rw [setStream_of_ne m hf] at hs'
      exact h.position f' s' hs'

theorem pass {f : FileId} {s : Stream} {place : Option Nat} {next : Nat}
    (hnext : place = none → next ≤ positionMax) : (m.pass f s place next).Bounded := by
  cases place with
  | some _ => exact h
  | none => exact h.setStream (hnext rfl)

theorem emptied (n : NodeId) (flags : OpenFlags) : (m.emptied n flags).Bounded := by
  rw [Streams.emptied]
  split
  · exact h.setBytes (Nat.zero_le _)
  · exact h

/-- No transfer ends past what a position may be: a read ends where it began or within its file. -/
theorem read {f : FileId} {s : Stream} (hs : m.stream f = some s) (place : Option Nat)
    (buffers : List (List UInt8)) : (m.read f s place buffers).2.Bounded := by
  rw [Streams.read]
  split
  · refine h.pass fun hplace => ?_
    have hsize := h.bytes s.node
    have hposition := h.position f s hs
    have hmax : RamFs.fileSizeMax ≤ positionMax := by decide
    rw [hplace, Option.getD_none, length_window]
    omega
  · exact h

theorem write {f : FileId} {s : Stream} (hs : m.stream f = some s) (place : Option Nat)
    (segments : List (List UInt8)) : (m.write f s place segments).2.Bounded := by
  have hsize := h.bytes s.node
  have hmax : RamFs.fileSizeMax ≤ positionMax := by decide
  rw [Streams.write]
  split
  · have hposition := h.position f s hs
    have hhere : (if s.flags.appends then (m.bytes s.node).length else s.position) ≤
        positionMax := by
      split <;> omega
    dsimp only
    generalize (if s.flags.appends then (m.bytes s.node).length else s.position) = here at hhere ⊢
    split
    · refine h.pass fun hplace => ?_
      rw [hplace]
      exact hhere
    · split
      · next hfits =>
        refine (h.setBytes ?_).pass fun _ => Nat.le_trans hfits hmax
        rw [length_overwrite]
        exact Nat.max_le.2 ⟨hsize, hfits⟩
      · exact h
  · exact h

theorem seek {f : FileId} {s : Stream} (offset : Int) (origin : SeekOrigin) :
    (m.seek f s offset origin).2.Bounded := by
  rw [Streams.seek]
  split
  · next htarget => exact h.setStream (Int.toNat_le.2 htarget.2)
  · exact h

theorem setSize (n : NodeId) (readOnly : Bool) (size : Nat) :
    (m.setSize n readOnly size).2.Bounded := by
  rw [Streams.setSize]
  split
  · exact h
  · split
    · next hsize => exact h.setBytes (by rwa [length_resize])
    · exact h

theorem onStream {f : FileId} {ask : Stream → StreamAnswer × Streams}
    (hask : ∀ s, m.stream f = some s → (ask s).2.Bounded) : (serve.onStream m f ask).2.Bounded := by
  rw [serve.onStream]
  split
  · next s hs => exact hask s hs
  · exact h

theorem serve (call : StreamCall) : (m.serve call).2.Bounded := by
  cases call with
  | read f place buffers => exact h.onStream fun s hs => h.read hs place buffers
  | write f place segments => exact h.onStream fun s hs => h.write hs place segments
  | seek f offset origin => exact h.onStream fun s _ => h.seek offset origin
  | setFlags f flags => exact h.onStream fun s hs => h.setStream (h.position f s hs)
  | resize n readOnly size => exact h.setSize n readOnly size
  | opened f n flags =>
    cases f with
    | none => exact h.emptied n flags
    | some f => exact (h.emptied n flags).setStream (Nat.zero_le _)
  | reopened f copy =>
    rw [Streams.serve]
    dsimp only
    split
    · next s hs => exact h.setStream (h.position f s hs)
    · exact h

theorem serveAll (calls : List StreamCall) : (Streams.serveAll calls m).2.Bounded := by
  induction calls generalizing m with
  | nil => exact h
  | cons call rest ih => exact ih (h.serve call)

end Bounded

theorem bounded_blank : blank.Bounded := ⟨fun _ => Nat.zero_le _, nofun⟩

end Streams

end VirtualFs
