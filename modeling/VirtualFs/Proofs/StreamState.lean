/-
What the machine of bytes and streams is to a world (`Streams.Tells`): it tells
the bytes of every regular file that is there, and of every open file whether it
is a stream on a regular file and which. Of files that are gone it may remember
anything; what is not yet made or opened is blank.

Changes that are none of the machine's business leave it right, and each change
of bytes or of a stream is one of its own.
-/
import VirtualFs.Proofs.ByteStrings
import VirtualFs.Proofs.Edit
import VirtualFs.Proofs.SameStreams

namespace VirtualFs

/-- What a stream is to the library. -/
def Stream.file (s : Stream) : OpenFile where
  node := s.node
  flags := s.flags
  kind := .stream s.position

theorem OpenFile.stream?_eq_some {file : OpenFile} {s : Stream} :
    file.stream? = some s ↔ file = s.file := by
  obtain ⟨node, flags, kind⟩ := file
  cases kind with
  | stream position =>
    constructor
    · rintro ⟨⟩
      rfl
    · intro heq
      cases heq
      rfl
  | directory | path => exact ⟨nofun, nofun⟩

/-- What is no stream is not moved. -/
theorem OpenFile.setPosition_of_stream?_none {file : OpenFile} (h : file.stream? = none)
    (position : Nat) : file.setPosition position = file := by
  rw [setPosition]
  split
  · next hkind =>
    rw [stream?, hkind] at h
    cases h
  · rfl

@[simp] theorem Stream.stream?_file (s : Stream) : s.file.stream? = some s := rfl

/-! ## Regular files -/

theorem Node.IsRam.bytes?_eq_some {node : Node} (h : node.IsRam) {bytes : ByteArray} :
    node.bytes? = some bytes ↔ node.ram.content = .file bytes := by
  rw [bytes?, h.payload]
  dsimp only
  split
  · next held hheld => rw [hheld, Option.some.injEq, Content.file.injEq]
  · next hnot => exact ⟨fun hnone => (by cases hnone), fun hheld => absurd hheld (hnot bytes)⟩

/-- The mode tells regular files apart. -/
theorem Node.IsRam.isSome_bytes? {node : Node} (h : node.IsRam) :
    node.bytes?.isSome = true ↔ Mode.typeBits node.mode = Mode.regular := by
  rw [h.type, bytes?, h.payload]
  dsimp only
  cases node.ram.content with
  | file bytes => exact ⟨fun _ => rfl, fun _ => rfl⟩
  | directory | symlink | device =>
    refine ⟨fun hsome => absurd hsome (by simp), fun htype => ?_⟩
    simp only [Content.type] at htype
    exact absurd htype (by decide)

namespace World

variable {w w' : World} {n : NodeId} {f : FileId} {s : Stream} {bytes : ByteArray}

theorem live_of_bytes? (h : (w.node n).bytes? = some bytes) : w.Live n := by
  refine Decidable.byContradiction fun hdead => ?_
  rw [node_of_not_live hdead] at h
  cases h

/-- The stream that a file is, if it is one on a regular file. -/
def asStream (w : World) (file : OpenFile) : Option Stream :=
  if (w.node file.node).bytes?.isSome then file.stream? else none

/-- The stream that an open file is, if it is one on a regular file. -/
def stream? (w : World) (f : FileId) : Option Stream := (w.files.get? f).bind w.asStream

theorem asStream_eq_some {file : OpenFile} : w.asStream file = some s ↔
    file = s.file ∧ ∃ bytes, (w.node s.node).bytes? = some bytes := by
  rw [asStream]
  constructor
  · intro hstream
    split at hstream
    · next hregular =>
      rw [OpenFile.stream?_eq_some] at hstream
      subst hstream
      exact ⟨rfl, Option.isSome_iff_exists.1 hregular⟩
    · cases hstream
  · rintro ⟨rfl, hbytes⟩
    exact if_pos (Option.isSome_iff_exists.2 hbytes)

theorem asStream_congr (h : ∀ n, (w'.node n).bytes? = (w.node n).bytes?) :
    w'.asStream = w.asStream := by
  funext file
  rw [asStream, asStream, h]

theorem stream?_eq_some : w.stream? f = some s ↔
    w.files.get? f = some s.file ∧ ∃ bytes, (w.node s.node).bytes? = some bytes := by
  rw [stream?, Option.bind_eq_some_iff]
  constructor
  · rintro ⟨file, hget, hstream⟩
    obtain ⟨rfl, hbytes⟩ := asStream_eq_some.1 hstream
    exact ⟨hget, hbytes⟩
  · rintro ⟨hget, hbytes⟩
    exact ⟨s.file, hget, asStream_eq_some.2 ⟨rfl, hbytes⟩⟩

theorem file_of_stream? (h : w.stream? f = some s) : w.file f = s.file := by
  rw [World.file, (stream?_eq_some.1 h).1, Option.getD_some]

/-- The world with the bytes of a file replaced. -/
def withBytes (w : World) (n : NodeId) (bytes : ByteArray) : World :=
  w.setNode n (Node.mapRam fun ram => { ram with content := .file bytes })

theorem bytes?_withBytes (hold : (w.node n).bytes? = some bytes) (new : ByteArray) (m : NodeId) :
    ((w.withBytes n new).node m).bytes? =
      if m = n then some new else (w.node m).bytes? := by
  rw [withBytes, node_setNode (live_of_bytes? hold)]
  split
  · rcases hpayload : (w.node n).payload with ram | children
    · simp only [Node.bytes?, Node.mapRam, hpayload]
    · rw [Node.bytes?, hpayload] at hold
      cases hold
  · rfl

theorem stream?_withBytes (hold : (w.node n).bytes? = some bytes) (new : ByteArray) (f : FileId) :
    (w.withBytes n new).stream? f = w.stream? f := by
  rw [stream?, stream?]
  congr 1
  funext file
  rw [asStream, asStream, bytes?_withBytes hold]
  by_cases heq : file.node = n
  · rw [heq, hold]
    simp
  · rw [if_neg heq]

end World

/-! ## What the machine tells -/

/-- Tells the bytes of every regular file and the stream that an open file is. -/
structure Streams.Tells (m : Streams) (w : World) : Prop where
  bytes : ∀ n bytes, (w.node n).bytes? = some bytes → m.bytes n = Bytes.list bytes
  unmade : ∀ n, w.nodes.nextKey ≤ n → m.bytes n = []
  stream : ∀ f, w.files.has f = true → m.stream f = w.stream? f
  unopened : ∀ f, w.files.nextKey ≤ f → m.stream f = none

namespace Streams.Tells

variable {m : Streams} {w w' : World} {n : NodeId} {f : FileId} {s : Stream} {bytes : ByteArray}
  (h : m.Tells w)

include h

theorem stream_of_stream? (hs : w.stream? f = some s) : m.stream f = some s := by
  rw [h.stream f (Arena.has_iff.2 ⟨_, (World.stream?_eq_some.1 hs).1⟩), hs]

/-- What leaves files and streams alone leaves the machine right. -/
theorem sameStreams (hw : w.WellFormed) (hw' : w'.WellFormed) (hsame : w.SameStreams w') :
    m.Tells w' where
  bytes n bytes hbytes := by
    have hget := (World.live_of_bytes? hbytes).get?
    by_cases hold : n < w.nodes.nextKey
    · obtain ⟨node, hnode, hsame⟩ := hsame.node n hold _ hget
      have hwas := hsame.bytes bytes hbytes
      refine h.bytes n bytes ?_
      rw [World.node, hnode]
      exact hwas
    · rw [h.unmade n (Nat.not_lt.1 hold), hsame.made n (Nat.not_lt.1 hold) _ hget bytes hbytes]
      rfl
  unmade n hn := h.unmade n (Nat.le_trans hsame.nextNode hn)
  stream f hf := by
    obtain ⟨file', hfile'⟩ := Arena.has_iff.1 hf
    obtain ⟨file, hfile, hstream⟩ := hsame.file f file' hfile'
    rw [h.stream f (Arena.has_iff.2 ⟨file, hfile⟩), World.stream?, World.stream?, hfile, hfile',
      Option.bind_some, Option.bind_some, World.asStream, World.asStream, hstream]
    cases hs : file.stream? with
    | none => simp
    | some s =>
      rw [hs] at hstream
      rw [OpenFile.stream?_eq_some] at hs hstream
      subst hs
      subst hstream
      have hlive : w.Live s.node := hw.held.file f _ hfile
      have hlive' : w'.Live s.node := hw'.held.file f _ hfile'
      obtain ⟨node, hnode, hkept⟩ := hsame.node s.node hlive.lt _ hlive'.get?
      have htype : Mode.typeBits (w'.node s.node).mode = Mode.typeBits (w.node s.node).mode := by
        rw [hkept.type, World.node, hnode, Option.getD_some]
      have hregular : (w'.node s.node).bytes?.isSome = (w.node s.node).bytes?.isSome := by
        rw [Bool.eq_iff_iff, (hw.ram _ hlive).isSome_bytes?, (hw'.ram _ hlive').isSome_bytes?,
          htype]
      show (if (w.node s.node).bytes?.isSome then some s else none) =
        if (w'.node s.node).bytes?.isSome then some s else none
      rw [hregular]
  unopened f hf := h.unopened f (by rw [← hsame.nextFile]; exact hf)

theorem withBytes (hold : (w.node n).bytes? = some bytes) (new : ByteArray) :
    (m.setBytes n (Bytes.list new)).Tells (w.withBytes n new) where
  bytes n' bytes' hbytes' := by
    rw [World.bytes?_withBytes hold] at hbytes'
    by_cases heq : n' = n
    · subst heq
      rw [if_pos rfl] at hbytes'
      cases hbytes'
      exact m.setBytes_self ..
    · rw [if_neg heq] at hbytes'
      rw [m.setBytes_of_ne heq]
      exact h.bytes n' bytes' hbytes'
  unmade n' hn' := by
    rw [World.withBytes, World.nextKey_setNode] at hn'
    have hne : n' ≠ n := by
      rintro rfl
      exact absurd (World.live_of_bytes? hold).lt (Nat.not_lt.2 hn')
    rw [m.setBytes_of_ne hne]
    exact h.unmade n' hn'
  stream f hf := (h.stream f hf).trans (World.stream?_withBytes hold new f).symm
  unopened := h.unopened

/-- Nodes may change as long as no bytes do. -/
theorem setNode {g : Node → Node} (hg : ∀ node, (g node).bytes? = node.bytes?) :
    m.Tells (w.setNode n g) := by
  have hnode : ∀ n', ((w.setNode n g).node n').bytes? = (w.node n').bytes? := by
    intro n'
    by_cases hlive : w.Live n
    · exact World.view_setNode Node.bytes? hlive (hg _) n'
    · have hlive' : ¬(w.setNode n g).Live n := by rwa [World.live_setNode]
      by_cases heq : n' = n
      · rw [heq, World.node_of_not_live hlive, World.node_of_not_live hlive']
      · rw [World.node, World.node, World.setNode, Arena.get?_modify, if_neg (Ne.symm heq)]
  refine ⟨fun n' bytes hbytes => h.bytes n' bytes (by rw [← hnode]; exact hbytes), ?_, ?_,
    h.unopened⟩
  · rw [World.nextKey_setNode]
    exact h.unmade
  · intro f hf
    rw [h.stream f hf, World.stream?, World.stream?]
    exact congrArg _ (World.asStream_congr hnode).symm

/-- A stream may be moved and its flags changed. -/
theorem setFile {g : OpenFile → OpenFile} {s' : Stream} (hs : w.stream? f = some s)
    (hg : g s.file = s'.file) (hnode : s'.node = s.node) :
    (m.setStream f s').Tells (w.setFile f g) where
  bytes := h.bytes
  unmade := h.unmade
  stream f' hf' := by
    obtain ⟨hget, bytes, hbytes⟩ := World.stream?_eq_some.1 hs
    by_cases heq : f' = f
    · subst heq
      rw [m.setStream_self]
      refine (World.stream?_eq_some.2 ⟨?_, bytes, ?_⟩).symm
      · rw [World.setFile, Arena.get?_modify, if_pos rfl, hget, Option.map_some, hg]
      · rw [hnode]
        exact hbytes
    · have hsame : (w.setFile f g).files.get? f' = w.files.get? f' := by
        rw [World.setFile, Arena.get?_modify, if_neg (Ne.symm heq)]
      rw [Arena.has, hsame] at hf'
      rw [m.setStream_of_ne heq, h.stream f' hf', World.stream?, World.stream?, hsame]
      rfl
  unopened f' hf' := by
    rw [World.setFile, Arena.nextKey_modify] at hf'
    have hne : f' ≠ f := by
      rintro rfl
      have hopen := Arena.has_iff.2 ⟨_, (World.stream?_eq_some.1 hs).1⟩
      exact absurd (Arena.lt_nextKey_of_has hopen) (Nat.not_lt.2 hf')
    rw [m.setStream_of_ne hne]
    exact h.unopened f' hf'

/-- What is no stream on a regular file may change as long as it becomes none. -/
theorem setOther {g : OpenFile → OpenFile} (hs : w.stream? f = none)
    (hnode : ∀ file, (g file).node = file.node)
    (hg : ∀ file, file.stream? = none → (g file).stream? = none) : m.Tells (w.setFile f g) where
  bytes := h.bytes
  unmade := h.unmade
  stream f' hf' := by
    by_cases heq : f = f'
    · subst heq
      obtain ⟨file', hfile'⟩ := Arena.has_iff.1 hf'
      rw [World.setFile, Arena.get?_modify, if_pos rfl] at hfile'
      obtain ⟨file, hfile, rfl⟩ := Option.map_eq_some_iff.1 hfile'
      rw [h.stream f (Arena.has_iff.2 ⟨file, hfile⟩), hs, World.stream?, World.setFile,
        Arena.get?_modify, if_pos rfl, hfile, Option.map_some, Option.bind_some, World.asStream,
        hnode]
      rw [World.stream?, hfile, Option.bind_some, World.asStream] at hs
      show none = if (w.node file.node).bytes?.isSome then (g file).stream? else none
      split at hs
      · next hregular => rw [if_pos hregular, hg file hs]
      · next hregular => rw [if_neg hregular]
    · have hsame : (w.setFile f g).files.get? f' = w.files.get? f' := by
        rw [World.setFile, Arena.get?_modify, if_neg heq]
      rw [Arena.has, hsame] at hf'
      rw [h.stream f' hf', World.stream?, World.stream?, hsame]
      rfl
  unopened f' hf' := h.unopened f' (by rwa [World.setFile, Arena.nextKey_modify] at hf')

/-- What is no stream on a regular file may be moved. -/
theorem setPosition (hs : w.stream? f = none) (position : Nat) :
    m.Tells (w.setFile f fun file => file.setPosition position) := by
  refine h.setOther hs (fun file => file.setPosition_node position) fun file hnone => ?_
  rw [OpenFile.setPosition_of_stream?_none hnone, hnone]

end Streams.Tells

end VirtualFs
