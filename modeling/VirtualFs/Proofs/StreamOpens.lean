/-
How files come to be streams. An open tells the machine of bytes and streams
which node it has opened, and with which flags; the machine empties the file if
that is asked for, and has a stream of it once a number could be bound. What an
open does besides is no business of the machine: it looks paths up, makes a file
that is empty anyhow, and gives a number back that it could not bind.
-/
import VirtualFs.Proofs.RamMoves
import VirtualFs.Proofs.StreamCalls
import VirtualFs.Proofs.TableState

namespace VirtualFs

open VirtualFs.Action (ended_pure ended_query ended_bind ended_query_bind ended_query_bind_error
  ended_ask_bind ended_look_bind ended_note_bind ended_when leads_query leads_query_bind leads_when
  leads_ask_bind leads_demand_bind leads_world_bind leads_change_bind leads_note_bind leads_bind
  leads_pure leads_throw does_bind does_note does_pure does_throw)

/-! ## Flags -/

namespace OpenFlags

variable (flags : OpenFlags)

theorem has_without {bits bit : UInt32} (h : ~~~bits &&& bit = bit) :
    (flags.without bits).has bit = flags.has bit := by
  rw [has, has, without, Word.and_and, h]

theorem accessMode_without {bits : UInt32} (h : ~~~bits &&& accessMask = accessMask) :
    (flags.without bits).accessMode = flags.accessMode := by
  rw [accessMode, accessMode, without, Word.and_and, h]

theorem truncates_without {bits : UInt32} (h : ~~~bits &&& truncateBit = truncateBit) :
    (flags.without bits).truncates = flags.truncates := flags.has_without h

theorem writable_without {bits : UInt32} (h : ~~~bits &&& accessMask = accessMask) :
    (flags.without bits).writable = flags.writable := by
  rw [writable, writable, flags.accessMode_without h]

theorem truncates_without_truncate : (flags.without truncateBit).truncates = false := by
  have h : ~~~truncateBit &&& truncateBit = 0 := by decide
  rw [truncates, has, without, Word.and_and, h, UInt32.and_zero]
  rfl

end OpenFlags

namespace Streams

theorem remembered_without_create (flags : OpenFlags) :
    remembered (flags.without OpenFlags.createBit) = remembered flags := by
  have h : ~~~OpenFlags.createBit &&& ~~~(OpenFlags.createBit ||| OpenFlags.kernelBit) =
      ~~~(OpenFlags.createBit ||| OpenFlags.kernelBit) := by decide
  simp only [remembered, OpenFlags.without, Word.and_and, h]

theorem ofKind_without_create (n : NodeId) (flags : OpenFlags) (kind : FileKind) :
    OpenFile.ofKind n (flags.without OpenFlags.createBit) kind = OpenFile.ofKind n flags kind :=
  congrArg (OpenFile.mk n · kind) (remembered_without_create flags)

/-- What is remembered is remembered of itself. -/
theorem remembered_remembered (flags : OpenFlags) :
    remembered (remembered flags) = remembered flags := by
  simp only [remembered, OpenFlags.without, Word.and_and, UInt32.and_self]

theorem truncates_remembered (flags : OpenFlags) :
    (remembered flags).truncates = flags.truncates := flags.truncates_without (by decide)

/-- What is not to be truncated is not emptied. -/
theorem emptied_of_not_truncates (m : Streams) (n : NodeId) {flags : OpenFlags}
    (h : flags.truncates = false) : m.emptied n flags = m := by
  rw [emptied, h, Bool.false_and, if_neg Bool.false_ne_true]

/-- An empty file may be emptied. -/
theorem emptied_of_empty {m : Streams} {n : NodeId} (h : m.bytes n = []) (flags : OpenFlags) :
    m.emptied n flags = m := by
  rw [emptied, setBytes, ← h, Function.update_eq_self]
  split <;> rfl

/-- What the machine is to a world in which a file has been opened: it has emptied the file if that
is a stream and was to be emptied, and it has the stream by the key that was bound to it, if any. -/
def Admitted (m : Streams) (flags : OpenFlags) (position : Nat) (opened : Option Stream)
    (key : Option FileId) (w : World) : Prop :=
  match opened with
  | none => m.Tells w
  | some s =>
    s.flags = remembered flags ∧ s.position = position ∧
      match key with
      | none => (m.emptied s.node flags).Tells w
      | some f => ((m.emptied s.node flags).setStream f s).Tells w

end Streams

/-- The stream on a regular file that has been opened, if it is one. -/
def streamOpened : Except Error OpenFile × World → Option Stream
  | (.ok file, w) => w.asStream file
  | (.error _, _) => none

namespace Streams

/-- What the machine is to a world in which a file has just been opened. -/
def Opened (m : Streams) (flags : OpenFlags) (position : Nat)
    (done : Except Error OpenFile × World) : Prop :=
  m.Admitted flags position (streamOpened done) none done.2

section

variable {m : Streams} {w : World} {flags : OpenFlags} {position : Nat}

/-- A file that is no stream on a regular file is nothing new. -/
theorem Opened.other (hm : m.Tells w) {file : OpenFile} (hfile : w.asStream file = none) :
    m.Opened flags position (.ok file, w) := by
  rw [Opened, streamOpened, hfile]
  exact hm

/-- What is opened remembers its flags and starts at the beginning. -/
theorem Opened.stream {n : NodeId} {opened : OpenFlags}
    (hflags : remembered opened = remembered flags) (hother : (w.node n).bytes? = none → m.Tells w)
    (hregular : ∀ bytes, (w.node n).bytes? = some bytes → (m.emptied n flags).Tells w) :
    m.Opened flags 0 (.ok (.stream n opened), w) := by
  cases hbytes : (w.node n).bytes? with
  | none =>
    refine .other (hother hbytes) (if_neg ?_)
    show ¬(w.node n).bytes?.isSome = true
    rw [hbytes]
    exact Bool.false_ne_true
  | some bytes =>
    have hstream : w.asStream (.stream n opened) =
        some { node := n, flags := remembered flags, position := 0 } := by
      refine World.asStream_eq_some.2 ⟨?_, bytes, hbytes⟩
      rw [← hflags]
      rfl
    rw [Opened, streamOpened, hstream]
    exact ⟨rfl, rfl, hregular bytes hbytes⟩

theorem opened_query_bind {α : Type} (hm : m.Tells w) {q : Query α} {f : α → Act OpenFile}
    (hf : ∀ a, (q w).result = .ok a → m.Opened flags position ((f a).ended w)) :
    m.Opened flags position (((liftM q : Act α) >>= f).ended w) := by
  cases hresult : (q w).result with
  | error e =>
    rw [ended_query_bind_error hresult]
    exact hm
  | ok a =>
    rw [ended_query_bind hresult]
    exact hf a hresult

end

end Streams

open Streams (Opened opened_query_bind remembered remembered_without_create)

/-! ## Opening a node -/

section

variable {m : Streams} {w : World} (hm : m.Tells w) (hw : w.WellFormed) {n d : NodeId}
  {flags : OpenFlags}

theorem OpsKind.ended_openFile (o : OpsKind) (v : VolumeKey) (n : NodeId) (flags : OpenFlags)
    (w : World) : (o.openFile v n flags).ended w =
      ((Backends.ops o).openFile v n flags).ended w := by
  rw [OpsKind.openFile, ended_note_bind, ended_bind]
  split
  · next heq => rw [ended_note_bind, heq]; rfl
  · next heq => exact heq.symm

include hw in
theorem RamFs.ended_truncate {bytes : ByteArray} (hbytes : (w.node n).bytes? = some bytes) :
    (truncate n).ended w = (.ok (), w.withBytes n .empty) := by
  obtain ⟨ram, hnode, hcontent⟩ := hw.nodeOf_bytes? hbytes
  refine (ended_query_bind (a := ram) (by rw [hnode])).trans ?_
  rw [hcontent]
  rfl

/-- What is no regular file has no bytes to lose. -/
theorem RamFs.world_truncate (hnone : (w.node n).bytes? = none) : (truncate n w).world = w := by
  have hidle : (truncate n).LeadsOnly (fun _ _ => False) w := by
    refine leads_query_bind fun ram hram => ?_
    have hnot := content_ne_file hnone hram
    split
    · next bytes hcontent => exact absurd hcontent (hnot bytes)
    · exact leads_pure trivial
  exact hidle.world_eq

include hm hw

/-- The memory filesystem empties what the machine empties. -/
theorem RamFs.openFile_tells (n : NodeId) (flags : OpenFlags) :
    m.Opened flags 0 ((openFile n (flags.without OpenFlags.createBit)).ended w) := by
  have htruncates : (flags.without OpenFlags.createBit).truncates = flags.truncates :=
    flags.truncates_without (by decide)
  have hwritable : (flags.without OpenFlags.createBit).writable = flags.writable :=
    flags.writable_without (by decide)
  have hflags := remembered_without_create flags
  rw [openFile, ended_bind, ended_when, htruncates, hwritable]
  by_cases hempty : (flags.truncates && flags.writable) = true
  · rw [if_pos hempty]
    cases hbytes : (w.node n).bytes? with
    | none =>
      have hworld : ((truncate n).ended w).2 = w := RamFs.world_truncate hbytes
      generalize (truncate n).ended w = done at hworld ⊢
      rcases done with ⟨e | _, w'⟩ <;> obtain rfl : w' = w := hworld
      · exact hm
      · dsimp only
        rw [ended_pure]
        refine .stream hflags (fun _ => hm) fun bytes hsome => ?_
        rw [hbytes] at hsome
        cases hsome
    | some bytes =>
      rw [RamFs.ended_truncate hw hbytes]
      dsimp only
      rw [ended_pure]
      refine .stream hflags (fun hnone => ?_) fun _ _ => ?_
      · rw [World.bytes?_withBytes hbytes, if_pos rfl] at hnone
        cases hnone
      · rw [Streams.emptied, if_pos hempty]
        exact hm.withBytes hbytes .empty
  · rw [if_neg hempty]
    refine .stream hflags (fun _ => hm) fun _ _ => ?_
    rw [Streams.emptied, if_neg hempty]
    exact hm

/-- What has no bytes is opened by whatever operations it has. -/
theorem OpsKind.openFile_tells (o : OpsKind) (v : VolumeKey) (hops : (opsOf n w).result = .ok o)
    (flags : OpenFlags) :
    m.Opened flags 0 ((o.openFile v n (flags.without OpenFlags.createBit)).ended w) := by
  rw [OpsKind.ended_openFile]
  have hother : ∀ o, (opsOf n w).result = .ok o → o ≠ .ram → ∀ bytes,
      (w.node n).bytes? ≠ some bytes := by
    intro o hops hne bytes hbytes
    rw [World.opsOf_eq_ok, hw.ops_of_bytes? hbytes] at hops
    exact hne (Option.some.inj hops).symm
  cases o with
  | ram => exact RamFs.openFile_tells hm hw n flags
  | bare =>
    exact .stream (remembered_without_create flags) (fun _ => hm) fun bytes hbytes =>
      absurd hbytes (hother _ hops (by simp) bytes)
  | scripted meter script =>
    refine opened_query_bind hm fun _ _ => ?_
    exact .stream (remembered_without_create flags) (fun _ => hm) fun bytes hbytes =>
      absurd hbytes (hother _ hops (by simp) bytes)

omit hm hw in
theorem OpsKind.result_openDirectory {o : OpsKind} {v : VolumeKey} {flags : OpenFlags}
    {file : OpenFile} (h : (o.openDirectory v n flags w).result = .ok file) :
    file = .directory n flags := by
  obtain ⟨_, -, h⟩ := Query.result_bind_eq_ok.1 h
  obtain ⟨made, hmade, h⟩ := Query.result_bind_eq_ok.1 h
  cases h
  cases o with
  | ram | bare => exact (Except.ok.inj hmade).symm
  | scripted meter script =>
    obtain ⟨_, -, hmade⟩ := Query.result_bind_eq_ok.1 hmade
    exact (Except.ok.inj hmade).symm

omit hw in
/-- A directory is no stream. -/
theorem OpsKind.openDirectory_tells (o : OpsKind) (v : VolumeKey) (n : NodeId)
    (opened flags : OpenFlags) :
    m.Opened flags 0 ((liftM (o.openDirectory v n opened) : Act OpenFile).ended w) := by
  rw [ended_query rfl]
  cases hresult : (o.openDirectory v n opened w).result with
  | error e => exact hm
  | ok file =>
    rw [OpsKind.result_openDirectory hresult]
    exact .other hm (ite_self _)

theorem openFound_tells (n : NodeId) (flags : OpenFlags) :
    m.Opened flags 0 ((openFound n flags).ended w) := by
  rw [openFound]
  split
  · exact .other hm (ite_self _)
  rw [ended_bind]
  refine opened_query_bind hm fun _ _ => opened_query_bind hm fun o ho =>
    opened_query_bind hm fun v _ => ?_
  dsimp only
  split
  · exact opened_query_bind hm fun _ _ => o.openDirectory_tells hm v n _ flags
  · exact opened_query_bind hm fun _ _ => opened_query_bind hm fun _ _ =>
      o.openFile_tells hm hw v ho flags

/-! ## Opening a name -/

omit hm hw in
/-- A file that is created is the newest node. -/
theorem RamFs.createFile_newest (v : VolumeKey) (parent : NodeId) (name : String)
    (flags : OpenFlags) (mode : UInt32) (w : World) :
    (createFile v parent name flags mode).Leads (fun _ _ => True) w fun file _ =>
      file = .stream w.nodes.nextKey flags := by
  have hmade : ∀ mode content ops, (makeNode v parent mode content ops).Leads (fun _ _ => True) w
      fun n _ => n = w.nodes.nextKey := fun mode content ops =>
    leads_query_bind fun _ _ => leads_world_bind
      (leads_change_bind (.single trivial) (leads_pure rfl))
  refine leads_ask_bind (leads_bind (P := fun n _ => n = w.nodes.nextKey)
    (leads_query_bind fun _ _ => leads_query_bind fun _ _ => leads_demand_bind fun _ =>
      leads_bind (hmade _ _ _) fun n _ _ hn => leads_change_bind (.single trivial)
        (leads_pure hn)) fun n _ _ hn => leads_pure ?_)
  rw [hn]

omit hm hw in
theorem createNode_newest (d : NodeId) (name : String) (flags : OpenFlags) (mode : UInt32) :
    (createNode d name flags mode).Leads (fun _ _ => True) w fun file _ =>
      file = .stream w.nodes.nextKey flags := by
  refine leads_query_bind fun _ _ => leads_query_bind fun v _ => leads_ask_bind ?_
  cases (w.node d).driver with
  | ram =>
    exact leads_note_bind (leads_bind (RamFs.createFile_newest v d name flags mode w)
      fun _ _ _ hfile => leads_note_bind (leads_pure hfile))
  | scripted fs => exact leads_note_bind (leads_bind (P := fun _ _ => False) leads_throw nofun)

omit hm hw in
theorem createNode_harmless (d : NodeId) (name : String) (flags : OpenFlags) (mode : UInt32) :
    (createNode d name flags mode).Does World.Harmless True := by
  refine does_bind (does_any _) fun _ => does_bind (does_any _) fun v =>
    does_bind (does_any _) fun driver => does_bind (does_note rfl) fun _ => does_bind ?_ fun file =>
      does_bind (fun w => ⟨.refl w, nofun⟩) fun _ => does_pure file
  cases driver with
  | ram => exact RamFs.createFile_does v d name flags mode
  | scripted fs => exact does_throw nofun

/-- A file that is created is empty, so there is nothing to lose. -/
theorem createNode_tells (name : String) (flags : OpenFlags) (mode : UInt32)
    (hw' : (createNode d name flags mode w).world.WellFormed) :
    m.Opened flags 0 ((createNode d name flags mode).ended w) := by
  have hm' := hm.sameStreams hw hw' (createNode_harmless d name flags mode w).1
  have hnewest := (createNode_newest (w := w) d name flags mode).2
  rcases hrun : createNode d name flags mode w with ⟨e | file, w', t⟩ <;>
    rw [hrun] at hm' hnewest <;> rw [Action.ended, hrun]
  · exact hm'
  · rw [hnewest file rfl]
    refine .stream rfl (fun _ => hm') fun _ _ => ?_
    rw [Streams.emptied_of_empty (hm.unmade _ (Nat.le_refl _))]
    exact hm'

/-- What a name in a directory is opened as. -/
theorem openName_tells (t : TaskId) (hd : w.Known d) {name : String} (hwhole : '/' ∉ name.toList)
    (flags : OpenFlags) (mode : UInt32) :
    m.Opened flags 0 ((openName t d name flags mode).ended w) := by
  refine opened_query_bind hm fun found _ => ?_
  split
  · exact opened_query_bind hm fun _ _ => openFound_tells hm hw _ flags
  · split
    · refine createNode_tells hm hw name flags mode ?_
      have hmoves :=
        (createNode_turns (hw.steady : w.Steady .all) hd hwhole trivial flags mode).moves
      exact World.Edits.wellFormed (hw.edits_of_moves hmoves.1) hw
    · exact hm

end

/-! ## Opening into a number -/

/-- What every open comes down to: a number is reserved, and bound to the file that is opened. -/
def openInto (c : ContextId) (opening : Act OpenFile) : Act Handle :=
  withReserved c fun h => opening >>= commitFile c h

/-- Opens the node of a file once more, at the position of the file. -/
def reopening (file : OpenFile) : Act OpenFile := do
  let fresh ← openFound file.node (file.flags.without OpenFlags.truncateBit)
  pure (fresh.setPosition file.position)

/-- The stream on a regular file that is opened once a number is reserved, if it is one. -/
def World.opening (w : World) (c : ContextId) (x : Act OpenFile) : Option Stream :=
  streamOpened ((do let _ ← allocateHandle c; x : Act OpenFile).ended w)

/-- The key of the file that an open has bound to a number, if it has. -/
def World.boundKey (w : World) (x : Act Handle) : Option FileId :=
  (x w).result.toOption.map fun _ => w.files.nextKey

section

variable {w : World} {c : ContextId}

theorem World.boundKey_of_ended {x : Act Handle} {r : Except Error Handle} {w' : World}
    (h : x.ended w = (r, w')) : w.boundKey x = r.toOption.map fun _ => w.files.nextKey := by
  obtain ⟨hresult, -⟩ := Prod.mk.inj h
  rw [boundKey, hresult]

theorem ended_withReserved (work : Handle → Act Handle) {handle : Handle} {w' : World}
    (h : (allocateHandle c).ended w = (.ok handle, w')) : (withReserved c work).ended w =
      match (work handle).ended w' with
      | (.ok a, w'') => (.ok a, w'')
      | (.error e, w'') => (.error e, (giveBack c handle w'').world) := by
  rw [withReserved, ended_bind, h]
  dsimp only
  simp only [Action.ended, Action.orUndo]
  rcases work handle w' with ⟨_ | _, _, _⟩ <;> rfl

theorem ended_withReserved_error (work : Handle → Act Handle) {e : Error} {w' : World}
    (h : (allocateHandle c).ended w = (.error e, w')) :
    (withReserved c work).ended w = (.error e, w') := by
  rw [withReserved, ended_bind, h]

theorem ended_bindHandle {handle : Handle} {f : FileId} {files : ReservationTable FileId}
    (hbindable : (bindable c handle w).result = .ok ())
    (hfill : (w.context c).files.fill handle.slot f = .ok files) : (bindHandle c handle f).ended w =
      (.ok (), w.setContext c fun context => { context with files }) := by
  rw [bindHandle, ended_query_bind hbindable, ended_look_bind, hfill]
  rfl

/-- What is done with a number counts by how it ends. -/
theorem ended_withReserved_congr {work work' : Handle → Act Handle}
    (h : ∀ handle w', (work handle).ended w' = (work' handle).ended w') :
    (withReserved c work).ended w = (withReserved c work').ended w := by
  rcases hallocate : (allocateHandle c).ended w with ⟨e | handle, w'⟩
  · rw [ended_withReserved_error _ hallocate, ended_withReserved_error _ hallocate]
  · rw [ended_withReserved _ hallocate, ended_withReserved _ hallocate, h]

/-- A file in hand is bound to the number, or nothing changes. -/
theorem ended_commitFile (c : ContextId) (handle : Handle) (file : OpenFile) (w : World) :
    (∃ e, w.numbering.fillable c handle = .error e ∧
        (commitFile c handle file).ended w = (.error e, w)) ∨
      w.numbering.fillable c handle = .ok () ∧ ∃ files,
        (commitFile c handle file).ended w = (.ok handle,
          { w with
            files := w.files.push file
            contexts := w.contexts.modify c fun context => { context with files } }) := by
  have hattempt : (Query.attempt (bindable c handle) w).result =
      .ok (w.numbering.fillable c handle) := by
    rw [Query.result_attempt, result_bindable]
  rw [commitFile, ended_query_bind hattempt]
  cases hfillable : w.numbering.fillable c handle with
  | error e => exact .inl ⟨e, rfl, ended_query_bind (closeFile_result none file)⟩
  | ok =>
    obtain ⟨-, hreserved⟩ := Numbering.fillable_eq_ok.1 hfillable
    obtain ⟨files, hfill⟩ := ReservationTable.exists_fill hreserved w.files.nextKey
    have hbindable : (bindable c handle { w with files := w.files.push file }).result = .ok () := by
      rw [result_bindable, w.numbering_push]
      exact hfillable
    refine .inr ⟨rfl, files, ?_⟩
    show (do bindHandle c handle w.files.nextKey; pure handle : Act Handle).ended
      { w with files := w.files.push file } = _
    rw [ended_bind, ended_bindHandle hbindable hfill]
    rfl

end

/-! ## What is open -/

namespace Streams.Tells

variable {m : Streams} {w : World} (hm : m.Tells w) {file : OpenFile} (contexts : Array Context)

include hm

/-- A file that is added may be a stream. -/
theorem pushStream {s : Stream} (hs : w.asStream file = some s) :
    (m.setStream w.files.nextKey s).Tells { w with files := w.files.push file, contexts } where
  bytes := hm.bytes
  unmade := hm.unmade
  stream f hf := by
    by_cases heq : f = w.files.nextKey
    · subst heq
      rw [m.setStream_self, World.stream?, Arena.get?_push, if_pos rfl]
      exact hs.symm
    · rw [Arena.has, Arena.get?_push, if_neg heq] at hf
      rw [m.setStream_of_ne heq, hm.stream f hf, World.stream?, World.stream?, Arena.get?_push,
        if_neg heq]
      rfl
  unopened f hf := by
    rw [Arena.nextKey_push] at hf
    rw [m.setStream_of_ne (Nat.ne_of_gt hf)]
    exact hm.unopened f (Nat.le_of_succ_le hf)

/-- A file that is added may be none. -/
theorem pushOther (hs : w.asStream file = none) :
    m.Tells { w with files := w.files.push file, contexts } where
  bytes := hm.bytes
  unmade := hm.unmade
  stream f hf := by
    rw [World.stream?, Arena.get?_push]
    by_cases heq : f = w.files.nextKey
    · rw [if_pos heq, heq, hm.unopened _ (Nat.le_refl _)]
      exact hs.symm
    · rw [Arena.has, Arena.get?_push, if_neg heq] at hf
      rw [if_neg heq, hm.stream f hf]
      rfl
  unopened f hf := by
    rw [Arena.nextKey_push] at hf
    exact hm.unopened f (Nat.le_of_succ_le hf)

end Streams.Tells

namespace Streams.Admitted

variable {m : Streams} {w w' : World} {flags : OpenFlags} {position : Nat}

/-- What is opened without a number may be let go of. -/
theorem sameStreams {opened : Option Stream} (h : m.Admitted flags position opened none w)
    (hw : w.WellFormed) (hw' : w'.WellFormed) (hsame : w.SameStreams w') :
    m.Admitted flags position opened none w' := by
  cases opened with
  | none => exact Tells.sameStreams h hw hw' hsame
  | some s => exact ⟨h.1, h.2.1, h.2.2.sameStreams hw hw' hsame⟩

/-- What is opened may be entered under the next key. -/
theorem push {file : OpenFile} (h : m.Admitted flags position (w.asStream file) none w)
    (contexts : Array Context) : m.Admitted flags position (w.asStream file) w.files.nextKey
      { w with files := w.files.push file, contexts } := by
  cases hs : w.asStream file with
  | none =>
    rw [hs] at h
    exact Tells.pushOther h contexts hs
  | some s =>
    rw [hs] at h
    exact ⟨h.1, h.2.1, h.2.2.pushStream contexts hs⟩

/-- What is opened at its beginning is told to the machine as it is. -/
theorem serves {opened : Option Stream} {key : Option FileId}
    (h : m.Admitted flags 0 opened key w) :
    m.Serves (opened.map fun s => .opened key s.node flags) none w := by
  cases opened with
  | none => exact h
  | some s =>
    obtain ⟨hflags, hposition, htells⟩ := h
    have hs : s = { node := s.node, flags := remembered flags, position := 0 } := by
      rw [← hflags, ← hposition]
    refine ⟨rfl, ?_⟩
    cases key with
    | none => exact htells
    | some f =>
      rw [hs] at htells
      exact htells

end Streams.Admitted

section

variable {m : Streams} {w : World} (hm : m.Tells w) (hw : w.WellFormed) {flags : OpenFlags}
  {position : Nat}

include hm hw

/-- **What is opened is a stream once it has a number.** -/
theorem openInto_tells (c : ContextId) {opening : Act OpenFile}
    (hspares : opening.Does World.Sparing True)
    (hopening : ∀ w', w'.WellFormed → w'.nodes = w.nodes → w'.volumes = w.volumes →
      (opening w').world.WellFormed ∧
        (m.Tells w' → m.Opened flags position (opening.ended w')))
    {x : Act Handle} (hx : x.ended w = (openInto c opening).ended w)
    (hafter : (x w).world.WellFormed) :
    m.Admitted flags position (w.opening c opening) (w.boundKey x) (x w).world := by
  suffices hdone : ∃ r w', (openInto c opening).ended w = (r, w') ∧ (w'.WellFormed →
      m.Admitted flags position (w.opening c opening)
        (r.toOption.map fun _ => w.files.nextKey) w') by
    obtain ⟨r, w', hended, hdone⟩ := hdone
    rw [← hx] at hended
    obtain ⟨-, rfl⟩ := Prod.mk.inj hended
    rw [World.boundKey_of_ended hended]
    exact hdone hafter
  have hreserved := (allocateHandle_does (R := World.Harmless) c w).1
  obtain ⟨hmoves, hsame⟩ := (allocateHandle_turns (hw.steady : w.Steady .all) c).moves
  rcases hallocate : allocateHandle c w with ⟨e | handle, w', t⟩ <;>
    rw [hallocate] at hreserved hmoves hsame
  · have hallocate : (allocateHandle c).ended w = (.error e, w') := by rw [Action.ended, hallocate]
    refine ⟨_, _, ended_withReserved_error _ hallocate, fun hw' => ?_⟩
    rw [World.opening, ended_bind, hallocate]
    exact hm.sameStreams hw hw' hreserved
  · have hallocate : (allocateHandle c).ended w = (.ok handle, w') := by
      rw [Action.ended, hallocate]
    have hw' : w'.WellFormed := World.Edits.wellFormed (hw.edits_of_moves hmoves) hw
    obtain ⟨hnodes, hvolumes⟩ := hsame handle rfl
    have hopened := (hopening w' hw' hnodes hvolumes).2 (hm.sameStreams hw hw' hreserved)
    have hw'' : (opening.ended w').2.WellFormed := (hopening w' hw' hnodes hvolumes).1
    have hfiles : (opening.ended w').2.files = w'.files := (hspares w').1.files
    have hreturned := fun w => (giveBack_does (R := World.Harmless) c handle w).1
    have hopening : w.opening c opening = streamOpened (opening.ended w') := by
      rw [World.opening, ended_bind, hallocate]
    have hended := ended_withReserved (fun h => opening >>= commitFile c h) hallocate
    rw [hopening]
    rw [ended_bind] at hended
    generalize opening.ended w' = done at hopened hw'' hfiles hended ⊢
    rcases done with ⟨e | file, w''⟩
    · exact ⟨_, _, hended, fun hlast => hopened.sameStreams hw'' hlast (hreturned w'')⟩
    · rcases ended_commitFile c handle file w'' with ⟨e, -, hcommit⟩ | ⟨-, files, hcommit⟩ <;>
        dsimp only at hended <;> rw [hcommit] at hended
      · exact ⟨_, _, hended, fun hlast => hopened.sameStreams hw'' hlast (hreturned w'')⟩
      · have hkey : w.files.nextKey = w''.files.nextKey := by rw [hfiles, hreserved.nextFile]
        refine ⟨_, _, hended, fun _ => ?_⟩
        rw [hkey]
        exact Streams.Admitted.push hopened _

end

/-! ## The opens -/

section

variable {m : Streams} {w : World} (hm : m.Tells w) (hw : w.WellFormed) {t : TaskId}

theorem ended_openPath (t : TaskId) (base : Option Handle) (path : String) (flags : OpenFlags)
    (mode : UInt32) : (openPath t base path flags mode).ended w =
      (openInto (w.contextOf t flags.forKernel) (pathOpening t base path flags mode)).ended w := by
  rw [openPath_eq, ended_query_bind rfl, openInto]
  refine ended_withReserved_congr fun handle w' => ?_
  rw [ended_bind, ended_bind]
  rcases (pathOpening t base path flags mode).ended w' with ⟨e | file, opened⟩
  · rfl
  · dsimp only
    rw [ended_bind]
    rcases (commitFile _ handle file).ended opened with ⟨e | bound, bound'⟩ <;> rfl

theorem ended_openHeld (t : TaskId) (n : NodeId) (flags : OpenFlags) :
    (openHeld t n flags).ended w =
      (openInto (w.contextOf t flags.forKernel) (openFound n flags)).ended w :=
  ended_query_bind rfl

theorem ended_openPinned {name : String} {n : NodeId} (t : TaskId) (flags : OpenFlags)
    (hheld : w.held? name = some n) : (openPinned t name flags).ended w =
      (openInto (w.contextOf t flags.forKernel) (openFound n flags)).ended w := by
  rw [openPinned, ended_ask_bind, hheld]
  exact (ended_query_bind rfl).trans (ended_openHeld t n flags)

theorem ended_openPinned_error {name : String} (t : TaskId) (flags : OpenFlags)
    (hheld : w.held? name = none) :
    (openPinned t name flags).ended w = (.error .notFound, w) := by
  rw [openPinned, ended_ask_bind, hheld]
  exact ended_query_bind_error rfl

theorem ended_reopen {h : Handle} {file : OpenFile} (hfile : (openFileOf t h w).result = .ok file) :
    (reopen t h).ended w =
      (openInto (w.contextOf t h.isKernel) (reopening file)).ended w := by
  rw [reopen, ended_query_bind hfile, ended_query_bind rfl, openInto]
  simp only [reopening, bind_assoc, pure_bind]

theorem ended_reopen_error {h : Handle} {e : Error} (hfile : (openFileOf t h w).result = .error e) :
    (reopen t h).ended w = (.error e, w) :=
  ended_query_bind_error hfile

theorem ended_duplicate {h : Handle} {f : FileId} (hf : (fileOf t h w).result = .ok f) :
    (duplicate t h).ended w =
      (withReserved (w.contextOf t h.isKernel) fun copy => do
        bindHandle (w.contextOf t h.isKernel) copy f
        pure copy).ended w :=
  (ended_query_bind hf).trans (ended_ask_bind _ _)

theorem ended_duplicate_error {h : Handle} {e : Error} (hf : (fileOf t h w).result = .error e) :
    (duplicate t h).ended w = (.error e, w) :=
  ended_query_bind_error hf

include hw

/-- What is opened at the end of a path is known then. -/
theorem pathOpening_turns (t : TaskId) (base : Option Handle) (path : String) (flags : OpenFlags)
    (mode : UInt32) : (pathOpening t base path flags mode).Leads (World.Turn .all) w
      fun file w' => w'.Known file.node := by
  refine leads_query_bind fun start hstart => leads_query_bind fun found hfound => ?_
  have htarget : (resolveTarget t base path w).result = .ok found :=
    Query.result_bind_eq_ok.2 ⟨start, hstart, hfound⟩
  obtain ⟨hd, hwhole⟩ := hw.sound.resolveTarget_yields t base path found htarget
  exact openName_turns hw.steady t hd hwhole flags mode fun _ _ => trivial

theorem pathOpening_wellFormed (t : TaskId) (base : Option Handle) (path : String)
    (flags : OpenFlags) (mode : UInt32) :
    (pathOpening t base path flags mode w).world.WellFormed :=
  World.Edits.wellFormed
    (hw.edits_of_moves (pathOpening_turns hw t base path flags mode).moves.1) hw

theorem openFound_wellFormed {n : NodeId} (hn : w.Known n) (flags : OpenFlags) :
    (openFound n flags w).world.WellFormed :=
  World.Edits.wellFormed
    (hw.edits_of_moves (openFound_turns (hw.steady : w.Steady .all) hn flags).moves.1) hw

include hm

theorem pathOpening_tells (t : TaskId) (base : Option Handle) (path : String) (flags : OpenFlags)
    (mode : UInt32) : m.Opened flags 0 ((pathOpening t base path flags mode).ended w) := by
  refine opened_query_bind hm fun start hstart => opened_query_bind hm fun found hfound => ?_
  have htarget : (resolveTarget t base path w).result = .ok found :=
    Query.result_bind_eq_ok.2 ⟨start, hstart, hfound⟩
  obtain ⟨hd, hwhole⟩ := hw.sound.resolveTarget_yields t base path found htarget
  exact openName_tells hm hw t hd hwhole flags mode

theorem openPath_served (base : Option Handle) (path : String) (flags : OpenFlags) (mode : UInt32) :
    m.Serves
      ((w.opening (w.contextOf t flags.forKernel) (pathOpening t base path flags mode)).map fun s =>
        .opened (w.boundKey (openPath t base path flags mode)) s.node flags)
      none (openPath t base path flags mode w).world := by
  have hafter : (openPath t base path flags mode w).world.WellFormed :=
    World.Edits.wellFormed ((Operation.openPath t base path flags mode).edits hw) hw
  exact (openInto_tells hm hw _ (pathOpening_spares standard_discreet t base path flags mode)
    (fun w' hw' _ _ => ⟨pathOpening_wellFormed hw' t base path flags mode,
      fun hm' => pathOpening_tells hm' hw' t base path flags mode⟩)
    (ended_openPath t base path flags mode) hafter).serves

theorem openPinned_served (name : String) (flags : OpenFlags) :
    m.Serves
      ((w.held? name).bind fun n =>
        (w.opening (w.contextOf t flags.forKernel) (openFound n flags)).map fun s =>
          .opened (w.boundKey (openPinned t name flags)) s.node flags)
      none (openPinned t name flags w).world := by
  have hafter : (openPinned t name flags w).world.WellFormed :=
    World.Edits.wellFormed ((Operation.openPinned t name flags).edits hw) hw
  cases hheld : w.held? name with
  | none =>
    have hworld : (openPinned t name flags w).world = w :=
      (Prod.mk.inj (ended_openPinned_error t flags hheld)).2
    rw [hworld]
    exact hm
  | some n =>
    have hended := ended_openPinned t flags hheld
    have hn := hw.sound.known_held hheld
    exact (openInto_tells hm hw _ (openFound_spares standard_discreet n flags)
      (fun w' hw' hnodes hvolumes =>
        ⟨openFound_wellFormed hw' (hn.congr hnodes hvolumes) flags,
          fun hm' => openFound_tells hm' hw' n flags⟩) hended hafter).serves

/-! ## Opening once more -/

omit hm hw in
/-- All that opening a node changes is that the node may be emptied, and what is open then is the
node, with the flags that were asked for. -/
theorem openFound_makes (n : NodeId) (flags : OpenFlags) :
    (openFound n flags).Leads
      (fun w w' => (flags.truncates && flags.writable) = true ∧ (RamFs.truncate n w).world = w') w
      fun file _ => ∃ kind, file = .ofKind n flags kind := by
  have hmade (kind : FileKind) :
      ∃ kind', OpenFile.ofKind n (flags.without OpenFlags.createBit) kind =
        .ofKind n flags kind' := ⟨kind, Streams.ofKind_without_create n flags kind⟩
  rw [openFound]
  split
  · exact leads_pure ⟨.path, rfl⟩
  refine leads_world_bind (leads_demand_bind fun _ => leads_query_bind fun o _ =>
    leads_query_bind fun v _ => ?_)
  dsimp only
  split
  · refine leads_demand_bind fun _ => leads_query fun file hfile => ?_
    rw [OpsKind.result_openDirectory hfile]
    exact hmade (.directory 0)
  · refine leads_demand_bind fun _ => leads_demand_bind fun _ => leads_note_bind (leads_bind
      (P := fun file _ => ∃ kind, file = .ofKind n flags kind) ?_
        fun _ _ _ hfile => leads_note_bind (leads_pure hfile))
    cases o with
    | bare => exact leads_pure (hmade (.stream 0))
    | scripted meter script => exact leads_query_bind fun _ _ => leads_pure (hmade (.stream 0))
    | ram =>
      refine leads_bind (P := fun _ _ => True) (leads_when (fun hempties => ⟨.single ⟨?_, rfl⟩,
        fun _ _ => trivial⟩) fun _ => trivial) fun _ _ _ _ => leads_pure (hmade (.stream 0))
      rwa [flags.truncates_without (by decide), flags.writable_without (by decide)] at hempties

omit hm hw in
/-- A node that is opened is the node that was asked for, and it is a regular file if it was. -/
theorem openFound_leads (n : NodeId) (flags : OpenFlags) :
    (openFound n flags).Leads (fun w w' => (w.node n).bytes? = none → (w'.node n).bytes? = none) w
      fun file _ => file.node = n := by
  refine ((openFound_makes n flags).mono ?_).imp ?_
  · rintro w _ ⟨-, rfl⟩ hnone
    rw [RamFs.world_truncate hnone]
    exact hnone
  · rintro _ _ - ⟨kind, rfl⟩
    rfl

omit hm hw in
/-- A node that is not to be emptied is opened without a trace. -/
theorem openFound_world {n : NodeId} {flags : OpenFlags}
    (hkeeps : (flags.truncates && flags.writable) = false) (w : World) :
    (openFound n flags w).world = w := by
  refine Action.Leads.world_eq ((openFound_makes n flags).mono ?_)
  rintro _ _ ⟨hempties, -⟩
  rw [hkeeps] at hempties
  cases hempties

omit hm hw in
theorem reopening_leads (file : OpenFile) :
    (reopening file).Leads
      (fun w w' => (w.node file.node).bytes? = none → (w'.node file.node).bytes? = none) w
        fun fresh _ => fresh.node = file.node :=
  leads_bind (openFound_leads file.node _) fun fresh _ _ hnode => leads_pure (by
    rw [fresh.setPosition_node, hnode])

omit hm hw in
/-- A stream that is moved is one at another position. -/
theorem World.asStream_setPosition (file : OpenFile) (position : Nat) :
    w.asStream (file.setPosition position) =
      (w.asStream file).map fun s => { s with position } := by
  rw [asStream, asStream, file.setPosition_node]
  split
  · cases hs : file.stream? with
    | none => rw [OpenFile.setPosition_of_stream?_none hs, hs, Option.map_none]
    | some s =>
      rw [OpenFile.stream?_eq_some] at hs
      subst hs
      rfl
  · rfl

theorem reopening_tells (file : OpenFile) :
    m.Opened (file.flags.without OpenFlags.truncateBit) file.position
      ((reopening file).ended w) := by
  have hfound := openFound_tells hm hw file.node (file.flags.without OpenFlags.truncateBit)
  rw [reopening, ended_bind]
  generalize (openFound _ _).ended w = done at hfound ⊢
  rcases done with ⟨e | fresh, w'⟩
  · exact hfound
  · show m.Admitted _ _ (w'.asStream (fresh.setPosition file.position)) none w'
    rw [World.asStream_setPosition]
    cases hs : w'.asStream fresh with
    | none =>
      rw [Streams.Opened, streamOpened, hs] at hfound
      exact hfound
    | some s =>
      rw [Streams.Opened, streamOpened, hs] at hfound
      exact ⟨hfound.1, rfl, hfound.2.2⟩

omit hm in
theorem reopening_wellFormed {file : OpenFile} (hn : w.Known file.node) :
    (reopening file w).world.WellFormed := by
  have hmoves : (reopening file).LeadsOnly (World.Move .all) w :=
    leads_bind (openFound_turns hw.steady hn _).moves fun _ _ _ _ => leads_pure trivial
  exact World.Edits.wellFormed (hw.edits_of_moves hmoves.1) hw

omit hm hw in
/-- What a handle stands for is a stream on a regular file, or it is at no position. -/
theorem openFileOf_stream {h : Handle} {file : OpenFile}
    (hfile : (openFileOf t h w).result = .ok file) {bytes : ByteArray}
    (hbytes : (w.node file.node).bytes? = some bytes) :
    match w.streamBehind t h with
    | some f => ∃ s, w.stream? f = some s ∧ file = s.file
    | none => file.position = 0 := by
  obtain ⟨f, hf, hlook⟩ := Query.result_bind_eq_ok.1 hfile
  obtain rfl : w.file f = file := Except.ok.inj hlook
  cases hbehind : w.streamBehind t h with
  | some g =>
    obtain ⟨hg, s, hs⟩ := World.streamBehind_eq_some.1 hbehind
    obtain rfl : f = g := Except.ok.inj (hf.symm.trans hg)
    exact ⟨s, hs, World.file_of_stream? hs⟩
  | none =>
    have hnone := World.stream?_of_streamBehind_none hbehind hf
    dsimp only
    rw [World.file] at hbytes ⊢
    rw [World.stream?] at hnone
    cases hget : w.files.get? f with
    | none => rfl
    | some file =>
      rw [hget] at hbytes hnone
      rw [Option.bind_some] at hnone
      rw [Option.getD_some] at hbytes ⊢
      rw [World.asStream, hbytes, Option.isSome_some, if_pos rfl, OpenFile.stream?] at hnone
      rw [OpenFile.position]
      split
      · next hkind =>
        rw [hkind] at hnone
        cases hnone
      · rfl

omit hm hw in
theorem World.opening_eq_some {c : ContextId} {x : Act OpenFile} {s : Stream}
    (h : w.opening c x = some s) : ∃ handle file, ∃ w' w'' : World,
      (allocateHandle c).ended w = (.ok handle, w') ∧ x.ended w' = (.ok file, w'') ∧
        w''.asStream file = some s := by
  rw [opening, ended_bind] at h
  rcases hallocate : (allocateHandle c).ended w with ⟨e | handle, w'⟩ <;> rw [hallocate] at h
  · cases h
  · dsimp only at h
    rcases hrun : x.ended w' with ⟨e | file, w''⟩ <;> rw [hrun] at h
    · cases h
    · exact ⟨handle, file, w', w'', rfl, hrun, h⟩

omit hm in
/-- A regular file is opened once more as itself. -/
theorem World.opening_reopening {c : ContextId} {file : OpenFile} {s : Stream}
    (h : w.opening c (reopening file) = some s) :
    s.node = file.node ∧ ∃ bytes, (w.node file.node).bytes? = some bytes := by
  obtain ⟨handle, fresh, w', w'', hallocate, hrun, hs⟩ := World.opening_eq_some h
  obtain ⟨hresult, hworld⟩ := Prod.mk.inj hrun
  obtain ⟨hallocated, hreserved⟩ := Prod.mk.inj hallocate
  obtain ⟨rfl, bytes, hbytes⟩ := asStream_eq_some.1 hs
  have hleads := reopening_leads (w := w') file
  have hnode : s.node = file.node := hleads.2 _ hresult
  refine ⟨hnode, Option.ne_none_iff_exists'.1 fun hnone => ?_⟩
  have hsame := ((allocateHandle_turns (hw.steady : w.Steady .all) c).2 handle hallocated).1
  rw [hreserved] at hsame
  have hnone' : (w'.node file.node).bytes? = none := by
    rw [World.node, hsame]
    exact hnone
  have hlost := hleads.only.kept (P := fun w => (w.node file.node).bytes? = none) hnone'
  rw [hworld, ← hnode, hbytes] at hlost
  cases hlost

theorem reopen_served (h : Handle) :
    m.Serves
      ((openFileOf t h w).result.toOption.bind fun file =>
        (w.opening (w.contextOf t h.isKernel) (reopening file)).bind fun s =>
          (w.boundKey (reopen t h)).map fun copy =>
            match w.streamBehind t h with
            | some f => .reopened f copy
            | none => .opened (some copy) s.node s.flags)
      none (reopen t h w).world := by
  have hafter : (reopen t h w).world.WellFormed :=
    World.Edits.wellFormed ((Operation.reopen t h).edits hw) hw
  cases hfile : (openFileOf t h w).result with
  | error e =>
    have hworld : (reopen t h w).world = w := (Prod.mk.inj (ended_reopen_error hfile)).2
    rw [hworld]
    exact hm
  | ok file =>
    have hn := hw.sound.openFileOf_yields t h file hfile
    have hspares : (reopening file).Does World.Sparing True :=
      does_bind (openFound_spares standard_discreet file.node _) fun _ => does_pure _
    have hadmitted := openInto_tells hm hw (w.contextOf t h.isKernel) hspares
      (fun w' hw' hnodes hvolumes =>
        ⟨reopening_wellFormed hw' (hn.congr hnodes hvolumes),
          fun hm' => reopening_tells hm' hw' file⟩)
      (ended_reopen hfile) hafter
    show m.Serves ((w.opening (w.contextOf t h.isKernel) (reopening file)).bind _) none _
    cases hopening : w.opening (w.contextOf t h.isKernel) (reopening file) with
    | none =>
      rw [hopening] at hadmitted
      exact hadmitted
    | some s =>
      rw [hopening] at hadmitted
      obtain ⟨hflags, hposition, htells⟩ := hadmitted
      obtain ⟨hnode, hregular⟩ := World.opening_reopening hw hopening
      rw [m.emptied_of_not_truncates s.node file.flags.truncates_without_truncate] at htells
      rw [Option.bind_some]
      cases hkey : w.boundKey (reopen t h) with
      | none =>
        rw [hkey] at htells
        exact htells
      | some copy =>
        rw [hkey] at htells
        rw [Option.map_some]
        obtain ⟨bytes, hbytes⟩ := hregular
        have hstream := openFileOf_stream hfile hbytes
        cases hbehind : w.streamBehind t h with
        | some f =>
          rw [hbehind] at hstream
          obtain ⟨old, hold, rfl⟩ := hstream
          have hs : { old with flags := remembered (old.flags.without OpenFlags.truncateBit) } =
              s := Stream.ext hnode.symm hflags.symm hposition.symm
          refine ⟨rfl, ?_⟩
          dsimp only [Streams.serve]
          rw [hm.stream_of_stream? hold]
          dsimp only
          rw [hs]
          exact htells
        | none =>
          rw [hbehind] at hstream
          have hkept : s.flags.truncates = false := by
            rw [hflags, Streams.truncates_remembered, OpenFlags.truncates_without_truncate]
          have hs : { node := s.node, flags := remembered s.flags, position := 0 } = s :=
            Stream.ext rfl (by rw [hflags, Streams.remembered_remembered])
              (by rw [hposition, hstream])
          refine ⟨rfl, ?_⟩
          dsimp only [Streams.serve]
          rw [m.emptied_of_not_truncates s.node hkept, hs]
          exact htells

end

end VirtualFs
