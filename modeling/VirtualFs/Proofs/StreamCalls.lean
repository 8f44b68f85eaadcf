/-
Transfers, seeks and changes of flags and sizes, as the machine of bytes and
streams answers them. A handle that stands for a stream on a regular file asks
that stream; whatever else it stands for, no regular file changes and no stream
on one moves.
-/
import VirtualFs.Proofs.Operating
import VirtualFs.Proofs.StreamState

namespace VirtualFs

open Query (demand ofResult)
open VirtualFs.Action (leads_pure leads_throw leads_bind leads_query leads_query_bind
  leads_note_bind leads_change leads_change_bind leads_demand_bind leads_when)

open VirtualFs.Action (ended_pure ended_query ended_bind ended_query_bind ended_query_bind_error
  ended_note_bind ended_attempt ended_when)

theorem ended_receive {α : Type} {buffers : List ByteArray} {deliver : Act ByteArray}
    {finish : ByteArray → Act α} {data : ByteArray} {r : Except Error α} {w w' w'' : World}
    (h : deliver.ended w = (.ok data, w')) (hfinish : (finish data).ended w' = (r, w'')) :
    (receive buffers deliver finish).ended w =
      (.ok { result := r, buffers := Bytes.scatter data buffers }, w'') := by
  rw [receive, ended_bind, ended_attempt, h]
  dsimp only
  rw [ended_bind, ended_attempt, hfinish]
  rfl

theorem ended_receive_error {α : Type} {buffers : List ByteArray} {deliver : Act ByteArray}
    {e : Error} {w w' : World} (h : deliver.ended w = (.error e, w'))
    (finish : ByteArray → Act α) : (receive buffers deliver finish).ended w =
      (.ok { result := .error e, buffers }, w') := by
  rw [receive, ended_bind, ended_attempt, h]
  rfl

/-- A stream that is moved goes to the end of the transfer. -/
theorem ended_moveBy_bind {α : Type} {f : FileId} {position count : Nat}
    (h : position + count < wordLimit) (rest : Act α) (w : World) :
    (do moveBy f position count; rest : Act α).ended w =
      rest.ended (w.setFile f fun file => file.setPosition (position + count)) := by
  have hafter : (ofResult (positionAfter position count) w).result = .ok (position + count) := by
    rw [Query.result_ofResult, positionAfter, if_pos h]
  rw [ended_bind, moveBy, ended_query_bind hafter]
  rfl

/-! ## The stream behind a handle -/

/-- The stream on a regular file that a task's handle stands for. -/
def World.streamBehind (w : World) (t : TaskId) (h : Handle) : Option FileId :=
  (fileOf t h w).result.toOption.filter fun f => (w.stream? f).isSome

namespace World

variable {w : World} {t : TaskId} {h : Handle} {f : FileId} {s : Stream}

theorem streamBehind_eq_some : w.streamBehind t h = some f ↔
    (fileOf t h w).result = .ok f ∧ ∃ s, w.stream? f = some s := by
  rw [streamBehind, Option.filter_eq_some_iff, Option.isSome_iff_exists]
  cases (fileOf t h w).result with
  | error e => exact ⟨nofun, nofun⟩
  | ok g => simp [Except.toOption]

theorem stream?_of_streamBehind_none (hnone : w.streamBehind t h = none)
    (hf : (fileOf t h w).result = .ok f) : w.stream? f = none := by
  rw [streamBehind, hf, Except.toOption, Option.filter_eq_none_iff] at hnone
  simpa using hnone

end World

section

variable {w : World} (hw : w.WellFormed) {t : TaskId} {h : Handle} {f : FileId} {s : Stream}
  {bytes : ByteArray}

include hw

/-- A regular file has the operations of the memory filesystem. -/
theorem World.WellFormed.ops_of_bytes? {n : NodeId} (hbytes : (w.node n).bytes? = some bytes) :
    (w.node n).ops = some .ram := by
  have hram := hw.ram n (World.live_of_bytes? hbytes)
  refine hram.ops.resolve_right fun hdevice => ?_
  rw [hram.bytes?_eq_some, hdevice] at hbytes
  cases hbytes

theorem World.WellFormed.nodeOf_bytes? {n : NodeId} (hbytes : (w.node n).bytes? = some bytes) :
    ∃ ram, RamFs.nodeOf n w = { result := .ok ram } ∧ ram.content = .file bytes := by
  have hram := hw.ram n (World.live_of_bytes? hbytes)
  exact ⟨_, RamFs.nodeOf_apply hram, hram.bytes?_eq_some.1 hbytes⟩

theorem result_opsOf (hs : w.stream? f = some s) : (opsOf s.node w).result = .ok .ram := by
  obtain ⟨-, bytes, hbytes⟩ := World.stream?_eq_some.1 hs
  exact World.opsOf_eq_ok.2 (hw.ops_of_bytes? hbytes)

theorem result_streamOf (hf : (fileOf t h w).result = .ok f) (hs : w.stream? f = some s) :
    (streamOf t h w).result = .ok (f, s.file, .ram) := by
  refine Query.result_bind_eq_ok.2 ⟨f, hf, ?_⟩
  rw [Query.look_bind, World.file_of_stream? hs]
  exact Query.result_bind_eq_ok.2 ⟨(), rfl, Query.result_bind_eq_ok.2 ⟨_, result_opsOf hw hs, rfl⟩⟩

theorem result_readableOf (hf : (fileOf t h w).result = .ok f) (hs : w.stream? f = some s) :
    (readableOf t h w).result =
      if s.flags.readable then .ok (f, s.file, .ram) else .error .badHandle := by
  rw [readableOf, Query.result_bind, result_streamOf hw hf hs, Except.bind, Query.result_bind,
    Query.result_demand]
  show Except.bind (if s.flags.readable = true then _ else _) _ = _
  split <;> rfl

theorem result_writableOf (hf : (fileOf t h w).result = .ok f) (hs : w.stream? f = some s) :
    (writableOf t h w).result =
      if s.flags.writable then .ok (f, s.file, .ram) else .error .badHandle := by
  rw [writableOf, Query.result_bind, result_streamOf hw hf hs, Except.bind, Query.result_bind,
    Query.result_demand]
  show Except.bind (if s.flags.writable = true then _ else _) _ = _
  split <;> rfl

theorem result_volumeOf (hs : w.stream? f = some s) :
    (volumeOf s.node w).result = .ok (w.node s.node).volume := by
  obtain ⟨-, bytes, hbytes⟩ := World.stream?_eq_some.1 hs
  exact hw.volumeOf_result (World.live_of_bytes? hbytes)

/-- The attributes tell the size of a file. -/
theorem result_size (hs : w.stream? f = some s) (hbytes : (w.node s.node).bytes? = some bytes) :
    ((Status.size <$> statusOf s.node) w).result = .ok bytes.size := by
  obtain ⟨ram, hnode, hcontent⟩ := hw.nodeOf_bytes? hbytes
  have hstatus : ∃ status : Status,
      (OpsKind.ram.status (w.node s.node).volume s.node w).result = .ok status ∧
        status.size = bytes.size := by
    refine ⟨_, Query.result_bind_eq_ok.2 ⟨ram, by rw [hnode], Query.result_bind_eq_ok.2
      ⟨w, rfl, rfl⟩⟩, ?_⟩
    show ram.content.size = bytes.size
    rw [hcontent]
    rfl
  obtain ⟨status, hstatus, hsize⟩ := hstatus
  rw [← bind_pure_comp]
  refine Query.result_bind_eq_ok.2 ⟨_, Query.result_bind_eq_ok.2 ⟨_, result_opsOf hw hs,
    Query.result_bind_eq_ok.2 ⟨_, result_volumeOf hw hs, Query.result_bind_eq_ok.2
      ⟨status, hstatus, rfl⟩⟩⟩, ?_⟩
  rw [← hsize]
  show Except.ok (Status.size (if _ then _ else _)) = _
  split <;> rfl

end

section

variable {w : World} {t : TaskId} {h : Handle} {found : FileId × OpenFile × OpsKind}

theorem streamOf_found (hfound : (streamOf t h w).result = .ok found) :
    (fileOf t h w).result = .ok found.1 ∧ found.2.1 = w.file found.1 ∧
      found.2.1.kind.asStream = .ok () := by
  obtain ⟨f, hf, hfound⟩ := Query.result_bind_eq_ok.1 hfound
  rw [Query.look_bind] at hfound
  obtain ⟨_, hkind, hfound⟩ := Query.result_bind_eq_ok.1 hfound
  obtain ⟨ops, -, hfound⟩ := Query.result_bind_eq_ok.1 hfound
  cases hfound
  rw [Query.result_ofResult] at hkind
  exact ⟨hf, rfl, hkind⟩

theorem readableOf_found (hfound : (readableOf t h w).result = .ok found) :
    (streamOf t h w).result = .ok found := by
  obtain ⟨_, hstream, hfound⟩ := Query.result_bind_eq_ok.1 hfound
  obtain ⟨_, -, hfound⟩ := Query.result_bind_eq_ok.1 hfound
  cases hfound
  exact hstream

theorem writableOf_found (hfound : (writableOf t h w).result = .ok found) :
    (streamOf t h w).result = .ok found := by
  obtain ⟨_, hstream, hfound⟩ := Query.result_bind_eq_ok.1 hfound
  obtain ⟨_, -, hfound⟩ := Query.result_bind_eq_ok.1 hfound
  cases hfound
  exact hstream

/-- The root of everything is no regular file, so what is gone is none either. -/
theorem World.WellFormed.bytes?_zero (hw : w.WellFormed) : (w.node 0).bytes? = none := by
  have hdir := hw.rooted.isDirectory _ hw.rooted.rootVolume
  have hroot : (w.volume w.rootVolume).root = 0 := hw.rooted.rootNode
  rw [hroot] at hdir
  cases hbytes : (w.node 0).bytes? with
  | none => rfl
  | some bytes =>
    have hregular := (hw.ram 0 hw.live_zero).isSome_bytes?.1 (by rw [hbytes]; rfl)
    rw [World.isDirectory, Mode.isDirectory, hregular] at hdir
    exact absurd hdir (by decide)

/-- A stream that is none on a regular file is one on something else. -/
theorem bytes?_of_other (hw : w.WellFormed) (hbehind : w.streamBehind t h = none)
    (hfound : (streamOf t h w).result = .ok found) : (w.node found.2.1.node).bytes? = none := by
  obtain ⟨hf, hfile, hkind⟩ := streamOf_found hfound
  have hnone := World.stream?_of_streamBehind_none hbehind hf
  rw [hfile] at hkind ⊢
  rw [World.file] at hkind ⊢
  rw [World.stream?] at hnone
  cases hget : w.files.get? found.1 with
  | none => exact hw.bytes?_zero
  | some file =>
    rw [hget] at hkind hnone
    rw [Option.bind_some] at hnone
    rw [Option.getD_some] at hkind ⊢
    by_contra hbytes
    rw [World.asStream, if_pos (Option.isSome_iff_ne_none.2 hbytes), OpenFile.stream?] at hnone
    cases hcase : file.kind with
    | stream position =>
      rw [hcase] at hnone
      cases hnone
    | directory | path =>
      rw [hcase] at hkind
      cases hkind

end

/-! ## What is read and written -/

section

variable {w : World} (hw : w.WellFormed) {n : NodeId} {bytes : ByteArray}
  (hbytes : (w.node n).bytes? = some bytes)

include hw hbytes

theorem result_read (file : OpenFile) (hfile : file.node = n) (position room : Nat) :
    (OpsKind.ram.read file position room w).result =
      .ok (bytes.extract position (position + room)) := by
  obtain ⟨ram, hnode, hcontent⟩ := hw.nodeOf_bytes? hbytes
  subst hfile
  refine Query.result_bind_eq_ok.2 ⟨(), rfl, Query.result_bind_eq_ok.2 ⟨ram, by rw [hnode], ?_⟩⟩
  rw [hcontent]
  rfl

theorem ended_write (file : OpenFile) (hfile : file.node = n) (position : Nat) (data : ByteArray) :
    (OpsKind.ram.write file position data).ended w =
      if data.size = 0 then (.ok 0, w)
      else if position + data.size ≤ RamFs.fileSizeMax then
        (.ok data.size, w.withBytes n (Bytes.overwrite bytes position data))
      else (.error .fileTooLarge, w) := by
  obtain ⟨ram, hnode, hcontent⟩ := hw.nodeOf_bytes? hbytes
  subst hfile
  rw [OpsKind.write, ended_note_bind]
  refine (ended_query_bind (a := ram) (by rw [hnode])).trans ?_
  rw [hcontent]
  dsimp only
  split
  · rfl
  · split
    · next hfits =>
      exact ended_query_bind (a := ()) (Query.result_demand_eq_ok.2 hfits)
    · next hfits =>
      refine ended_query_bind_error ?_
      rw [Query.result_demand, if_neg hfits]

end

theorem content_ne_file {w : World} {n : NodeId} (hnone : (w.node n).bytes? = none)
    {ram : RamNode} (hram : (RamFs.nodeOf n w).result = .ok ram) (bytes : ByteArray) :
    ram.content ≠ .file bytes := by
  intro hcontent
  rw [RamFs.nodeOf, Query.look_bind] at hram
  rw [Node.bytes?] at hnone
  cases hpayload : (w.node n).payload with
  | ram held =>
    rw [hpayload] at hram hnone
    cases hram
    simp only [hcontent, reduceCtorEq] at hnone
  | scripted children =>
    rw [hpayload] at hram
    cases hram

/-- What is no regular file takes no bytes. -/
theorem world_write {w : World} (ops : OpsKind) {file : OpenFile}
    (hnone : (w.node file.node).bytes? = none) (position : Nat) (data : ByteArray) :
    (ops.write file position data w).world = w := by
  have hidle : (ops.write file position data).LeadsOnly (fun _ _ => False) w := by
    refine leads_note_bind ?_
    cases ops with
    | bare => exact leads_throw
    | scripted meter script => exact leads_query_bind fun _ _ => leads_pure trivial
    | ram =>
      refine leads_query_bind fun ram hram => ?_
      have hnot := content_ne_file hnone hram
      split
      · next bytes hcontent => exact absurd hcontent (hnot bytes)
      · exact leads_query_bind fun _ _ => leads_query_bind fun _ _ => leads_throw
  exact hidle.world_eq

/-! ## Calls that the machine answers -/

/-- How a call ends that fills buffers. -/
def StreamAnswer.ofReceived : Except Error (Received Nat) → StreamAnswer
  | .ok received => { result := received.result, buffers := received.buffers.map Bytes.list }
  | .error e => { result := .error e }

/-- The machine answers a call as it was answered, and is right about the world after it; without a
call it is right as it is. -/
def Streams.Serves (m : Streams) (call : Option StreamCall) (answer : Option StreamAnswer)
    (w' : World) : Prop :=
  match call with
  | some call => (m.serve call).1 = answer ∧ (m.serve call).2.Tells w'
  | none => m.Tells w'

section

variable {m : Streams} {w w' : World} {f : FileId} {s : Stream} {answer : StreamAnswer}

/-- A call that a stream answers. -/
theorem Streams.serves_to {call : StreamCall} {ask : Stream → StreamAnswer × Streams}
    (hcall : m.serve call = Streams.serve.onStream m f ask) (hs : m.stream f = some s)
    {m' : Streams} (hanswer : ask s = (answer, m')) (htells : m'.Tells w') :
    m.Serves (some call) (some answer) w' := by
  have hserve : m.serve call = (some answer, m') := by
    rw [hcall, Streams.serve.onStream, hs]
    dsimp only
    rw [hanswer]
  rw [Streams.Serves, hserve]
  exact ⟨rfl, htells⟩

theorem Streams.serves_resize {n : NodeId} {readOnly : Bool} {size : Nat} {m' : Streams}
    (hanswer : m.setSize n readOnly size = (answer, m')) (htells : m'.Tells w') :
    m.Serves (some (.resize n readOnly size)) (some answer) w' := by
  have hserve : m.serve (.resize n readOnly size) = (some answer, m') := by
    rw [Streams.serve, hanswer]
  rw [Streams.Serves, hserve]
  exact ⟨rfl, htells⟩

end

section

variable {m : Streams} {w : World} (hm : m.Tells w) (hw : w.WellFormed) {t : TaskId} {h : Handle}
  {f : FileId} {s : Stream} {bytes : ByteArray}

include hm hw

omit hw in
/-- The stream that a handle stands for, in the world and in the machine. -/
theorem Streams.Tells.behind (hbehind : w.streamBehind t h = some f) :
    (fileOf t h w).result = .ok f ∧ ∃ s bytes, w.stream? f = some s ∧
      (w.node s.node).bytes? = some bytes ∧ m.stream f = some s := by
  obtain ⟨hf, s, hs⟩ := World.streamBehind_eq_some.1 hbehind
  obtain ⟨-, bytes, hbytes⟩ := World.stream?_eq_some.1 hs
  exact ⟨hf, s, bytes, hs, hbytes, hm.stream_of_stream? hs⟩

omit hw in
/-- The machine reads what the library reads. -/
theorem Streams.Tells.read_eq (hbytes : (w.node s.node).bytes? = some bytes)
    (hreadable : s.flags.readable = true) {place : Option Nat} {position : Nat}
    (hplace : place.getD s.position = position) (buffers : List ByteArray) :
    m.read f s place (buffers.map Bytes.list) =
      let data := bytes.extract position (position + Bytes.room buffers)
      ({ result := .ok data.size, buffers := (Bytes.scatter data buffers).map Bytes.list },
        m.pass f s place (position + data.size)) := by
  rw [Streams.read, if_pos hreadable, hplace, hm.bytes _ _ hbytes, Bytes.length_flatten_list]
  dsimp only
  rw [← Bytes.list_extract_window, Bytes.list_scatter, Bytes.length_list]

omit hm hw in
theorem read_refused (hreadable : ¬s.flags.readable = true) (place : Option Nat)
    (buffers : List (List UInt8)) :
    m.read f s place buffers = ({ result := .error .badHandle, buffers }, m) := by
  rw [Streams.read, if_neg hreadable]

omit hm hw in
/-- The answer and the world, put together as they are left. -/
theorem Streams.Serves.of_ended {α : Type} {call : Option StreamCall} {x : Act α}
    {answer : Except Error α → StreamAnswer} {r : Except Error α} {w' : World}
    (hrun : x.ended w = (r, w')) (h : m.Serves call (some (answer r)) w') :
    m.Serves call (some (answer (x w).result)) (x w).world := by
  obtain ⟨hresult, hworld⟩ := Prod.mk.inj hrun
  rw [hresult, hworld]
  exact h

omit hm hw in
/-- What is no stream on a regular file may be moved. -/
theorem moveBy_tells (hs : w.stream? f = none) (position count : Nat) :
    (moveBy f position count).LeadsOnly (fun w w' => m.Tells w → m.Tells w') w := by
  exact leads_query_bind fun next _ => leads_change (.single fun h => h.setPosition hs next) trivial

omit hw in
/-- No read ends past what a position may be. -/
theorem position_lt_wordLimit (hb : m.Bounded) (hs : w.stream? f = some s)
    (hbytes : (w.node s.node).bytes? = some bytes) (room : Nat) :
    s.position + (bytes.extract s.position (s.position + room)).size < wordLimit := by
  have hposition := hb.position f s (hm.stream_of_stream? hs)
  have hsize := hb.bytes s.node
  rw [hm.bytes _ _ hbytes, Bytes.length_list] at hsize
  have hmax : positionMax + RamFs.fileSizeMax < wordLimit := by decide
  rw [ByteArray.size_extract]
  omega

theorem readv_served (hb : m.Bounded) (buffers : List ByteArray) :
    m.Serves ((w.streamBehind t h).map fun f => .read f none (buffers.map Bytes.list))
      (some (.ofReceived (readv t h buffers w).result)) (readv t h buffers w).world := by
  cases hbehind : w.streamBehind t h with
  | none =>
    refine Action.Leads.kept (P := m.Tells) (leads_query_bind fun found hfound => ?_) hm
    rw [Query.result_attempt, Except.ok.injEq] at hfound
    split
    · exact leads_pure trivial
    · refine receive_leads (leads_query fun _ _ => trivial) fun data => ?_
      have hnone := World.stream?_of_streamBehind_none hbehind
        (streamOf_found (readableOf_found hfound)).1
      exact leads_bind (moveBy_tells hnone _ _) fun _ _ _ _ => leads_pure trivial
  | some f =>
    obtain ⟨hf, s, bytes, hs, hbytes, hms⟩ := hm.behind hbehind
    by_cases hreadable : s.flags.readable = true
    · have hallowed : (Query.attempt (readableOf t h) w).result = .ok (.ok (f, s.file, .ram)) := by
        rw [Query.result_attempt, result_readableOf hw hf hs, if_pos hreadable]
      have hread := result_read hw hbytes s.file rfl s.position (Bytes.room buffers)
      have hlt := position_lt_wordLimit hm hb hs hbytes (Bytes.room buffers)
      have hplace : (none : Option Nat).getD s.position = s.position := rfl
      have hanswer := hm.read_eq (f := f) hbytes hreadable hplace buffers
      generalize bytes.extract s.position (s.position + Bytes.room buffers) = data at *
      have hrun : (readv t h buffers).ended w =
          (.ok { result := .ok data.size, buffers := Bytes.scatter data buffers },
            w.setFile f fun file => file.setPosition (s.position + data.size)) := by
        exact (ended_query_bind hallowed).trans
          (ended_receive (ended_query hread) (ended_moveBy_bind hlt _ w))
      exact .of_ended hrun (Streams.serves_to rfl hms hanswer (hm.setFile hs rfl rfl))
    · have hrefused : (Query.attempt (readableOf t h) w).result = .ok (.error .badHandle) := by
        rw [Query.result_attempt, result_readableOf hw hf hs, if_neg hreadable]
      have hrun : (readv t h buffers).ended w =
          (.ok { result := .error .badHandle, buffers }, w) := ended_query_bind hrefused
      have hanswer := read_refused (m := m) (f := f) hreadable none (buffers.map Bytes.list)
      exact .of_ended hrun (Streams.serves_to rfl hms hanswer hm)

theorem preadv_served (position : Nat) (buffers : List ByteArray) :
    m.Serves
      ((w.streamBehind t h).map fun f => .read f (some position) (buffers.map Bytes.list))
      (some (.ofReceived (preadv t h position buffers w).result))
      (preadv t h position buffers w).world := by
  cases hbehind : w.streamBehind t h with
  | none =>
    exact Action.Leads.kept (P := m.Tells) (receive_leads
      (leads_query_bind fun _ _ => leads_query fun _ _ => trivial) fun _ => leads_pure trivial) hm
  | some f =>
    obtain ⟨hf, s, bytes, hs, hbytes, hms⟩ := hm.behind hbehind
    have hallowed := result_readableOf hw hf hs
    by_cases hreadable : s.flags.readable = true
    · rw [if_pos hreadable] at hallowed
      have hread := result_read hw hbytes s.file rfl position (Bytes.room buffers)
      have hplace : (some position).getD s.position = position := rfl
      have hanswer := hm.read_eq (f := f) hbytes hreadable hplace buffers
      generalize bytes.extract position (position + Bytes.room buffers) = data at *
      have hrun : (preadv t h position buffers).ended w =
          (.ok { result := .ok data.size, buffers := Bytes.scatter data buffers }, w) :=
        ended_receive ((ended_query_bind hallowed).trans (ended_query hread)) (ended_pure _)
      exact .of_ended hrun (Streams.serves_to rfl hms hanswer hm)
    · rw [if_neg hreadable] at hallowed
      have hrun : (preadv t h position buffers).ended w =
          (.ok { result := .error .badHandle, buffers }, w) :=
        ended_receive_error (ended_query_bind_error hallowed) _
      have hanswer := read_refused (m := m) (f := f) hreadable (some position)
        (buffers.map Bytes.list)
      exact .of_ended hrun (Streams.serves_to rfl hms hanswer hm)

/-- The machine writes what the library writes, and fails where it fails. -/
theorem Streams.Tells.written (hs : w.stream? f = some s)
    (hbytes : (w.node s.node).bytes? = some bytes) (hwritable : s.flags.writable = true)
    (position : Nat) (segments : List ByteArray) : ∃ r m' w',
      (OpsKind.ram.write s.file position (Bytes.gather segments)).ended w = (r, w') ∧
        m'.Tells w' ∧ w'.stream? f = some s ∧
        (∀ count, r = .ok count → count = 0 ∨ position + count ≤ RamFs.fileSizeMax) ∧
        ∀ place : Option Nat,
          place.getD (if s.flags.appends then bytes.size else s.position) = position →
            m.write f s place (segments.map Bytes.list) =
              ({ result := r },
                match r with
                | .ok count => m'.pass f s place (position + count)
                | .error _ => m') := by
  have hwrite := ended_write hw hbytes s.file rfl position (Bytes.gather segments)
  have hmachine : ∀ place : Option Nat,
      place.getD (if s.flags.appends then bytes.size else s.position) = position →
        m.write f s place (segments.map Bytes.list) =
          let data := Bytes.gather segments
          if data.size = 0 then ({ result := .ok 0 }, m.pass f s place position)
          else if position + data.size ≤ RamFs.fileSizeMax then
            ({ result := .ok data.size },
              (m.setBytes s.node (Bytes.list (Bytes.overwrite bytes position data))).pass f s place
                (position + data.size))
          else ({ result := .error .fileTooLarge }, m) := by
    intro place hplace
    rw [Streams.write, if_pos hwritable, hm.bytes _ _ hbytes]
    dsimp only
    rw [Bytes.length_list, hplace, ← Bytes.list_gather, Bytes.length_list, Bytes.list_overwrite]
    by_cases hempty : (Bytes.gather segments).size = 0
    · rw [if_pos hempty, if_pos (Bytes.list_eq_nil_iff.2 hempty)]
    · rw [if_neg hempty, if_neg (mt Bytes.list_eq_nil_iff.1 hempty)]
  generalize Bytes.gather segments = data at *
  dsimp only at hmachine
  split at hwrite
  · next hempty =>
    refine ⟨_, m, w, hwrite, hm, hs, fun count hcount => .inl (Except.ok.inj hcount).symm, ?_⟩
    intro place hplace
    rw [hmachine place hplace, if_pos hempty]
    rfl
  · next hempty =>
    split at hwrite
    · next hfits =>
      refine ⟨_, _, _, hwrite, hm.withBytes hbytes _, ?_, fun count hcount => ?_, ?_⟩
      · rw [World.stream?_withBytes hbytes, hs]
      · cases hcount
        exact .inr hfits
      · intro place hplace
        rw [hmachine place hplace, if_neg hempty, if_pos hfits]
    · next hfits =>
      refine ⟨_, m, w, hwrite, hm, hs, fun _ hcount => (by cases hcount), ?_⟩
      intro place hplace
      rw [hmachine place hplace, if_neg hempty, if_neg hfits]

omit hm hw in
theorem write_refused (hwritable : ¬s.flags.writable = true) (place : Option Nat)
    (segments : List (List UInt8)) :
    m.write f s place segments = ({ result := .error .badHandle }, m) := by
  rw [Streams.write, if_neg hwritable]

omit hm in
theorem result_writePosition (hs : w.stream? f = some s)
    (hbytes : (w.node s.node).bytes? = some bytes) : (writePosition s.file w).result =
      .ok (if s.flags.appends then bytes.size else s.position) := by
  have hflags : s.file.flags = s.flags := rfl
  rw [writePosition, hflags]
  split
  · exact result_size hw hs hbytes
  · rfl

/-- How a call ends that counts. -/
def StreamAnswer.ofCount (result : Except Error Nat) : StreamAnswer where
  result := result

theorem pwritev_served (position : Nat) (segments : List ByteArray) :
    m.Serves
      ((w.streamBehind t h).map fun f => .write f (some position) (segments.map Bytes.list))
      (some (.ofCount (pwritev t h position segments w).result))
      (pwritev t h position segments w).world := by
  cases hbehind : w.streamBehind t h with
  | none =>
    refine Action.Leads.kept (P := m.Tells) (leads_query_bind fun found hfound => ?_) hm
    refine ⟨.single fun h => ?_, fun _ _ => trivial⟩
    rw [world_write _ (bytes?_of_other hw hbehind (writableOf_found hfound))]
    exact h
  | some f =>
    obtain ⟨hf, s, bytes, hs, hbytes, hms⟩ := hm.behind hbehind
    have hallowed := result_writableOf hw hf hs
    by_cases hwritable : s.flags.writable = true
    · rw [if_pos hwritable] at hallowed
      obtain ⟨r, m', w', hwrite, hm', -, -, hmachine⟩ :=
        hm.written hw hs hbytes hwritable position segments
      have hanswer := hmachine (some position) rfl
      have hrun : (pwritev t h position segments).ended w = (r, w') :=
        (ended_query_bind hallowed).trans hwrite
      refine .of_ended hrun (Streams.serves_to rfl hms hanswer ?_)
      cases r <;> exact hm'
    · rw [if_neg hwritable] at hallowed
      have hrun : (pwritev t h position segments).ended w = (.error .badHandle, w) :=
        ended_query_bind_error hallowed
      have hanswer := write_refused (m := m) (f := f) hwritable (some position)
        (segments.map Bytes.list)
      exact .of_ended hrun (Streams.serves_to rfl hms hanswer hm)

theorem writev_served (hb : m.Bounded) (segments : List ByteArray) :
    m.Serves ((w.streamBehind t h).map fun f => .write f none (segments.map Bytes.list))
      (some (.ofCount (writev t h segments w).result)) (writev t h segments w).world := by
  cases hbehind : w.streamBehind t h with
  | none =>
    refine Action.Leads.kept (P := m.Tells) (leads_query_bind fun found hfound =>
      leads_query_bind fun _ _ => ?_) hm
    have hstream := writableOf_found hfound
    have hsame := fun position => world_write found.2.2 (bytes?_of_other hw hbehind hstream)
      position (Bytes.gather segments)
    refine leads_bind (P := fun _ w' => w' = w) ⟨?_, fun _ _ => hsame _⟩ ?_
    · rw [hsame]
    · rintro count _ - rfl
      have hnone := World.stream?_of_streamBehind_none hbehind (streamOf_found hstream).1
      exact leads_bind (moveBy_tells hnone _ _) fun _ _ _ _ => leads_pure trivial
  | some f =>
    obtain ⟨hf, s, bytes, hs, hbytes, hms⟩ := hm.behind hbehind
    have hallowed := result_writableOf hw hf hs
    by_cases hwritable : s.flags.writable = true
    · rw [if_pos hwritable] at hallowed
      have hplace := result_writePosition hw hs hbytes
      obtain ⟨r, m', w', hwrite, hm', hs', hcount, hmachine⟩ := hm.written hw hs hbytes hwritable
        (if s.flags.appends then bytes.size else s.position) segments
      have hanswer := hmachine none rfl
      have hbound : (if s.flags.appends then bytes.size else s.position) ≤ positionMax := by
        have hsize := hb.bytes s.node
        rw [hm.bytes _ _ hbytes, Bytes.length_list] at hsize
        have hmax : RamFs.fileSizeMax ≤ positionMax := by decide
        have hposition := hb.position f s hms
        split <;> omega
      generalize (if s.flags.appends then bytes.size else s.position) = position at *
      cases r with
      | error e =>
        have hrun : (writev t h segments).ended w = (.error e, w') := by
          refine (ended_query_bind hallowed).trans ((ended_query_bind hplace).trans ?_)
          rw [ended_bind, hwrite]
        exact .of_ended hrun (Streams.serves_to rfl hms hanswer hm')
      | ok count =>
        have hlt : position + count < wordLimit := by
          have hmax : RamFs.fileSizeMax < wordLimit := by decide
          have hword : positionMax < wordLimit := by decide
          rcases hcount count rfl with hzero | hfits <;> omega
        have hrun : (writev t h segments).ended w =
            (.ok count, w'.setFile f fun file => file.setPosition (position + count)) := by
          refine (ended_query_bind hallowed).trans ((ended_query_bind hplace).trans ?_)
          rw [ended_bind, hwrite]
          exact ended_moveBy_bind hlt _ w'
        exact .of_ended hrun (Streams.serves_to rfl hms hanswer (hm'.setFile hs' rfl rfl))
    · rw [if_neg hwritable] at hallowed
      have hrun : (writev t h segments).ended w = (.error .badHandle, w) :=
        ended_query_bind_error hallowed
      have hanswer := write_refused (m := m) (f := f) hwritable none (segments.map Bytes.list)
      exact .of_ended hrun (Streams.serves_to rfl hms hanswer hm)

theorem seek_served (offset : Int) (origin : SeekOrigin) :
    m.Serves ((w.streamBehind t h).map fun f => .seek f offset origin)
      (some (.ofCount (seek t h offset origin w).result)) (seek t h offset origin w).world := by
  cases hbehind : w.streamBehind t h with
  | none =>
    refine Action.Leads.kept (P := m.Tells) (leads_query_bind fun found hfound =>
      leads_query_bind fun _ _ => leads_query_bind fun target _ =>
        leads_change_bind (.single fun h => ?_) (leads_pure trivial)) hm
    have hnone := World.stream?_of_streamBehind_none hbehind (streamOf_found hfound).1
    exact h.setPosition hnone target
  | some f =>
    obtain ⟨hf, s, bytes, hs, hbytes, hms⟩ := hm.behind hbehind
    obtain ⟨size, hsize, hbase⟩ : ∃ size, (seekSize s.file origin w).result = .ok size ∧
        s.file.seekTarget offset origin size =
          if 0 ≤ (m.seekBase s origin : Int) + offset ∧
              (m.seekBase s origin : Int) + offset ≤ positionMax then
            .ok ((m.seekBase s origin : Int) + offset).toNat
          else .error .invalidArgument := by
      cases origin with
      | start => exact ⟨0, rfl, rfl⟩
      | current => exact ⟨0, rfl, rfl⟩
      | finish =>
        refine ⟨bytes.size, result_size hw hs hbytes, ?_⟩
        rw [Streams.seekBase, hm.bytes _ _ hbytes, Bytes.length_list]
        rfl
    have hstart := result_streamOf hw hf hs
    by_cases htarget : 0 ≤ (m.seekBase s origin : Int) + offset ∧
        (m.seekBase s origin : Int) + offset ≤ positionMax
    · have hanswer : m.seek f s offset origin = _ := if_pos htarget
      rw [if_pos htarget] at hbase
      have hfound : (ofResult (s.file.seekTarget offset origin size) w).result = .ok _ :=
        (Query.result_ofResult _ w).trans hbase
      have hrun : (seek t h offset origin).ended w = (.ok _, w.setFile f fun file =>
          file.setPosition ((m.seekBase s origin : Int) + offset).toNat) :=
        (ended_query_bind hstart).trans ((ended_query_bind hsize).trans (ended_query_bind hfound))
      exact .of_ended hrun (Streams.serves_to rfl hms hanswer (hm.setFile hs rfl rfl))
    · have hanswer : m.seek f s offset origin = _ := if_neg htarget
      rw [if_neg htarget] at hbase
      have hfound : (ofResult (s.file.seekTarget offset origin size) w).result = .error _ :=
        (Query.result_ofResult _ w).trans hbase
      have hrun : (seek t h offset origin).ended w = (.error .invalidArgument, w) :=
        (ended_query_bind hstart).trans
          ((ended_query_bind hsize).trans (ended_query_bind_error hfound))
      exact .of_ended hrun (Streams.serves_to rfl hms hanswer hm)

/-- How a call ends that gives nothing back. -/
def StreamAnswer.ofUnit (result : Except Error Unit) : StreamAnswer where
  result := result.map fun _ => 0

omit hw in
theorem setFlags_served (flags : OpenFlags) :
    m.Serves ((w.streamBehind t h).map fun f => .setFlags f flags)
      (some (.ofUnit (setFlags t h flags w).result)) (setFlags t h flags w).world := by
  cases hbehind : w.streamBehind t h with
  | none =>
    refine Action.Leads.kept (P := m.Tells) (leads_query_bind fun f hf =>
      leads_change (.single fun h => h.setOther ?_ (fun _ => rfl) fun file hnone => ?_) trivial) hm
    · exact World.stream?_of_streamBehind_none hbehind hf
    · rw [OpenFile.stream?] at hnone ⊢
      dsimp only
      split at hnone
      · cases hnone
      · rfl
  | some f =>
    obtain ⟨hf, s, hs⟩ := World.streamBehind_eq_some.1 hbehind
    have hms := hm.stream_of_stream? hs
    have hrun : (setFlags t h flags).ended w = (.ok (), w.setFile f fun file =>
        { file with flags := file.flags.withStatus flags }) := ended_query_bind hf
    exact .of_ended hrun (Streams.serves_to rfl hms rfl (hm.setFile hs rfl rfl))

end

/-! ## Attributes -/

/-- A node's volume is only read. -/
def World.onReadOnly (w : World) (n : NodeId) : Bool :=
  (w.volume (w.node n).volume).flags.isReadOnly

/-- What the memory filesystem changes of a node besides its size. -/
def RamFs.writeAttributes (n : NodeId) (status : Status) (mask : StatusMask) : Act Unit := do
  Action.when mask.mode (Action.change (·.setPermissions n status.mode))
  RamFs.modifyNode n fun node => RamFs.applyStatus node status mask

section

variable {m : Streams} {w : World} {n : NodeId} {bytes : ByteArray}

/-- None of it is bytes. -/
theorem writeAttributes_tells (n : NodeId) (status : Status) (mask : StatusMask) (w : World) :
    ∃ w', (RamFs.writeAttributes n status mask).ended w = (.ok (), w') ∧
      ∀ m : Streams, m.Tells w → m.Tells w' := by
  have happly : ∀ (m : Streams) w, m.Tells w → m.Tells (w.setNode n fun node =>
      node.mapRam fun ram => RamFs.applyStatus ram status mask) := by
    intro m w hm
    refine hm.setNode fun node => ?_
    cases hpayload : node.payload with
    | ram ram => simp only [Node.mapRam, Node.bytes?, hpayload, RamFs.applyStatus]
    | scripted children => simp only [Node.mapRam, Node.bytes?, hpayload]
  rw [RamFs.writeAttributes, ended_bind, ended_when]
  by_cases hmode : mask.mode = true
  · rw [if_pos hmode]
    refine ⟨_, rfl, fun m hm => happly m (w.setPermissions n status.mode) ?_⟩
    exact hm.setNode fun _ => rfl
  · rw [if_neg hmode]
    exact ⟨_, rfl, fun m hm => happly m w hm⟩

theorem ended_setSize (hw : w.WellFormed) (hbytes : (w.node n).bytes? = some bytes) (size : Nat) :
    (RamFs.setSize n size).ended w =
      if size ≤ RamFs.fileSizeMax then (.ok (), w.withBytes n (Bytes.resize bytes size))
      else (.error .fileTooLarge, w) := by
  obtain ⟨ram, hnode, hcontent⟩ := hw.nodeOf_bytes? hbytes
  split
  · next hfits =>
    refine (ended_query_bind (a := ()) (Query.result_demand_eq_ok.2 hfits)).trans ?_
    refine (ended_query_bind (a := ram) (by rw [hnode])).trans ?_
    rw [hcontent]
    rfl
  · next hfits =>
    refine ended_query_bind_error ?_
    rw [Query.result_demand, if_neg hfits]

/-- What is no regular file has no size to change. -/
theorem setSize_idle (hnone : (w.node n).bytes? = none) (size : Nat) :
    (RamFs.setSize n size).LeadsOnly (fun w w' => m.Tells w → m.Tells w') w := by
  refine leads_demand_bind fun _ => leads_query_bind fun ram hram => ?_
  have hnot := content_ne_file hnone hram
  split
  · next bytes hcontent => exact absurd hcontent (hnot bytes)
  all_goals exact leads_throw

/-- The library's own operations change the size of a file, and then what is left. -/
theorem writeStatus_ram (v : VolumeKey) (n : NodeId) (status : Status) (mask : StatusMask) :
    OpsKind.ram.writeStatus v n status mask = (do
      let _ ← RamFs.nodeOf n
      Action.when mask.size (RamFs.setSize n status.size)
      RamFs.writeAttributes n status mask) := rfl

/-- Without a size to set, or a regular file to set it of, no bytes change. -/
theorem writeStatus_idle (ops : OpsKind) (v : VolumeKey) (status : Status) (mask : StatusMask)
    (hnone : mask.size = true → (w.node n).bytes? = none) :
    (ops.writeStatus v n status mask).LeadsOnly (fun w w' => m.Tells w → m.Tells w') w := by
  cases ops with
  | bare | scripted => exact leads_throw
  | ram =>
    rw [writeStatus_ram]
    refine leads_query_bind fun _ _ => leads_bind (P := fun _ _ => True)
      (leads_when (fun hsize => setSize_idle (hnone hsize) _) fun _ => trivial) fun _ w' _ _ => ?_
    obtain ⟨w'', hrun, htells⟩ := writeAttributes_tells n status mask w'
    refine ⟨.single fun h => ?_, fun _ _ => trivial⟩
    rw [(Prod.mk.inj hrun).2]
    exact htells m h

/-- The regular file that a task's handle stands for, if it is open for more than its path. -/
def World.fileBehind (w : World) (t : TaskId) (h : Handle) : Option NodeId :=
  ((openFileOf t h w).result.toOption.filter fun file =>
    !file.isPath && (w.node file.node).bytes?.isSome).map (·.node)

variable {t : TaskId} {h : Handle}

theorem World.fileBehind_eq_some (hbehind : w.fileBehind t h = some n) : ∃ file bytes,
    (openFileOf t h w).result = .ok file ∧ file.isPath = false ∧ file.node = n ∧
      (w.node n).bytes? = some bytes := by
  obtain ⟨file, hfile, rfl⟩ := Option.map_eq_some_iff.1 hbehind
  rw [Option.filter_eq_some_iff, Bool.and_eq_true, Bool.not_eq_true', Option.isSome_iff_exists]
    at hfile
  obtain ⟨hfile, hpath, bytes, hbytes⟩ := hfile
  refine ⟨file, bytes, ?_, hpath, rfl, hbytes⟩
  cases hresult : (openFileOf t h w).result with
  | error e =>
    rw [hresult] at hfile
    cases hfile
  | ok file' =>
    rw [hresult] at hfile
    cases hfile
    rfl

theorem World.bytes?_of_fileBehind_none (hbehind : w.fileBehind t h = none)
    {found : OpenFile × OpsKind} (hfound : (operableOf t h w).result = .ok found) :
    (w.node found.1.node).bytes? = none := by
  obtain ⟨file, hfile, hfound⟩ := Query.result_bind_eq_ok.1 hfound
  obtain ⟨_, hpath, hfound⟩ := Query.result_bind_eq_ok.1 hfound
  obtain ⟨ops, -, hfound⟩ := Query.result_bind_eq_ok.1 hfound
  cases hfound
  rw [Query.result_demand_eq_ok] at hpath
  rw [World.fileBehind, hfile, Except.toOption, Option.map_eq_none_iff, Option.filter_some,
    hpath, Bool.true_and] at hbehind
  by_contra hbytes
  rw [if_pos (Option.isSome_iff_ne_none.2 hbytes)] at hbehind
  cases hbehind

theorem result_volumeForWriting (hw : w.WellFormed) (hlive : w.Live n) :
    (volumeForWriting n w).result =
      if w.onReadOnly n then .error .readOnly else .ok (w.node n).volume := by
  have hdemand : (demand (!w.onReadOnly n) .readOnly w).result =
      if w.onReadOnly n then .error .readOnly else .ok () := by
    rw [Query.result_demand]
    cases w.onReadOnly n <;> rfl
  rw [volumeForWriting, Query.result_bind, hw.volumeOf_result hlive, Except.bind, Query.look_bind,
    Query.result_bind]
  refine (congrArg (fun r => Except.bind r _) hdemand).trans ?_
  split <;> rfl

theorem operableOf_result (hw : w.WellFormed) {file : OpenFile}
    (hfile : (openFileOf t h w).result = .ok file) (hpath : file.isPath = false)
    (hbytes : (w.node file.node).bytes? = some bytes) :
    (operableOf t h w).result = .ok (file, .ram) := by
  refine Query.result_bind_eq_ok.2 ⟨file, hfile, Query.result_bind_eq_ok.2 ⟨(), ?_,
    Query.result_bind_eq_ok.2 ⟨.ram, World.opsOf_eq_ok.2 (hw.ops_of_bytes? hbytes), rfl⟩⟩⟩
  rw [Query.result_demand_eq_ok, hpath]
  rfl

/-- A change of attributes with a size sets the size of the file first, if its volume can be
written. -/
theorem ended_writeStatus_size (hw : w.WellFormed) {file : OpenFile}
    (hfile : (openFileOf t h w).result = .ok file) (hpath : file.isPath = false)
    (hbytes : (w.node file.node).bytes? = some bytes) (status : Status) {mask : StatusMask}
    (hsize : mask.size = true) :
    (writeStatus t h status mask).ended w =
      if w.onReadOnly file.node then (.error .readOnly, w)
      else (do
        RamFs.setSize file.node status.size
        RamFs.writeAttributes file.node status mask : Act Unit).ended w := by
  have hvolume := result_volumeForWriting hw (World.live_of_bytes? hbytes)
  refine (ended_query_bind (operableOf_result hw hfile hpath hbytes)).trans ?_
  by_cases hreadOnly : w.onReadOnly file.node = true
  · rw [if_pos hreadOnly] at hvolume ⊢
    exact ended_query_bind_error hvolume
  · rw [if_neg hreadOnly] at hvolume ⊢
    obtain ⟨ram, hnode, -⟩ := hw.nodeOf_bytes? hbytes
    refine (ended_query_bind hvolume).trans ?_
    rw [writeStatus_ram, ended_query_bind (a := ram) (by rw [hnode]), Action.when, if_pos hsize]

/-- A change of attributes without a size is no call. -/
theorem writeStatus_served (hm : m.Tells w) (hw : w.WellFormed) (status : Status)
    (mask : StatusMask) :
    m.Serves
      (if mask.size then
        (w.fileBehind t h).map fun n => .resize n (w.onReadOnly n) status.size
      else none)
      (some (.ofUnit (writeStatus t h status mask w).result))
      (writeStatus t h status mask w).world := by
  have hidle (hnone : mask.size = true → w.fileBehind t h = none) :
      m.Tells (writeStatus t h status mask w).world :=
    Action.Leads.kept (P := m.Tells) (leads_query_bind fun found hfound =>
      leads_query_bind fun v _ => writeStatus_idle found.2 v status mask fun hsize =>
        World.bytes?_of_fileBehind_none (hnone hsize) hfound) hm
  by_cases hsize : mask.size = true
  · rw [if_pos hsize]
    cases hbehind : w.fileBehind t h with
    | none => exact hidle fun _ => hbehind
    | some n =>
      obtain ⟨file, bytes, hfile, hpath, rfl, hbytes⟩ := World.fileBehind_eq_some hbehind
      have hrun := ended_writeStatus_size hw hfile hpath hbytes status hsize
      rw [Option.map_some]
      cases hreadOnly : w.onReadOnly file.node with
      | true =>
        rw [hreadOnly, if_pos rfl] at hrun
        exact .of_ended hrun (Streams.serves_resize rfl hm)
      | false =>
        rw [hreadOnly, if_neg Bool.false_ne_true, ended_bind,
          ended_setSize hw hbytes status.size] at hrun
        by_cases hfits : status.size ≤ RamFs.fileSizeMax
        · rw [if_pos hfits] at hrun
          obtain ⟨w'', hattributes, htells⟩ := writeAttributes_tells file.node status mask
            (w.withBytes file.node (Bytes.resize bytes status.size))
          have hanswer : m.setSize file.node false status.size =
              ({ result := .ok 0 },
                m.setBytes file.node (Bytes.list (Bytes.resize bytes status.size))) := by
            rw [Streams.setSize, if_neg Bool.false_ne_true, if_pos hfits, hm.bytes _ _ hbytes,
              Bytes.list_resize]
          refine .of_ended (hrun.trans hattributes) ?_
          exact Streams.serves_resize hanswer (htells _ (hm.withBytes hbytes _))
        · rw [if_neg hfits] at hrun
          have hanswer : m.setSize file.node false status.size =
              ({ result := .error .fileTooLarge }, m) := by
            rw [Streams.setSize, if_neg Bool.false_ne_true, if_neg hfits]
          exact .of_ended hrun (Streams.serves_resize hanswer hm)
  · rw [if_neg hsize]
    exact hidle fun h => absurd h hsize

end

end VirtualFs
