/-
Runs of operations as the machine of bytes and streams sees them. An operation
that reads, writes, moves or opens a stream on a regular file is a call to the
machine, and so is one that changes the size of a regular file; whatever else is
done in between, to names, handles, mounts or devices, the machine is told
nothing and is right all the same. So everything a file is ever seen to hold, and
every position, follows from the calls alone.
-/
import VirtualFs.Proofs.ClosedOnce
import VirtualFs.Proofs.NumberedOpens

namespace VirtualFs

open VirtualFs.Action (ended_bind)

namespace Operation

/-- What an operation asks of the machine in the world it runs in, if anything. Handles, paths and
names are told as the streams and files they lead to; the rest is told as it is. -/
def streamCall (w : World) : Operation → Option StreamCall
  | openPath t base path flags mode =>
    (w.opening (w.contextOf t flags.forKernel) (pathOpening t base path flags mode)).map fun s =>
      .opened (w.boundKey (VirtualFs.openPath t base path flags mode)) s.node flags
  | openPinned t name flags => (w.held? name).bind fun n =>
    (w.opening (w.contextOf t flags.forKernel) (openFound n flags)).map fun s =>
      .opened (w.boundKey (VirtualFs.openPinned t name flags)) s.node flags
  | reopen t h => (openFileOf t h w).result.toOption.bind fun file =>
    (w.opening (w.contextOf t h.isKernel) (reopening file)).bind fun s =>
      (w.boundKey (VirtualFs.reopen t h)).map fun copy =>
        match w.streamBehind t h with
        | some f => .reopened f copy
        | none => .opened (some copy) s.node s.flags
  | setFlags t h flags => (w.streamBehind t h).map fun f => .setFlags f flags
  | readv t h buffers => (w.streamBehind t h).map fun f => .read f none (buffers.map Bytes.list)
  | preadv t h position buffers =>
    (w.streamBehind t h).map fun f => .read f (some position) (buffers.map Bytes.list)
  | writev t h segments =>
    (w.streamBehind t h).map fun f => .write f none (segments.map Bytes.list)
  | pwritev t h position segments =>
    (w.streamBehind t h).map fun f => .write f (some position) (segments.map Bytes.list)
  | seek t h offset origin => (w.streamBehind t h).map fun f => .seek f offset origin
  | writeStatus t h status mask =>
    if mask.size then (w.fileBehind t h).map fun n => .resize n (w.onReadOnly n) status.size
    else none
  | _ => none

/-- How an operation ends that reads, writes or moves a stream, or changes a size. -/
def streamAnswer (w : World) : Operation → Option StreamAnswer
  | setFlags t h flags => some (.ofUnit (VirtualFs.setFlags t h flags w).result)
  | readv t h buffers => some (.ofReceived (VirtualFs.readv t h buffers w).result)
  | preadv t h position buffers =>
    some (.ofReceived (VirtualFs.preadv t h position buffers w).result)
  | writev t h segments => some (.ofCount (VirtualFs.writev t h segments w).result)
  | pwritev t h position segments =>
    some (.ofCount (VirtualFs.pwritev t h position segments w).result)
  | seek t h offset origin => some (.ofCount (VirtualFs.seek t h offset origin w).result)
  | writeStatus t h status mask =>
    some (.ofUnit (VirtualFs.writeStatus t h status mask w).result)
  | _ => none

/-- **The machine answers an operation as the library does.** -/
theorem served {m : Streams} {w : World} (hm : m.Tells w) (hw : w.WellFormed) (hb : m.Bounded)
    (op : Operation) : m.Serves (op.streamCall w) (op.streamAnswer w) (op.run w) := by
  have hafter : (op.run w).WellFormed := World.Edits.wellFormed (op.edits hw) hw
  have hidle : (@Operation.act standard op).Does World.Harmless True → m.Tells (op.run w) := by
    intro hdoes
    have hsame : w.Harmless (op.act w).trace (op.act.after w) := (hdoes w).1
    rw [← op.run_eq_after] at hsame
    exact hm.sameStreams hw hafter hsame
  cases op with
  | openPath t base path flags mode => exact openPath_served hm hw base path flags mode
  | openPinned t name flags => exact openPinned_served hm hw name flags
  | reopen t h => exact reopen_served hm hw h
  | setFlags t h flags => exact setFlags_served hm flags
  | readv t h buffers => exact readv_served hm hw hb buffers
  | preadv t h position buffers => exact preadv_served hm hw position buffers
  | writev t h segments => exact writev_served hm hw hb segments
  | pwritev t h position segments => exact pwritev_served hm hw position segments
  | seek t h offset origin => exact seek_served hm hw offset origin
  | writeStatus t h status mask => exact writeStatus_served hm hw status mask
  | close | duplicate | duplicateTo | closeAll | retireContext =>
    refine hidle (Operation.Tabular.does ?_)
    exact True.intro
  | nextEntry | rewind =>
    refine hidle (Operation.Turning.does standard_discreet ?_)
    exact True.intro
  | control | makeDirectory | removeDirectory | unlink | makeSymlink | rename
  | changeDirectory | changeDirectoryTo | mount | addDevice | moveDevice | withdrawDevice | hold
  | release | addContext | addTask | setDepth =>
    refine hidle (Operation.Aloof.does standard_discreet standard_harmless ?_)
    exact True.intro

/-! ## Runs -/

/-- The calls that operations make of the machine one after the other, each with how it ended. -/
def streamLog : List Operation → World → List (StreamCall × Option StreamAnswer)
  | [], _ => []
  | op :: rest, w =>
    ((op.streamCall w).map fun call => (call, op.streamAnswer w)).toList ++
      streamLog rest (op.run w)

theorem run_served {m : Streams} {w : World} (hm : m.Tells w) (hw : w.WellFormed)
    (hb : m.Bounded) (ops : List Operation) :
    (Streams.serveAll ((streamLog ops w).map Prod.fst) m).1 = (streamLog ops w).map Prod.snd ∧
      (Streams.serveAll ((streamLog ops w).map Prod.fst) m).2.Tells (runAll ops w) := by
  induction ops generalizing m w with
  | nil => exact ⟨rfl, hm⟩
  | cons op rest ih =>
    have hafter : (op.run w).WellFormed := World.Edits.wellFormed (op.edits hw) hw
    have hserved := op.served hm hw hb
    rw [streamLog]
    cases hcall : op.streamCall w with
    | none =>
      rw [hcall] at hserved
      exact ih hserved hafter hb
    | some call =>
      rw [hcall] at hserved
      obtain ⟨hanswer, htells⟩ := hserved
      obtain ⟨hanswers, hlast⟩ := ih htells hafter (hb.serve call)
      refine ⟨?_, hlast⟩
      show (m.serve call).1 :: _ = op.streamAnswer w :: _
      rw [hanswer]
      exact congrArg _ hanswers

end Operation

/-! ## Duplicates -/

section

variable {w : World} {t : TaskId} {h copy : Handle} {f : FileId}

/-- A handle belongs to the context that its file was found in. -/
theorem Numbering.isKernel_of_fileOf {n : Numbering} (hfound : n.fileOf h t = .ok f) :
    h.isKernel = n.kernel (n.contextOf t h.isKernel) := by
  rw [fileOf, found] at hfound
  split at hfound
  · next hfind =>
    rw [find] at hfind
    split at hfind
    · assumption
    · cases hfind
  · cases hfound

theorem bindHandle_numbering (hw : w.Orderly) {c : ContextId} (hf : w.files.has f = true)
    (hok : (bindHandle c copy f w).result = .ok ()) : copy.isKernel = w.numbering.kernel c ∧
      (bindHandle c copy f w).world.numbering = w.numbering.set c copy.slot (.taken f) := by
  obtain ⟨hresult, hnumbering, -, -⟩ := bindHandle_renders hw c copy hf
  rw [Numbering.fill] at hresult hnumbering
  cases hfillable : w.numbering.fillable c copy with
  | error e =>
    rw [hfillable, hok] at hresult
    cases hresult
  | ok =>
    rw [hfillable] at hnumbering
    exact ⟨(Numbering.fillable_eq_ok.1 hfillable).1, hnumbering⟩

/-- A number that is reserved and bound at once leads to the file. -/
theorem withReserved_fileOf (hw : w.Orderly) {c : ContextId} (hf : w.files.has f = true)
    (hok : (withReserved c (fun handle => do bindHandle c handle f; pure handle) w).result =
      .ok copy) :
    let n := (withReserved c (fun handle => do bindHandle c handle f; pure handle) w).world.numbering
    copy.isKernel = w.numbering.kernel c ∧ n.contextOf = w.numbering.contextOf ∧
      n.found c copy = .ok f := by
  rcases hallocate : (allocateHandle c).ended w with ⟨e | handle, w'⟩
  · have hended := ended_withReserved_error
      (fun handle => do bindHandle c handle f; pure handle) hallocate
    rw [(Prod.mk.inj hended).1] at hok
    cases hok
  · have hended := ended_withReserved
      (fun handle => do bindHandle c handle f; pure handle) hallocate
    obtain ⟨hallocated, rfl⟩ := Prod.mk.inj hallocate
    obtain ⟨i, -, -, hreserved⟩ := allocateHandle_eq_ok hw hallocated
    have hfiles := w.reserving_files c
    have horderly := (allocateHandle_renders hw c).orderly
    rw [World.reserving] at hreserved hfiles
    generalize (allocateHandle c w).world = w' at *
    rw [ended_bind] at hended
    rcases hbind : (bindHandle c handle f).ended w' with ⟨e | _, w''⟩ <;> rw [hbind] at hended
    · rw [(Prod.mk.inj hended).1] at hok
      cases hok
    · obtain ⟨hresult, hworld⟩ := Prod.mk.inj hended
      obtain rfl : handle = copy := Except.ok.inj (hresult.symm.trans hok)
      obtain ⟨hbound, rfl⟩ := Prod.mk.inj hbind
      obtain ⟨hkernel, hnumbering⟩ :=
        bindHandle_numbering horderly (by rw [hfiles]; exact hf) hbound
      rw [hreserved] at hkernel
      have hworld : (withReserved c (fun handle => do bindHandle c handle f; pure handle) w).world =
          (bindHandle c handle f w').world := hworld
      refine ⟨hkernel, by rw [hworld, hnumbering, hreserved]; rfl, ?_⟩
      rw [hworld, hnumbering, hreserved]
      exact Numbering.found_set hkernel f

/-- A duplicate leads to the file of the handle that it duplicates. -/
theorem duplicate_fileOf (hw : w.Orderly) (hok : (duplicate t h w).result = .ok copy) :
    (fileOf t copy ((Operation.duplicate t h).run w)).result = (fileOf t h w).result := by
  cases hf : (fileOf t h w).result with
  | error e =>
    rw [(Prod.mk.inj (ended_duplicate_error hf)).1] at hok
    cases hok
  | ok f =>
    have hfound : w.numbering.fileOf h t = .ok f := (result_fileOf t h).symm.trans hf
    have hkernel := Numbering.isKernel_of_fileOf hfound
    obtain ⟨hresult, hworld⟩ := Prod.mk.inj (ended_duplicate hf)
    obtain ⟨hcopy, hcontext, hcopied⟩ := withReserved_fileOf hw (hw.has_of_found hfound)
      (hresult.symm.trans hok)
    have hsame : copy.isKernel = h.isKernel := hcopy.trans hkernel.symm
    have hrun : (Operation.duplicate t h).run w = (duplicate t h w).world := rfl
    rw [result_fileOf, hrun, hworld, Numbering.fileOf, hcontext, hsame]
    exact hcopied

end

/-! ## From the beginning -/

theorem Operation.kept_run {w : World} (hw : w.Kept []) (hformed : w.WellFormed)
    (op : Operation) : (op.run w).Kept [] := by
  have hkeeps := op.keeps standard_discreet hw hformed.creates
  rw [op.run_eq_after]
  cases hresult : (op.act w).result with
  | ok u => exact hkeeps.ok u hresult
  | error e => exact hkeeps.error e hresult

theorem Operation.kept_runAll {w : World} (hw : w.Kept []) (hformed : w.WellFormed)
    (ops : List Operation) : (runAll ops w).Kept [] := by
  induction ops generalizing w with
  | nil => exact hw
  | cons op rest ih =>
    exact ih (op.kept_run hw hformed) (World.Edits.wellFormed (op.edits hformed) hformed)

theorem World.Reachable.kept {w : World} (h : w.Reachable) : w.Kept [] := by
  obtain ⟨limits, hsteps⟩ := h
  suffices hboth : w.Kept [] ∧ w.WellFormed from hboth.1
  induction hsteps with
  | refl => exact ⟨World.kept_fresh limits, World.wellFormed_fresh limits⟩
  | tail _ hstep ih =>
    obtain ⟨hkept, hw⟩ := ih
    obtain ⟨op, rfl⟩ := hstep
    exact ⟨op.kept_run hkept hw, World.Edits.wellFormed (op.edits hw) hw⟩

/-- A duplicate stands for the stream of the handle that it duplicates, whatever the machine. -/
theorem duplicate_streamBehind {m : Streams} {w : World} (hm : m.Tells w) (hw : w.WellFormed)
    (hb : m.Bounded) (hkept : w.Kept []) {t : TaskId} {h copy : Handle}
    (hok : (duplicate t h w).result = .ok copy) :
    ((Operation.duplicate t h).run w).streamBehind t copy = w.streamBehind t h := by
  have hm' : m.Tells ((Operation.duplicate t h).run w) :=
    (Operation.duplicate t h).served hm hw hb
  have hkept' := (Operation.duplicate t h).kept_run hkept hw
  have hfile := duplicate_fileOf hkept.orderly hok
  rw [World.streamBehind, World.streamBehind, hfile]
  cases hf : (fileOf t h w).result with
  | error e => rfl
  | ok f =>
    rw [hf, result_fileOf] at hfile
    rw [result_fileOf] at hf
    have hsame : ((Operation.duplicate t h).run w).stream? f = w.stream? f := by
      rw [← hm.stream f (hkept.orderly.has_of_found hf),
        ← hm'.stream f (hkept'.orderly.has_of_found hfile)]
    simp only [Except.toOption, Option.filter_some, hsame]

/-- A fresh instance has no regular files. -/
theorem World.tells_fresh (limits : Limits) : Streams.blank.Tells (fresh limits) := by
  have hroot : Streams.blank.Tells (rootOnly limits) := by
    refine ⟨fun n bytes hbytes => ?_, fun _ _ => rfl, fun f hf => ?_, fun _ _ => rfl⟩
    · cases live_rootOnly.1 (live_of_bytes? hbytes)
      cases hbytes
    · cases hf
  exact hroot.sameStreams (wellFormed_rootOnly limits) (wellFormed_fresh limits)
    (furnish_does standard_harmless _).1

/-- **Files and streams are lists of bytes and positions in them.** Over any run of operations the
machine that is told the calls answers as the library did, and at the end it tells what files hold
and where streams are; a duplicate leads to the stream of the handle it duplicates. -/
theorem Operation.streams_refine (limits : Limits) (ops : List Operation) :
    let w := runAll ops (World.fresh limits)
    let log := streamLog ops (World.fresh limits)
    (Streams.serveAll (log.map Prod.fst) .blank).1 = log.map Prod.snd ∧
      (Streams.serveAll (log.map Prod.fst) .blank).2.Tells w ∧
      ∀ t h copy, (VirtualFs.duplicate t h w).result = .ok copy →
        ((duplicate t h).run w).streamBehind t copy = w.streamBehind t h := by
  intro w log
  obtain ⟨hanswers, htells⟩ := run_served (World.tells_fresh limits)
    (World.wellFormed_fresh limits) Streams.bounded_blank ops
  refine ⟨hanswers, htells, fun t h copy hok => ?_⟩
  have hw : w.WellFormed := World.Reachable.wellFormed ⟨limits, World.steps_runAll ops _⟩
  have hkept : w.Kept [] :=
    kept_runAll (World.kept_fresh limits) (World.wellFormed_fresh limits) ops
  exact duplicate_streamBehind htells hw (Streams.bounded_blank.serveAll _) hkept hok

/-- Two handles on one stream write in turn; a stream of its own, opened once more, does not move
with them. The name goes, another file takes it, and the first file is written and read all the
same. -/
def Operation.someWrites : List Operation :=
  [.addContext false, .addTask 1,
    .openPath 0 none "/a" ⟨OpenFlags.createBit ||| OpenFlags.readWriteMode⟩ 0o644,
    .duplicate 0 ⟨0⟩, .writev 0 ⟨0⟩ [⟨#[1, 2]⟩, ⟨#[3]⟩], .reopen 0 ⟨1⟩,
    .writev 0 ⟨1⟩ [⟨#[4]⟩], .unlink 0 none "/a",
    .openPath 0 none "/a" ⟨OpenFlags.createBit ||| OpenFlags.readWriteMode⟩ 0o644,
    .pwritev 0 ⟨2⟩ 6 [⟨#[7]⟩], .readv 0 ⟨2⟩ [⟨#[9, 9]⟩, ⟨#[9, 9, 9]⟩],
    .readv 0 ⟨3⟩ [⟨#[9]⟩], .seek 0 ⟨0⟩ (-2) .finish, .readv 0 ⟨1⟩ [⟨#[9, 9, 9]⟩],
    .pwritev 0 ⟨0⟩ RamFs.fileSizeMax [⟨#[1]⟩]]

theorem Operation.streams_refine_someWrites :
    (Streams.serveAll ((streamLog someWrites (World.fresh {})).map Prod.fst) .blank).1 =
      [none, some { result := .ok 3 }, none, some { result := .ok 1 }, none,
        some { result := .ok 1 },
        some { result := .ok 4, buffers := [[4, 0], [0, 7, 9]] },
        some { result := .ok 0, buffers := [[9]] }, some { result := .ok 5 },
        some { result := .ok 2, buffers := [[0, 7, 9]] },
        some { result := .error .fileTooLarge }] :=
  (streams_refine {} someWrites).1.trans (by decide +kernel)

end VirtualFs
