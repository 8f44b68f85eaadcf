/-
A node opened once more. The copy has the node of the open file, its access mode
and its status, changes nothing, and goes its own way from then on. Where it
starts and as what is another matter: a stream starts where the other is, but a
directory from its beginning, and a file that was made by an open for a place, or
for a directory, is not found again as the stream that it was made as.
-/
import VirtualFs.Proofs.OpenKinds
import VirtualFs.Proofs.SeparateHandles

namespace VirtualFs

open World (Sparing)
open VirtualFs.Action (does_bind does_pure)

/-! ## What is opened -/

/-- What an open file comes to when its node is opened once more. -/
def OpenFile.reopened (file : OpenFile) : Except Error OpenFile :=
  let copy := { file with flags := file.flags.without OpenFlags.truncateBit }
  match file.kind with
  | .path => .ok copy
  | .directory _ => .ok { copy with kind := .directory 0 }
  | .stream _ =>
    if file.flags.pathOnly then .ok { copy with kind := .path }
    else if file.flags.directoryOnly then .error .notADirectory
    else .ok copy

/-- Flags that have forgotten what an open file forgets are remembered as they are. -/
theorem Streams.remembered_eq_self {flags : OpenFlags} (hcreates : flags.creates = false)
    (hkernel : flags.forKernel = false) : remembered flags = flags := by
  refine OpenFlags.without_eq_self ?_
  rw [UInt32.and_comm, Word.or_and, UInt32.and_comm _ flags.bits, UInt32.and_comm _ flags.bits,
    OpenFlags.has_eq_false.1 hcreates, OpenFlags.has_eq_false.1 hkernel, UInt32.or_self]

section

variable {w : World} {n : NodeId} {flags : OpenFlags} (hkept : Streams.remembered flags = flags)

include hkept

/-- Flags that are remembered as they are go with whatever kind of file is opened. -/
theorem OpenFile.ofKind_eq (kind : FileKind) : ofKind n flags kind = ⟨n, flags, kind⟩ ∧
    ofKind n (flags.without OpenFlags.createBit) kind = ⟨n, flags, kind⟩ :=
  ⟨congrArg (OpenFile.mk n · kind) hkept,
    congrArg (OpenFile.mk n · kind) ((Streams.remembered_without_create flags).trans hkept)⟩

theorem World.opensAs_path (hs : w.SuitsAs n flags .path) :
    w.opensAs n flags = .ok ⟨n, flags, .path⟩ := by
  have hpath : flags.pathOnly = true := hs
  rw [opensAs, if_pos hpath, OpenFile.path, (OpenFile.ofKind_eq hkept _).1]

theorem World.opensAs_directory (h : w.WellFormed) (hn : w.Live n) {cursor : Nat}
    (hs : w.SuitsAs n flags (.directory cursor)) :
    w.opensAs n flags = .ok ⟨n, flags, .directory 0⟩ := by
  obtain ⟨hdir, hwritable, hpath⟩ := hs
  rw [opensAs, hpath, isSymlink_of_isDirectory hdir, hwritable, hdir,
    (h.ram n hn).ops_of_isDirectory hdir, Bool.and_false]
  exact congrArg Except.ok (OpenFile.ofKind_eq hkept _).2

theorem World.opensAs_stream {position : Nat} (hs : w.SuitsAs n flags (.stream position)) :
    w.opensAs n flags =
      if flags.pathOnly then .ok ⟨n, flags, .path⟩
      else if flags.directoryOnly then .error .notADirectory
      else .ok ⟨n, flags, .stream 0⟩ := by
  obtain ⟨hdir, hlink, hwritable, ops, hops, hlets⟩ := hs
  rw [opensAs, hdir, hlink, hwritable, hops]
  simp only [hlets, Except.map, OpenFile.path, OpenFile.stream, OpenFile.ofKind_eq hkept,
    Bool.false_eq_true, if_false]

end

/-- An open file is opened once more as `OpenFile.reopened` says. -/
theorem World.Suits.reopens {w : World} {file : OpenFile} (h : w.WellFormed) (hs : w.Suits file)
    (hn : w.Live file.node) :
    (w.opensAs file.node (file.flags.without OpenFlags.truncateBit)).map
      (·.setPosition file.position) = file.reopened := by
  have hhas {bit : UInt32} (hbit : ~~~OpenFlags.truncateBit &&& bit = bit) :
      (file.flags.without OpenFlags.truncateBit).has bit = file.flags.has bit :=
    file.flags.has_without hbit
  have hpath : (file.flags.without OpenFlags.truncateBit).pathOnly = file.flags.pathOnly :=
    hhas (by decide)
  have hdirectory : (file.flags.without OpenFlags.truncateBit).directoryOnly =
      file.flags.directoryOnly := hhas (by decide)
  have hkept := Streams.remembered_eq_self ((hhas (by decide)).trans hs.creates)
    ((hhas (by decide)).trans hs.forKernel)
  have hsuits : w.SuitsAs file.node (file.flags.without OpenFlags.truncateBit) file.kind :=
    (suitsAs_without file.kind (by decide)).2 hs.kind
  cases hkind : file.kind with
  | path =>
    rw [hkind] at hsuits
    rw [opensAs_path hkept hsuits, OpenFile.reopened, hkind]
    rfl
  | directory cursor =>
    rw [hkind] at hsuits
    rw [opensAs_directory hkept h hn hsuits, OpenFile.reopened, hkind]
    rfl
  | stream position =>
    rw [hkind] at hsuits
    rw [opensAs_stream hkept hsuits, hpath, hdirectory, OpenFile.reopened, hkind,
      OpenFile.position, hkind]
    cases file.flags.pathOnly <;> cases file.flags.directoryOnly <;> rfl

section

variable {w : World} {file : OpenFile} (h : w.WellFormed) (hs : w.Suits file)

include h hs in
theorem reopening_result (hn : w.Live file.node) : (reopening file w).result = file.reopened := by
  rw [result_reopening, openFound_result h hn, hs.reopens h hn]

theorem reopening_world (file : OpenFile) (w : World) : (reopening file w).world = w := by
  have hkeeps := file.flags.truncates_without_truncate
  rw [world_reopening, openFound_world (by rw [hkeeps, Bool.false_and])]

end

namespace OpenFile

variable {file fresh : OpenFile}

theorem reopened_eq_error {e : Error} (h : file.reopened = .error e) : e = .notADirectory := by
  rw [reopened] at h
  split at h
  · cases h
  · cases h
  split at h
  · cases h
  split at h <;> cases h
  rfl

/-- What is opened once more has the node and the flags, without the one that empties a file. -/
theorem reopened_eq_ok (h : file.reopened = .ok fresh) :
    fresh.node = file.node ∧ fresh.flags = file.flags.without OpenFlags.truncateBit := by
  rw [reopened] at h
  split at h
  · cases h
    exact ⟨rfl, rfl⟩
  · cases h
    exact ⟨rfl, rfl⟩
  split at h
  · cases h
    exact ⟨rfl, rfl⟩
  split at h <;> cases h
  exact ⟨rfl, rfl⟩

/-- A copy is at the same place as what it is a copy of just if that is no directory that has been
read from, and no stream that was made for a place or a directory. -/
theorem reopened_kind (file : OpenFile) :
    (∃ fresh, file.reopened = .ok fresh ∧ fresh.kind = file.kind) ↔
      file.cursor = 0 ∧
        (file.isStream = true → file.flags.pathOnly = false ∧ file.flags.directoryOnly = false) := by
  rw [reopened, cursor, isStream]
  cases hkind : file.kind with
  | path => simp
  | directory cursor =>
    refine ⟨?_, fun hplace => ⟨_, rfl, ?_⟩⟩
    · rintro ⟨fresh, hfresh, hsame⟩
      cases hfresh
      cases hsame
      refine ⟨rfl, fun hstream => ?_⟩
      cases hstream
    · rw [← hplace.1]
  | stream position =>
    cases file.flags.pathOnly <;> cases file.flags.directoryOnly <;> simp

end OpenFile

/-! ## Copies -/

/-- A number that a handle can name is free, so the next number is one. -/
theorem World.HasRoom.numberable {w : World} {c : ContextId} (h : w.HasRoom c) :
    w.Numberable c := by
  obtain ⟨i, hi, -, hfree⟩ := h
  intro slot files hreserve
  obtain ⟨-, hlow, -⟩ := ReservationTable.slotAt_reserve hreserve
  exact Nat.lt_of_le_of_lt (Nat.not_lt.1 fun hlt => hlow i hlt hfree) hi

/-- What a handle stands for is open. -/
theorem World.Orderly.open_of_handle {w : World} (hw : w.Orderly) {t : TaskId} {h : Handle}
    {file : OpenFile} (hfile : (openFileOf t h w).result = .ok file) :
    ∃ f, (fileOf t h w).result = .ok f ∧ w.files.get? f = some file := by
  obtain ⟨f, hf, hlook⟩ := Query.result_bind_eq_ok.1 hfile
  obtain ⟨opened, hget⟩ := Arena.has_iff.1 (hw.has_of_found ((result_fileOf t h).symm.trans hf))
  rw [Query.result_look, World.file, hget] at hlook
  cases hlook
  exact ⟨f, hf, hget⟩

/-- What a handle stands for has been opened once more under another number, without any other
change. -/
structure World.Copies (w : World) (t : TaskId) (h h' : Handle) (file fresh : OpenFile)
    (w' : World) : Prop where
  copy : (openFileOf t h' w').result = .ok fresh
  kept : (openFileOf t h w').result = .ok file
  node : fresh.node = file.node
  accessMode : fresh.flags.accessMode = file.flags.accessMode
  status : fresh.flags.bits &&& OpenFlags.statusMask = file.flags.bits &&& OpenFlags.statusMask
  nodes : w'.nodes = w.nodes
  independent : w'.Independent t h h'

section

variable {w : World} {t : TaskId} {h : Handle} {file fresh : OpenFile} (hw : w.Reachable)
  (hfile : (openFileOf t h w).result = .ok file)

theorem reopening_spares (file : OpenFile) : (reopening file).Does Sparing True :=
  does_bind (openFound_spares standard_discreet file.node _) fun _ => does_pure _

include hw hfile

/-- What is opened is told by the open file, whatever number is reserved for it. -/
theorem reopening_reserving (c : ContextId) :
    (reopening file (w.reserving c)).result = file.reopened := by
  obtain ⟨f, -, hget⟩ := hw.kept.orderly.open_of_handle hfile
  have hreserved := w.retabled_reserving c
  have hs := (hw.fits f file hget).congr hreserved.nodes hreserved.volumes
  refine reopening_result (hw.wellFormed.reserving c) hs ?_
  rw [World.Live, hreserved.nodes]
  exact hw.wellFormed.held.file f file hget

theorem reopen_eq_error (hroom : w.HasRoom (w.contextOf t h.isKernel)) {e : Error}
    (he : file.reopened = .error e) :
    (reopen t h w).result = .error e ∧ (reopen t h w).world = w := by
  have hfails : (reopen t h w).result = .error e := by
    obtain rfl := OpenFile.reopened_eq_error he
    refine (Prod.mk.inj (ended_reopen hfile)).1.trans
      ((openInto_eq_error hw.kept.orderly (reopening_spares file) (by decide) (by decide)).2
        ⟨fun hfull => ?_, (reopening_reserving hw hfile _).trans he⟩)
    obtain ⟨i, -, hi, hfree⟩ := hroom
    exact hfull i hi hfree
  exact ⟨hfails, (reopen_fails hw.wellFormed hroom.numberable).1 e hfails⟩

theorem reopen_eq_ok (hroom : w.HasRoom (w.contextOf t h.isKernel))
    (hfresh : file.reopened = .ok fresh) : ∃ h', (reopen t h w).result = .ok h' ∧
      w.Copies t h h' file fresh (reopen t h w).world := by
  have hopening := (reopening_reserving hw hfile (w.contextOf t h.isKernel)).trans hfresh
  obtain ⟨hresult, hworld⟩ := Prod.mk.inj (ended_reopen hfile)
  obtain ⟨h', hok⟩ := openInto_ok hw.kept.orderly (reopening_spares file) hroom hopening
  obtain ⟨opened, hbinds⟩ := openInto_binds hw.kept.orderly (reopening_spares file) hok
  obtain rfl : fresh = opened := Except.ok.inj (hopening.symm.trans hbinds.opened)
  obtain ⟨f, hf, hget⟩ := hw.kept.orderly.open_of_handle hfile
  obtain ⟨hnode, hflags⟩ := OpenFile.reopened_eq_ok hfresh
  have hlt := Arena.lt_nextKey_of_has (Arena.has_iff.2 ⟨file, hget⟩)
  have hkernel : h'.isKernel = h.isKernel :=
    hbinds.kernel.trans (Numbering.isKernel_of_fileOf ((result_fileOf t h).symm.trans hf)).symm
  have hcontext : w.contextOf t h'.isKernel = w.contextOf t h.isKernel := by rw [hkernel]
  refine ⟨h', hresult.trans hok, ?_⟩
  rw [hworld]
  have hf' := hbinds.handles t h f (hw.kept.orderly.fileOf_reserving _ hf)
  exact
    { copy := hbinds.openFileOf_eq hcontext
      kept := by
        refine Query.result_bind_eq_ok.2 ⟨f, hf', ?_⟩
        rw [Query.result_look, World.file, hbinds.files, w.get?_pushed fresh hlt, hget,
          Option.getD_some]
      node := hnode
      accessMode := by
        rw [hflags]
        exact file.flags.accessMode_without (by decide)
      status := by
        have hmask : ~~~OpenFlags.truncateBit &&& OpenFlags.statusMask = OpenFlags.statusMask := by
          decide
        rw [hflags, OpenFlags.without, Word.and_and, hmask]
      nodes := by
        rw [hbinds.retabled.nodes, reopening_world, (w.retabled_reserving _).nodes]
      independent :=
        World.Separate.independent ⟨f, w.files.nextKey, Nat.ne_of_lt hlt, hf',
          hbinds.fileOf_eq hcontext⟩ }

end

/-- **A node that is opened once more goes its own way, but does not always start where the other
is.** In every state an instance comes to, what a handle stands for is opened as
`OpenFile.reopened` says, if a number is free for it: the copy has the node, the access mode and the
status, no node changes, and from then on neither handle moves the other or changes its flags. The
copy is of the same kind and in the same place just if the other is no directory that has been read
from, and no stream that was made for a place or a directory. If it was made for a directory, there
is no copy, and nothing has changed. -/
theorem reopen_copies {w : World} (hw : w.Reachable) {t : TaskId} {h : Handle} {file : OpenFile}
    (hfile : (openFileOf t h w).result = .ok file) (hroom : w.HasRoom (w.contextOf t h.isKernel)) :
    let w' := (reopen t h w).world
    (∀ fresh, file.reopened = .ok fresh →
        ∃ h', (reopen t h w).result = .ok h' ∧ w.Copies t h h' file fresh w') ∧
      (∀ e, file.reopened = .error e → (reopen t h w).result = .error e ∧ w' = w) ∧
      ((∃ h' fresh, (reopen t h w).result = .ok h' ∧ (openFileOf t h' w').result = .ok fresh ∧
          fresh.kind = file.kind) ↔
        file.cursor = 0 ∧
          (file.isStream = true →
            file.flags.pathOnly = false ∧ file.flags.directoryOnly = false)) := by
  intro w'
  have hcopies (fresh : OpenFile) (hfresh : file.reopened = .ok fresh) :=
    reopen_eq_ok hw hfile hroom hfresh
  have hfails (e : Error) (he : file.reopened = .error e) := reopen_eq_error hw hfile hroom he
  refine ⟨hcopies, hfails, ?_⟩
  rw [← file.reopened_kind]
  constructor
  · rintro ⟨h', fresh, hok, hfresh, hkind⟩
    cases hreopened : file.reopened with
    | error e => cases (hfails e hreopened).1.symm.trans hok
    | ok opened =>
      obtain ⟨h'', hok', hcopy⟩ := hcopies opened hreopened
      obtain rfl : h' = h'' := Except.ok.inj (hok.symm.trans hok')
      obtain rfl : fresh = opened := Except.ok.inj (hfresh.symm.trans hcopy.copy)
      exact ⟨fresh, rfl, hkind⟩
  · rintro ⟨fresh, hfresh, hkind⟩
    obtain ⟨h', hok, hcopy⟩ := hcopies fresh hfresh
    exact ⟨h', fresh, hok, hcopy.copy, hkind⟩

/-- A file whose stream stands after its two bytes. -/
def halfway : World :=
  Operation.runAll
    [.addTask 0, .openPath 0 none "/f" ⟨0x242⟩ 0o644, .writev 0 (.ofSlot 0 true) [⟨#[7, 8]⟩]]
    (World.fresh {})

theorem reopen_copies_of_halfway :
    let h : Handle := .ofSlot 0 true
    let file : OpenFile := { node := 2, flags := ⟨0x202⟩, kind := .stream 2 }
    let fresh : OpenFile := { node := 2, flags := ⟨0x2⟩, kind := .stream 2 }
    (halfway.Reachable ∧ (openFileOf 0 h halfway).result = .ok file ∧
      halfway.HasRoom (halfway.contextOf 0 h.isKernel)) ∧
      ∃ h', (reopen 0 h halfway).result = .ok h' ∧
        halfway.Copies 0 h h' file fresh (reopen 0 h halfway).world := by
  intro h file fresh
  have hreach : halfway.Reachable := ⟨_, World.steps_runAll _ _⟩
  have hfile : (openFileOf 0 h halfway).result = .ok file := by decide +kernel
  have hroom : halfway.HasRoom (halfway.contextOf 0 h.isKernel) :=
    ⟨1, by decide, by decide +kernel, by decide +kernel⟩
  exact ⟨⟨hreach, hfile, hroom⟩, (reopen_copies hreach hfile hroom).1 fresh (by decide)⟩

/-- The root is open, and its first entry has been read: the copy is at the beginning again. A file
that was made for a caller that asks for a directory has no copy, and one that was made for a place
is copied as a mere place. -/
theorem reopen_starts_over :
    let h : Handle := .ofSlot 0 true
    let h' : Handle := .ofSlot 1 true
    let opened := fun path flags => Operation.runAll
      [.addTask 0, .openPath 0 none path ⟨flags⟩ 0o644, .nextEntry 0 h] (World.fresh {})
    let scan := opened "/" OpenFlags.directoryBit
    let made := opened "/f" (OpenFlags.createBit ||| OpenFlags.directoryBit)
    let place := opened "/f" (OpenFlags.createBit ||| OpenFlags.pathBit)
    (scan.Reachable ∧ scan.HasRoom 0 ∧
      (openFileOf 0 h scan).result.map (·.kind) = .ok (.directory 1) ∧
      (reopen 0 h scan).result = .ok h' ∧
      (openFileOf 0 h' (reopen 0 h scan).world).result.map (·.kind) = .ok (.directory 0)) ∧
    (made.Reachable ∧ made.HasRoom 0 ∧
      (openFileOf 0 h made).result.map (·.kind) = .ok (.stream 0) ∧
      (reopen 0 h made).result = .error .notADirectory) ∧
    place.Reachable ∧ place.HasRoom 0 ∧
      (openFileOf 0 h place).result.map (·.kind) = .ok (.stream 0) ∧
      (reopen 0 h place).result = .ok h' ∧
      (openFileOf 0 h' (reopen 0 h place).world).result.map (·.kind) = .ok .path :=
  ⟨⟨⟨_, World.steps_runAll _ _⟩, ⟨1, by decide, by decide +kernel, by decide +kernel⟩,
      by decide +kernel, by decide +kernel, by decide +kernel⟩,
    ⟨⟨_, World.steps_runAll _ _⟩, ⟨1, by decide, by decide +kernel, by decide +kernel⟩,
      by decide +kernel, by decide +kernel⟩,
    ⟨_, World.steps_runAll _ _⟩, ⟨1, by decide, by decide +kernel, by decide +kernel⟩,
    by decide +kernel, by decide +kernel, by decide +kernel⟩

end VirtualFs
