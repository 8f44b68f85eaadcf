/-
The same open once more. An open that makes a file and one that finds it read the
same flags, each in its own way. The one that finds it heeds whether a directory
is asked for, or nothing but a place; the one that makes it heeds neither, and
opens a stream all the same. In all else the two agree.
-/
import VirtualFs.Proofs.LastingLookups
import VirtualFs.Proofs.NodeOpens
import VirtualFs.Proofs.StreamRuns

namespace VirtualFs

open VirtualFs.Action (ended_query_bind)

/-! ## What a call hands out -/

/-- A call gives a handle of a context, which stands for an open file then. -/
structure World.HandsOut (w : World) (c : ContextId) (x : Act Handle) (h : Handle)
    (file : OpenFile) : Prop where
  ok : (x w).result = .ok h
  found : ∃ f, (lookupHandle c h (x w).world).result = .ok f ∧ (x w).world.file f = file

namespace World.HandsOut

variable {w : World} {c : ContextId} {x : Act Handle} {h h' : Handle} {file file' : OpenFile}

theorem file_eq (ho : w.HandsOut c x h file) (ho' : w.HandsOut c x h' file') : file = file' := by
  obtain rfl : h = h' := Except.ok.inj (ho.ok.symm.trans ho'.ok)
  obtain ⟨f, hf, rfl⟩ := ho.found
  obtain ⟨f', hf', rfl⟩ := ho'.found
  obtain rfl : f = f' := Except.ok.inj (hf.symm.trans hf')
  rfl

end World.HandsOut

section

variable {w w' : World} {c : ContextId} {h : Handle} {x : Act Handle} {opening : Act OpenFile}
  {file : OpenFile}

/-- What has been bound to a number is handed out under it. -/
theorem World.Binds.handsOut (hok : (x w).result = .ok h)
    (hbinds : w.Binds c opening h file (x w).world) : w.HandsOut c x h file := by
  refine ⟨hok, w.files.nextKey, hbinds.found, ?_⟩
  rw [World.file, hbinds.files, Arena.get?_push, if_pos rfl, Option.getD_some]

/-- If there is a number for it, what the opening of a path comes to is what is handed out. -/
theorem openPath_handsOut_iff (hw : w.Orderly) {t : TaskId} {base : Option Handle} {path : String}
    {flags : OpenFlags} {mode : UInt32} (hroom : w.HasRoom (w.contextOf t flags.forKernel)) :
    (∃ h, w.HandsOut (w.contextOf t flags.forKernel) (openPath t base path flags mode) h file) ↔
      (pathOpening t base path flags mode
        (w.reserving (w.contextOf t flags.forKernel))).result = .ok file := by
  constructor
  · rintro ⟨h, ho⟩
    obtain ⟨opened, hbinds⟩ := openPath_binds hw ho.ok
    rw [ho.file_eq (hbinds.handsOut ho.ok)]
    exact hbinds.opened
  · intro hopening
    obtain ⟨h, hok⟩ := openPath_ok hw hroom hopening
    obtain ⟨opened, hbinds⟩ := openPath_binds hw hok
    obtain rfl : file = opened := Except.ok.inj (hopening.symm.trans hbinds.opened)
    exact ⟨h, hbinds.handsOut hok⟩

/-- A handle stands for the open file that it stood for. -/
theorem World.Binds.openFileOf_lasts (hw : w.Orderly) (hw' : w'.Orderly)
    (hbinds : w.Binds c opening h file w') (t : TaskId) (base : Handle) :
    (openFileOf t base).Lasts (w.reserving c) (w'.reserving c) := by
  intro opened hopened
  obtain ⟨f, hf, hopened⟩ := Query.result_bind_eq_ok.1 hopened
  refine Query.result_bind_eq_ok.2
    ⟨f, hw'.fileOf_reserving c (hbinds.handles t base f hf), ?_⟩
  have hhas : w.files.has f = true := by
    rw [← w.reserving_files c]
    exact (allocateHandle_renders hw c).orderly.has_of_found ((result_fileOf t base).symm.trans hf)
  have hsame : (w'.reserving c).file f = (w.reserving c).file f := by
    rw [World.file, World.file, World.reserving_files, World.reserving_files, hbinds.files,
      w.get?_pushed file (Arena.lt_nextKey_of_has hhas)]
  rw [Query.result_look] at hopened ⊢
  rw [hsame, hopened]

end

/-! ## Making a file and finding it -/

/-- A regular file is listed, and its volume may be written to. -/
structure World.ListsFile (w : World) (d : NodeId) (name : String) (n : NodeId) : Prop where
  entry : w.Entry d name n
  regular : Mode.typeBits (w.node n).mode = Mode.regular
  ops : (w.node n).ops = some .ram
  writable : (w.volume (w.node n).volume).flags.isReadOnly = false

section

variable {w w' : World} {t : TaskId} {d n : NodeId} {name : String} {flags : OpenFlags}
  {mode : UInt32} {file : OpenFile}

theorem World.node_of_opensAs (hopens : w.opensAs n flags = .ok file) : file.node = n := by
  rw [opensAs] at hopens
  split at hopens
  · cases hopens
    rfl
  split at hopens
  · cases hopens
  split at hopens
  · cases hopens
  next ops _ =>
  split at hopens
  · split at hopens <;> cases hopens
    rfl
  split at hopens
  · cases hopens
  split at hopens
  · cases hopens
  cases hlets : ops.lets with
  | error e =>
    rw [hlets] at hopens
    cases hopens
  | ok u =>
    rw [hlets] at hopens
    cases hopens
    rfl

/-- A file is made only where it may be, and is opened as a stream. -/
theorem World.of_makesFile (hmakes : w.makesFile d name flags = .ok file) :
    file = .stream w.nodes.nextKey flags ∧
      (w.volume (w.node d).volume).flags.isReadOnly = false := by
  obtain ⟨_, -, hmakes⟩ := Numbering.bind_eq_ok.1 hmakes
  split at hmakes
  · cases hmakes
  next hwritable =>
  split at hmakes
  · split at hmakes
    · cases hmakes
    · cases hmakes
      exact ⟨rfl, Bool.eq_false_of_not_eq_true hwritable⟩
  · cases hmakes

namespace World.ListsFile

theorem isDirectory (hl : w.ListsFile d name n) : w.isDirectory n = false := by
  rw [World.isDirectory, Mode.isDirectory, hl.regular]
  rfl

theorem isSymlink (hl : w.ListsFile d name n) : w.isSymlink n = false := by
  rw [World.isSymlink, Mode.isSymlink, hl.regular]
  rfl

/-- What is listed stays listed whatever is added. -/
theorem adds (h : w.WellFormed) (a : w.Adds w') (hl : w.ListsFile d name n) :
    w'.ListsFile d name n := by
  have hn := h.linked.live d name n hl.entry
  obtain ⟨_, hnode⟩ := a.node n hn
  obtain ⟨-, _, hvolume⟩ := a.volume _ (h.numbered.volume n hn)
  refine ⟨a.entry d name n hl.entry, ?_, ?_, ?_⟩ <;> rw [hnode]
  · exact hl.regular
  · exact hl.ops
  · dsimp only
    rw [hvolume]
    exact hl.writable

/-- A file that is listed is what its name leads to. -/
theorem resolveIn (h : w.WellFormed) (hl : w.ListsFile d name n) (t : TaskId) (flags : OpenFlags) :
    (resolveIn t d name (openLookup flags) w).result = .ok n := by
  have hself : w.cross n = n := by
    rw [World.cross, h.mountRoot_of_not_isDirectory hl.isDirectory, Option.getD_none]
  rw [resolveIn_opened h t hl.entry, hself, World.followFor_of_no_link t d hl.isSymlink, ite_self]

/-- A file that is listed is opened as a stream, unless no more than a place or no less than a
directory is asked for. -/
theorem opensAs (hl : w.ListsFile d name n) (flags : OpenFlags) : w.opensAs n flags =
    if flags.pathOnly then .ok { OpenFile.stream n flags with kind := .path }
    else if flags.directoryOnly then .error .notADirectory
    else .ok (.stream n flags) := by
  rw [World.opensAs, hl.isSymlink, hl.ops, hl.isDirectory, hl.writable, Bool.and_false,
    Bool.and_false, OpenFile.stream, Streams.ofKind_without_create]
  rfl

end World.ListsFile

variable (h : w.WellFormed)

include h

/-- A file that has been made is listed. -/
theorem createNode_lists (hd : w.Known d)
    (hok : (createNode d name flags mode w).result = .ok file)
    (h' : (createNode d name flags mode w).world.WellFormed) :
    w.Adds (createNode d name flags mode w).world ∧
      (createNode d name flags mode w).world.ListsFile d name file.node ∧
        file = .stream file.node flags := by
  have hinserted := (createNode_inserts h hd name flags mode).2 file hok
  have hcontent := ((createNode_makes h hd.live name flags mode).2 file hok).2
  have hmakes := (createNode_result h hd.live name flags mode).symm.trans hok
  obtain ⟨hfile, hwritable⟩ := World.of_makesFile hmakes
  generalize (createNode d name flags mode w).world = w' at *
  have hram := h'.ram _ (hinserted.live h)
  rw [← hinserted.eq_nextKey] at hcontent hfile
  refine ⟨hinserted.adds h, ⟨hinserted.entry h, ?_, ?_, ?_⟩, hfile⟩
  · exact hram.type.trans (congrArg Content.type hcontent)
  · exact hram.ops.resolve_right fun hdevice => by cases hcontent.symm.trans hdevice
  · obtain ⟨-, _, hvolume⟩ := hinserted.volume_kept h (h.numbered.volume d hd.live)
    rw [hinserted.volume_eq h, hvolume]
    exact hwritable

/-- An open that comes to a node that was not there has made it. -/
theorem openName_creates (hd : w.Known d)
    (hok : (openName t d name flags mode w).result = .ok file) (hnew : ¬w.Live file.node) :
    (openName t d name flags mode).ended w = (createNode d name flags mode).ended w := by
  rw [openName_result h t hd] at hok
  cases hfound : (resolveIn t d name (openLookup flags) w).result with
  | ok n =>
    rw [hfound] at hok
    dsimp only at hok
    split at hok
    · cases hok
    · rw [World.node_of_opensAs hok] at hnew
      exact absurd (h.sound.known_opened hd hfound).live hnew
  | error e =>
    rw [hfound] at hok
    dsimp only at hok
    split at hok
    · next hcreates =>
      rw [openName, ← openLookup,
        ended_query_bind ((Query.result_attempt _ w).trans (congrArg _ hfound))]
      dsimp only
      rw [if_pos hcreates]
    · cases hok

/-- An open that comes to a node that was not there leaves it listed where its path ends. -/
theorem pathOpening_lists {base : Option Handle} {path : String}
    (hok : (pathOpening t base path flags mode w).result = .ok file) (hnew : ¬w.Live file.node) :
    let w' := (pathOpening t base path flags mode w).world
    w.Adds w' ∧ file = .stream file.node flags ∧ ∃ d name,
      (resolveTarget t base path w).result = .ok (d, name) ∧ w'.ListsFile d name file.node := by
  intro w'
  have h' : w'.WellFormed := pathOpening_wellFormed h t base path flags mode
  rw [pathOpening_result] at hok
  obtain ⟨⟨d, name⟩, hfound, hopened⟩ := Numbering.bind_eq_ok.1 hok
  have hd := (h.sound.resolveTarget_yields t base path _ hfound).1
  have hcreates := openName_creates h hd hopened hnew
  have hworld : w' = (createNode d name flags mode w).world :=
    (Prod.mk.inj ((ended_pathOpening hfound).trans hcreates)).2
  have hcreated : (createNode d name flags mode w).result = .ok file :=
    (Prod.mk.inj hcreates).1.symm.trans hopened
  rw [hworld] at h' ⊢
  obtain ⟨hadds, hlists, hfile⟩ := createNode_lists h hd hcreated h'
  exact ⟨hadds, hfile, d, name, hfound, hlists⟩

/-- What a path that ends at a listed file is opened as. -/
theorem pathOpening_listed {base : Option Handle} {path : String}
    (hshared : flags.exclusive = false)
    (hfound : (resolveTarget t base path w).result = .ok (d, name)) (hl : w.ListsFile d name n) :
    (pathOpening t base path flags mode w).result =
      if flags.pathOnly then .ok { OpenFile.stream n flags with kind := .path }
      else if flags.directoryOnly then .error .notADirectory
      else .ok (.stream n flags) := by
  have hd := (h.sound.resolveTarget_yields t base path _ hfound).1
  rw [pathOpening_result, hfound, Except.bind, openName_result h t hd, hl.resolveIn h]
  simp only [hshared, Bool.and_false, Bool.false_eq_true, if_false]
  exact hl.opensAs flags

end

/-! ## The same open once more -/

section

variable {w w' : World} {c : ContextId} {t : TaskId} {base : Option Handle} {path : String}
  {flags : OpenFlags} {mode : UInt32} {h : Handle} {file : OpenFile}

/-- Nothing that the open looked at on its way has changed since it made the file. -/
theorem created_opening (hw : w.Reachable) (hw' : w'.Reachable) (hshared : flags.exclusive = false)
    (hbinds : w.Binds c (pathOpening t base path flags mode) h file w')
    (hnew : ¬w.Live file.node) :
    file = .stream file.node flags ∧
      (pathOpening t base path flags mode (w'.reserving c)).result =
        if flags.pathOnly then .ok { file with kind := .path }
        else if flags.directoryOnly then .error .notADirectory
        else .ok file := by
  have hreserved := World.retabled_reserving w c
  have hr : (w.reserving c).WellFormed := hw.wellFormed.reserving c
  have hr' : (w'.reserving c).WellFormed := hw'.wellFormed.reserving c
  have hnew : ¬(w.reserving c).Live file.node := by
    rw [World.Live, hreserved.nodes]
    exact hnew
  obtain ⟨hadds, hfile, d, name, hfound, hlists⟩ := pathOpening_lists hr hbinds.opened hnew
  -- The directory is found again, since nothing on the way to it has gone, and it lists the file.
  have hsince := hbinds.retabled.trans (World.retabled_reserving w' c)
  have hlists' := hlists.adds (pathOpening_wellFormed hr t base path flags mode) hsince.adds
  have hbase (handle : Handle) (_ : base = some handle) :
      (openFileOf t handle).Lasts (w.reserving c) (w'.reserving c) :=
    hbinds.openFileOf_lasts hw.kept.orderly hw'.kept.orderly t handle
  have hfound' := resolveTarget_lasts hr hr' (hadds.trans hsince.adds) t hbase path _ hfound
  refine ⟨hfile, ?_⟩
  rw [pathOpening_listed hr' hshared hfound' hlists', ← hfile]

end

/-- **An open that made its file agrees with the same open that finds it, unless it asked for a
directory or for nothing but a place.** Made, the file is a stream in any case. Found, it is
refused to a caller that asks for a directory, and to one that asks for a place it is only that; to
any other it is opened as it was when it was made. -/
theorem created_opens_again {w : World} (hw : w.Reachable) (t : TaskId) (base : Option Handle)
    (path : String) (flags : OpenFlags) (mode : UInt32) (hshared : flags.exclusive = false)
    {h : Handle} (hopen : (openPath t base path flags mode w).result = .ok h) :
    let c := w.contextOf t flags.forKernel
    let w' := (openPath t base path flags mode w).world
    ∃ file, w.HandsOut c (openPath t base path flags mode) h file ∧
      (¬w.Live file.node → w'.HasRoom c →
        file.isStream = true ∧
          ((∃ again, w'.HandsOut c (openPath t base path flags mode) again file) ↔
            flags.pathOnly = false ∧ flags.directoryOnly = false) ∧
          (flags.pathOnly = true →
            ∃ again, w'.HandsOut c (openPath t base path flags mode) again
              { file with kind := .path }) ∧
          (flags.pathOnly = false → flags.directoryOnly = true →
            (openPath t base path flags mode w').result = .error .notADirectory)) := by
  intro c w'
  have hw' : w'.Reachable := hw.steps (.single ⟨.openPath t base path flags mode, rfl⟩)
  obtain ⟨file, hbinds⟩ :
      ∃ file, w.Binds c (pathOpening t base path flags mode) h file w' :=
    openPath_binds hw.kept.orderly hopen
  refine ⟨file, hbinds.handsOut hopen, fun hnew hroom => ?_⟩
  obtain ⟨hfile, hagain⟩ := created_opening hw hw' hshared hbinds hnew
  have hstream : file.kind = .stream 0 := by rw [hfile]; rfl
  have hcontext : w'.contextOf t flags.forKernel = c := by
    rw [World.contextOf, World.task, hbinds.tasks]
    rfl
  rw [← hcontext] at hroom hagain ⊢
  refine ⟨by rw [OpenFile.isStream, hstream], ?_, fun hpath => ?_, fun hpath hdir => ?_⟩
  · rw [openPath_handsOut_iff hw'.kept.orderly hroom, hagain]
    cases flags.pathOnly with
    | true =>
      -- What is opened for its place only is no stream, as the file is that was made.
      simp only [if_true, Except.ok.injEq, Bool.true_eq_false, false_and, iff_false]
      intro hsame
      rw [← hsame] at hstream
      cases hstream
    | false => cases flags.directoryOnly <;> simp
  · rw [openPath_handsOut_iff hw'.kept.orderly hroom, hagain, if_pos hpath]
  · rw [openPath_eq_error hw'.kept.orderly (by decide) (by decide), hagain, hpath, hdir]
    refine ⟨fun hfull => ?_, rfl⟩
    obtain ⟨i, -, hi, hfree⟩ := hroom
    exact hfull i hi hfree

/-- An instance with one task and nothing in it. -/
def emptyInstance : World := Operation.runAll [.addTask 0] (World.fresh {})

theorem created_opens_again_of_emptyInstance :
    let w := emptyInstance
    let flags : OpenFlags := ⟨0x42⟩
    let w' := (openPath 0 none "/f" flags 0o644 w).world
    (w.Reachable ∧ flags.creates = true ∧ flags.exclusive = false ∧
      (openPath 0 none "/f" flags 0o644 w).result = .ok (.ofSlot 0 true)) ∧
      ∃ file, w.HandsOut 0 (openPath 0 none "/f" flags 0o644) (.ofSlot 0 true) file ∧
        ∃ again, w'.HandsOut 0 (openPath 0 none "/f" flags 0o644) again file := by
  intro w flags w'
  have hreach : w.Reachable := ⟨_, World.steps_runAll _ _⟩
  have hopen : (openPath 0 none "/f" flags 0o644 w).result = .ok (.ofSlot 0 true) := by
    decide +kernel
  obtain ⟨file, hfirst, hagain⟩ :=
    created_opens_again hreach 0 none "/f" flags 0o644 (by decide) hopen
  have hcontext : w.contextOf 0 flags.forKernel = 0 := by decide +kernel
  rw [hcontext] at hfirst hagain
  have hnew : ¬w.Live file.node := by
    obtain ⟨f, hf, rfl⟩ := hfirst.found
    have hzero : (lookupHandle 0 (.ofSlot 0 true) w').result = .ok 0 := by decide +kernel
    obtain rfl : 0 = f := Except.ok.inj (hzero.symm.trans hf)
    decide +kernel
  have hroom : w'.HasRoom 0 := ⟨1, by decide, by decide +kernel, by decide +kernel⟩
  exact ⟨⟨hreach, by decide, by decide, hopen⟩, file, hfirst,
    (hagain hnew hroom).2.1.2 ⟨by decide, by decide⟩⟩

/-- A file that has been made for a caller that asks for a directory, or for a place, is opened
otherwise by the same call a moment later. -/
theorem created_file_opens_otherwise :
    let w := emptyInstance
    let directory : OpenFlags := ⟨0x10040⟩
    let place : OpenFlags := ⟨0x200040⟩
    let made := (openPath 0 none "/f" directory 0o644 w).world
    let placed := (openPath 0 none "/f" place 0o644 w).world
    w.Reachable ∧ directory.creates = true ∧ directory.exclusive = false ∧
      place.creates = true ∧ place.exclusive = false ∧
      (openPath 0 none "/f" directory 0o644 w).result = .ok (.ofSlot 0 true) ∧
      made.HasRoom 0 ∧
      (openPath 0 none "/f" directory 0o644 made).result = .error .notADirectory ∧
      (openPath 0 none "/f" place 0o644 w).result = .ok (.ofSlot 0 true) ∧
      (openPath 0 none "/f" place 0o644 placed).result = .ok (.ofSlot 1 true) ∧
      ((openPath 0 none "/f" place 0o644 placed).world.file 0).isStream = true ∧
      ((openPath 0 none "/f" place 0o644 placed).world.file 1).isPath = true :=
  ⟨⟨_, World.steps_runAll _ _⟩, by decide, by decide, by decide, by decide, by decide +kernel,
    ⟨1, by decide, by decide +kernel, by decide +kernel⟩, by decide +kernel, by decide +kernel,
    by decide +kernel, by decide +kernel, by decide +kernel⟩

end VirtualFs
