/-
What an open file is goes with what its node is. A node keeps its type and its
operations as long as it is there, and a volume its flags; an open file stays on
its node, of the kind it was opened as, and with its flags but for the status. So
what was true of the two when the file was opened is true of them later, and the
node can be opened like that again.
-/
import VirtualFs.Proofs.CreatedFiles
import VirtualFs.Proofs.Extension
import VirtualFs.Proofs.Following

namespace VirtualFs

open World (Aside Sparing)

/-! ## What a node is for good -/

/-- The type of a node and its operations. -/
def Node.make (node : Node) : UInt32 × Option OpsKind := (Mode.typeBits node.mode, node.ops)

theorem Node.make_mapRam (f : RamNode → RamNode) (node : Node) :
    (node.mapRam f).make = node.make := by
  rw [mapRam]
  split <;> rfl

namespace World

/-- Nodes that stay are what they were, and volumes have the flags they had. -/
structure KeepsMakes (w w' : World) : Prop where
  make : ∀ n < w.nodes.nextKey, w'.Live n → (w'.node n).make = (w.node n).make
  flags : ∀ v, w.volumes.has v = true → (w'.volume v).flags = (w.volume v).flags

variable {w w' w'' : World}

theorem KeepsMakes.refl (w : World) : w.KeepsMakes w := ⟨fun _ _ _ => rfl, fun _ _ => rfl⟩

theorem KeepsMakes.trans (h : w.KeepsMakes w') (hext : w.Extends w') (h' : w'.KeepsMakes w'')
    (hext' : w'.Extends w'') : w.KeepsMakes w'' where
  make n hn hn'' := by
    have hlt := Nat.lt_of_lt_of_le hn hext.nextKey
    have hn' := (hext'.old n hlt hn'').1
    rw [h'.make n hlt hn'', h.make n hn hn']
  flags v hv := (h'.flags v (hext.volume v hv).1).trans (h.flags v hv)

/-- A change to one node that does not change its make. -/
theorem keepsMakes_setNode {n : NodeId} {f : Node → Node} (hn : w.Live n)
    (hf : (f (w.node n)).make = (w.node n).make) : w.KeepsMakes (w.setNode n f) :=
  ⟨fun m _ _ => view_setNode Node.make hn hf m, fun _ _ => rfl⟩

theorem Grown.keepsMakes (s : w.Grown w')
    (hflags : ∀ v, w.volumes.has v = true → (w'.volume v).flags = (w.volume v).flags) :
    w.KeepsMakes w' :=
  ⟨fun n hn hn' => by rw [s.node_of_live (s.live_of_lt hn hn')], hflags⟩

theorem Edit.keepsMakes (h : w.WellFormed) (e : Edit w w') : w.KeepsMakes w' := by
  cases e with
  | swept => exact ⟨fun n _ hn => by rw [node_sweep hn], fun _ _ => rfl⟩
  | touched hn ht => exact keepsMakes_setNode hn (Prod.ext ht.type ht.ops)
  | unlisted hd => exact keepsMakes_setNode (live_of_isDirectory hd) (Node.make_mapRam _ _)
  | listed hd => exact keepsMakes_setNode (live_of_isDirectory hd) (Node.make_mapRam _ _)
  | turned hn => exact keepsMakes_setNode (live_of_parent hn) (Node.make_mapRam _ _)
  | made hd _ hmode hcontent hops =>
    refine (grown_withNode h hd hmode hcontent hops).keepsMakes fun v _ => ?_
    rw [volume_withNode h hd]
    split <;> rfl
  | idTaken => exact ⟨fun _ _ _ => rfl, fun _ _ => rfl⟩
  | volumeMade =>
    exact (grown_withVolume w _ _ _).keepsMakes fun v hv => by rw [volume_withVolume_of_has hv]
  | attached hv _ _ hp =>
    exact ⟨fun n _ _ => view_attach Node.make (fun _ _ => rfl) hv (live_of_isDirectory hp) _ n,
      fun u _ => view_volume_attach Volume.flags (fun _ _ => rfl) hv _ _ u⟩
  | held => exact ⟨fun _ _ _ => rfl, fun _ _ => rfl⟩

/-- **A node is of its type and has its operations for good**, and a volume has its flags. -/
theorem Edits.keepsMakes (e : Edits w w') (h : w.WellFormed) : w.KeepsMakes w' := by
  induction e with
  | refl => exact .refl w
  | tail es e ih =>
    have h' := Edits.wellFormed es h
    exact ih.trans (Edits.extends es h) (e.keepsMakes h') (e.extends h')

end World

/-! ## What an open file is for good -/

namespace OpenFlags

theorem has_eq_false {flags : OpenFlags} {bit : UInt32} :
    flags.has bit = false ↔ flags.bits &&& bit = 0 := by
  rw [has, bne_eq_false_iff_eq]

/-- Bits that are not there are not taken away. -/
theorem without_eq_self {flags : OpenFlags} {bits : UInt32} (h : flags.bits &&& bits = 0) :
    flags.without bits = flags := by
  have hsplit := Word.or_and (~~~bits) bits flags.bits
  rw [UInt32.not_or_self, UInt32.neg_one_and, UInt32.and_comm bits, h, UInt32.or_zero,
    UInt32.and_comm] at hsplit
  exact congrArg OpenFlags.mk hsplit.symm

theorem without_withStatus (flags new : OpenFlags) :
    (flags.withStatus new).without statusMask = flags.without statusMask := by
  have h : statusMask &&& ~~~statusMask = 0 := by decide
  simp only [withStatus, without, Word.or_and, Word.and_and, UInt32.and_self, h, UInt32.and_zero,
    UInt32.or_zero]

end OpenFlags

/-- A kind of open file, at its beginning. -/
def FileKind.start : FileKind → FileKind
  | .stream _ => .stream 0
  | .directory _ => .directory 0
  | .path => .path

/-- The same file but for the place it has come to and its status. -/
structure OpenFile.SameForm (file file' : OpenFile) : Prop where
  node : file'.node = file.node
  kind : file'.kind.start = file.kind.start
  flags : file'.flags.without OpenFlags.statusMask = file.flags.without OpenFlags.statusMask

namespace OpenFile

variable {file file' file'' : OpenFile}

theorem SameForm.refl (file : OpenFile) : file.SameForm file := ⟨rfl, rfl, rfl⟩

theorem SameForm.trans (h : file.SameForm file') (h' : file'.SameForm file'') :
    file.SameForm file'' :=
  ⟨h'.node.trans h.node, h'.kind.trans h.kind, h'.flags.trans h.flags⟩

theorem sameForm_setPosition (file : OpenFile) (position : Nat) :
    file.SameForm (file.setPosition position) := by
  rw [setPosition]
  split
  · next hkind => exact ⟨rfl, by rw [hkind]; rfl, rfl⟩
  · exact .refl file

theorem sameForm_setCursor (file : OpenFile) (cursor : Nat) :
    file.SameForm (file.setCursor cursor) := by
  rw [setCursor]
  split
  · next hkind => exact ⟨rfl, by rw [hkind]; rfl, rfl⟩
  · exact .refl file

theorem sameForm_withStatus (file : OpenFile) (flags : OpenFlags) :
    file.SameForm { file with flags := file.flags.withStatus flags } :=
  ⟨rfl, rfl, file.flags.without_withStatus flags⟩

end OpenFile

namespace World

/-- What is open was open before, in the same form. -/
def SameForms (w w' : World) : Prop :=
  ∀ f file', w'.files.get? f = some file' → ∃ file, w.files.get? f = some file ∧ file.SameForm file'

/-- A stretch of a run in which nothing is opened, and what is open keeps its form. -/
def Forming (w : World) (_ : List Event) (w' : World) : Prop := w.SameForms w'

variable {w w' w'' : World}

theorem SameForms.of_files (h : w'.files = w.files) : w.SameForms w' :=
  fun _ file' hfile' => ⟨file', by rw [← h]; exact hfile', .refl file'⟩

theorem SameForms.trans (h : w.SameForms w') (h' : w'.SameForms w'') : w.SameForms w'' := by
  intro f file'' hfile''
  obtain ⟨file', hfile', hform'⟩ := h' f file'' hfile''
  obtain ⟨file, hfile, hform⟩ := h f file' hfile'
  exact ⟨file, hfile, hform.trans hform'⟩

theorem sameForms_setFile (g : FileId) {change : OpenFile → OpenFile}
    (h : ∀ file : OpenFile, file.SameForm (change file)) : w.SameForms (w.setFile g change) := by
  intro f file' hfile'
  obtain ⟨file, hfile, rfl | rfl⟩ := Arena.exists_get?_of_modify hfile'
  · exact ⟨_, hfile, .refl _⟩
  · exact ⟨file, hfile, h file⟩

instance : Stretch Forming where
  quiet _ := .of_files rfl
  trans h h' := SameForms.trans h h'

instance : Moving Forming where
  beside h := .of_files h.files
  settled w := .of_files w.spares_settle.files
  moved _ g position := sameForms_setFile g fun file => file.sameForm_setPosition position
  flagged _ g flags := sameForms_setFile g fun file => file.sameForm_withStatus flags

instance : Turning Forming where
  turned _ g _ := sameForms_setFile g fun file => file.sameForm_setCursor _

instance : Tabular Forming where
  seen _ h := h
  tables _ _ _ := .of_files rfl
  removed _ _ _ file' hfile' := ⟨file', Arena.get?_of_remove hfile', .refl file'⟩

theorem Aside.forming {t : List Event} (h : w.Aside t w') : w.Forming t w' := .of_files h.1.files

end World

/-! ## Flags, nodes and kinds -/

namespace World

/-- A node can be opened with some flags as a file of a kind. Only for a stream it is left open
whether more than a place, or no less than a directory, is asked for: a file that is made is opened
as a stream without a look at that. -/
def SuitsAs (w : World) (n : NodeId) (flags : OpenFlags) : FileKind → Prop
  | .stream _ => w.isDirectory n = false ∧ (flags.nofollow && w.isSymlink n) = false ∧
      (flags.writable && (w.volume (w.node n).volume).flags.isReadOnly) = false ∧
      ∃ ops, (w.node n).ops = some ops ∧ ops.lets = .ok ()
  | .directory _ => w.isDirectory n = true ∧ flags.writable = false ∧ flags.pathOnly = false
  | .path => flags.pathOnly = true

/-- An open file is of a kind that its flags and its node allow, and remembers no more than it
should. -/
structure Suits (w : World) (file : OpenFile) : Prop where
  creates : file.flags.creates = false
  forKernel : file.flags.forKernel = false
  kind : w.SuitsAs file.node file.flags file.kind

variable {w w' : World} {n : NodeId} {flags : OpenFlags} {file file' : OpenFile}

theorem suitsAs_start (kind : FileKind) : w.SuitsAs n flags kind.start ↔ w.SuitsAs n flags kind := by
  cases kind <;> exact Iff.rfl

/-- What a kind asks of the flags are not the bits that an open file forgets or changes. -/
theorem suitsAs_without {bits : UInt32} (kind : FileKind)
    (hbits : ~~~bits &&& OpenFlags.accessMask = OpenFlags.accessMask ∧
      ~~~bits &&& OpenFlags.nofollowBit = OpenFlags.nofollowBit ∧
        ~~~bits &&& OpenFlags.pathBit = OpenFlags.pathBit) :
    w.SuitsAs n (flags.without bits) kind ↔ w.SuitsAs n flags kind := by
  have hwritable := flags.writable_without hbits.1
  have hnofollow : (flags.without bits).nofollow = flags.nofollow := flags.has_without hbits.2.1
  have hpath : (flags.without bits).pathOnly = flags.pathOnly := flags.has_without hbits.2.2
  cases kind <;> simp only [SuitsAs, hwritable, hnofollow, hpath]

theorem suits_ofKind {kind : FileKind} (h : w.SuitsAs n flags kind) :
    w.Suits (.ofKind n flags kind) where
  creates := by
    have hbits : ~~~(OpenFlags.createBit ||| OpenFlags.kernelBit) &&& OpenFlags.createBit = 0 := by
      decide
    rw [OpenFlags.creates, OpenFlags.has_eq_false, OpenFile.ofKind, OpenFlags.without, Word.and_and,
      hbits, UInt32.and_zero]
  forKernel := by
    have hbits : ~~~(OpenFlags.createBit ||| OpenFlags.kernelBit) &&& OpenFlags.kernelBit = 0 := by
      decide
    rw [OpenFlags.forKernel, OpenFlags.has_eq_false, OpenFile.ofKind, OpenFlags.without,
      Word.and_and, hbits, UInt32.and_zero]
  kind := (suitsAs_without kind (by decide)).2 h

/-- Another place or another status is of no account. -/
theorem Suits.sameForm (h : w.Suits file) (hform : file.SameForm file') : w.Suits file' := by
  have hsame {bit : UInt32} (hbit : ~~~OpenFlags.statusMask &&& bit = bit) :
      file'.flags.has bit = file.flags.has bit := by
    rw [← file'.flags.has_without hbit, hform.flags, file.flags.has_without hbit]
  refine ⟨(hsame (by decide)).trans h.creates, (hsame (by decide)).trans h.forKernel, ?_⟩
  have hwithout (flags : OpenFlags) : w.SuitsAs file.node (flags.without OpenFlags.statusMask)
      file.kind.start ↔ w.SuitsAs file.node flags file.kind.start :=
    suitsAs_without file.kind.start (by decide)
  rw [hform.node, ← suitsAs_start, hform.kind, ← hwithout, hform.flags, hwithout, suitsAs_start]
  exact h.kind

theorem KeepsMakes.isDirectory (hkeeps : w.KeepsMakes w') (hn : w.Live n) (hn' : w'.Live n) :
    w'.isDirectory n = w.isDirectory n := by
  have hmake := congrArg Prod.fst (hkeeps.make n hn.lt hn')
  exact congrArg (· == Mode.directory) hmake

theorem KeepsMakes.isSymlink (hkeeps : w.KeepsMakes w') (hn : w.Live n) (hn' : w'.Live n) :
    w'.isSymlink n = w.isSymlink n := by
  have hmake := congrArg Prod.fst (hkeeps.make n hn.lt hn')
  exact congrArg (· == Mode.symlink) hmake

/-- As long as its node is there, an open file stays of a kind that is allowed. -/
theorem Suits.later (h : w.WellFormed) (e : w.Edits w') (hs : w.Suits file)
    (hn : w.Live file.node) (hn' : w'.Live file.node) : w'.Suits file := by
  have hkeeps := e.keepsMakes h
  have hdir := hkeeps.isDirectory hn hn'
  have hlink := hkeeps.isSymlink hn hn'
  have hops : (w'.node file.node).ops = (w.node file.node).ops :=
    congrArg Prod.snd (hkeeps.make _ hn.lt hn')
  have hvolume := ((e.extends h).old _ hn.lt hn').2.1
  have hflags := hkeeps.flags _ (h.numbered.volume _ hn)
  have hsame (kind : FileKind) :
      w'.SuitsAs file.node file.flags kind ↔ w.SuitsAs file.node file.flags kind := by
    cases kind <;> simp only [SuitsAs, hdir, hlink, hops, hvolume, hflags]
  exact ⟨hs.creates, hs.forKernel, (hsame _).2 hs.kind⟩

/-! ## What is opened -/

/-- A node that is opened once it is found is opened as a kind that is allowed. -/
theorem suits_of_opensAs (hopens : w.opensAs n flags = .ok file) : w.Suits file := by
  have hwithout {kind : FileKind} : w.SuitsAs n flags kind →
      w.SuitsAs n (flags.without OpenFlags.createBit) kind := (suitsAs_without kind (by decide)).2
  rw [opensAs] at hopens
  split at hopens
  · next hpath =>
    cases hopens
    exact suits_ofKind hpath
  next hpath =>
  split at hopens
  · cases hopens
  next hfollow =>
  split at hopens
  · cases hopens
  next ops hops =>
  split at hopens
  · next hdir =>
    split at hopens <;> cases hopens
    next hwritable =>
    exact suits_ofKind (hwithout ⟨hdir, Bool.eq_false_iff.2 hwritable, Bool.eq_false_iff.2 hpath⟩)
  next hdir =>
  split at hopens
  · cases hopens
  split at hopens
  · cases hopens
  next hwritable =>
  cases hlets : ops.lets with
  | error e =>
    rw [hlets] at hopens
    cases hopens
  | ok u =>
    rw [hlets] at hopens
    cases hopens
    exact suits_ofKind (hwithout ⟨Bool.eq_false_iff.2 hdir, Bool.eq_false_iff.2 hfollow,
      Bool.eq_false_iff.2 hwritable, ops, hops, hlets⟩)

/-- A file that is made is opened as a stream, which is what it can be opened as. -/
theorem ListsFile.suits {d : NodeId} {name : String} (hl : w.ListsFile d name n)
    (flags : OpenFlags) : w.Suits (.stream n flags) :=
  suits_ofKind ⟨hl.isDirectory, by rw [hl.isSymlink, Bool.and_false],
    by rw [hl.writable, Bool.and_false], .ram, hl.ops, rfl⟩

section

variable {t : TaskId} {base : Option Handle} {path : String} {mode : UInt32} (h : w.WellFormed)

include h

theorem openFound_suits (hn : w.Known n) (hok : (openFound n flags w).result = .ok file) :
    (openFound n flags w).world.Suits file := by
  have hopens := (openFound_result h hn.live flags).symm.trans hok
  obtain ⟨hmoves, hknown⟩ := (openFound_turns (h.steady : w.Steady .all) hn flags).moves
  refine (suits_of_opensAs hopens).later h (h.edits_of_moves hmoves) ?_ (hknown file hok).live
  rw [node_of_opensAs hopens]
  exact hn.live

/-- An open that comes to a node that was there has found it. -/
theorem openName_finds {d : NodeId} {name : String} (hd : w.Known d)
    (hok : (openName t d name flags mode w).result = .ok file) (hold : w.Live file.node) :
    w.opensAs file.node flags = .ok file := by
  rw [openName_result h t hd] at hok
  cases hfound : (resolveIn t d name (openLookup flags) w).result with
  | ok n =>
    rw [hfound] at hok
    dsimp only at hok
    split at hok
    · cases hok
    · rw [node_of_opensAs hok]
      exact hok
  | error e =>
    rw [hfound] at hok
    dsimp only at hok
    split at hok
    · obtain ⟨rfl, -⟩ := of_makesFile hok
      exact absurd hold.lt (Nat.lt_irrefl _)
    · cases hok

/-- What a path is opened as is allowed, whether it was found or made. -/
theorem pathOpening_suits (hok : (pathOpening t base path flags mode w).result = .ok file) :
    (pathOpening t base path flags mode w).world.Suits file := by
  by_cases hold : w.Live file.node
  · obtain ⟨hmoves, hknown⟩ := (pathOpening_turns h t base path flags mode).moves
    have hopened := hok
    rw [pathOpening_result] at hopened
    obtain ⟨⟨d, name⟩, hfound, hopened⟩ := Numbering.bind_eq_ok.1 hopened
    have hd := (h.sound.resolveTarget_yields t base path _ hfound).1
    exact (suits_of_opensAs (openName_finds h hd hopened hold)).later h (h.edits_of_moves hmoves)
      hold (hknown file hok).live
  · obtain ⟨-, hfile, d, name, -, hlists⟩ := pathOpening_lists h hok hold
    rw [hfile]
    exact hlists.suits flags

end

/-! ## What is open -/

/-- Every open file is of a kind that its flags and its node allow. -/
def Fits (w : World) : Prop := ∀ f file, w.files.get? f = some file → w.Suits file

/-- As long as nothing is opened, what is open fits. -/
theorem SameForms.fits (hforms : w.SameForms w') (h : w.WellFormed) (e : w.Edits w')
    (hfits : w.Fits) : w'.Fits := by
  intro f file' hfile'
  obtain ⟨file, hfile, hform⟩ := hforms f file' hfile'
  have hn' := (Edits.wellFormed e h).held.file f file' hfile'
  rw [hform.node] at hn'
  exact ((hfits f file hfile).later h e (h.held.file f file hfile) hn').sameForm hform

theorem Suits.congr (hs : w.Suits file) (hnodes : w'.nodes = w.nodes)
    (hvolumes : w'.volumes = w.volumes) : w'.Suits file := by
  have hsame (kind : FileKind) :
      w'.SuitsAs file.node file.flags kind ↔ w.SuitsAs file.node file.flags kind := by
    cases kind <;> simp only [SuitsAs, isDirectory, isSymlink, node, volume, hnodes, hvolumes]
  exact ⟨hs.creates, hs.forKernel, (hsame _).2 hs.kind⟩

section

variable {c : ContextId} {opening : Act OpenFile}

/-- An open that fails leaves what is open in its form. -/
theorem openInto_sameForms (hspares : opening.Does Sparing True) {e : Error}
    (hfails : (openInto c opening w).result = .error e) :
    w.SameForms (openInto c opening w).world := by
  have hreserved : w.SameForms (w.reserving c) := .of_files (w.reserving_files c)
  have hgiven (handle : Handle) (w' : World) : w'.SameForms (giveBack c handle w').world :=
    (giveBack_does (R := Forming) c handle w').1
  rcases hallocate : (allocateHandle c).ended w with ⟨e' | handle, w₁⟩ <;>
    obtain rfl : w.reserving c = w₁ := (Prod.mk.inj hallocate).2
  · have hended := ended_withReserved_error (fun h => opening >>= commitFile c h) hallocate
    rw [openInto, (Prod.mk.inj hended).2]
    exact hreserved
  have hended := ended_withReserved (fun h => opening >>= commitFile c h) hallocate
  rw [Action.ended_bind] at hended
  have hopened : (w.reserving c).SameForms (opening (w.reserving c)).world :=
    .of_files (hspares (w.reserving c)).1.files
  have hundone : w.SameForms (giveBack c handle (opening (w.reserving c)).world).world :=
    (hreserved.trans hopened).trans (hgiven handle _)
  rcases hopening : opening.ended (w.reserving c) with ⟨e' | file, w₂⟩ <;>
    obtain rfl := (Prod.mk.inj hopening).2 <;> rw [hopening] at hended <;> dsimp only at hended
  · rw [openInto, (Prod.mk.inj hended).2]
    exact hundone
  · rcases ended_commitFile c handle file (opening (w.reserving c)).world with
      ⟨e', -, hcommit⟩ | ⟨-, files, hcommit⟩ <;> rw [hcommit] at hended
    · rw [openInto, (Prod.mk.inj hended).2]
      exact hundone
    · cases (Prod.mk.inj hended).1.symm.trans hfails

/-- What has been opened into a number fits, like what was open before. -/
theorem openInto_fits (hw : w.Orderly) (h : w.WellFormed) (hspares : opening.Does Sparing True)
    (hopens : ∀ file, (opening (w.reserving c)).result = .ok file →
      (opening (w.reserving c)).world.Suits file)
    (e : w.Edits (openInto c opening w).world) (hfits : w.Fits) :
    (openInto c opening w).world.Fits := by
  cases hresult : (openInto c opening w).result with
  | error _ => exact (openInto_sameForms hspares hresult).fits h e hfits
  | ok handle =>
    obtain ⟨opened, hbinds⟩ := openInto_binds hw hspares hresult
    intro f file hfile
    have hlive := (Edits.wellFormed e h).held.file f file hfile
    rw [hbinds.files, Arena.get?_push] at hfile
    split at hfile
    · cases hfile
      exact (hopens opened hbinds.opened).congr hbinds.retabled.nodes hbinds.retabled.volumes
    · exact (hfits f file hfile).later h e (h.held.file f file hfile) hlive

end

end World

open World (Forming)

theorem result_reopening (file : OpenFile) (w : World) : (reopening file w).result =
    (openFound file.node (file.flags.without OpenFlags.truncateBit) w).result.map
      (·.setPosition file.position) :=
  Action.result_bind_tail fun _ _ => rfl

theorem world_reopening (file : OpenFile) (w : World) : (reopening file w).world =
    (openFound file.node (file.flags.without OpenFlags.truncateBit) w).world := by
  simp only [reopening, bind]
  rcases openFound file.node (file.flags.without OpenFlags.truncateBit) w with ⟨_ | _, _, _⟩ <;> rfl

/-- What is opened once more suits its node at any position. -/
theorem reopening_suits {w : World} {file fresh : OpenFile} (h : w.WellFormed)
    (hn : w.Known file.node) (hok : (reopening file w).result = .ok fresh) :
    (reopening file w).world.Suits fresh := by
  obtain ⟨found, hfound, hfresh⟩ := Action.result_bind_eq_ok.1 hok
  cases hfresh
  rw [world_reopening]
  exact (World.openFound_suits h hn hfound).sameForm (found.sameForm_setPosition _)

/-- **What is open is of a kind that its flags and its node allow**, whatever is done. -/
theorem Operation.fits (op : Operation) {w : World} (h : w.WellFormed) (hw : w.Orderly)
    (hfits : w.Fits) : (op.run w).Fits := by
  have e := op.edits h
  have hother (hop : ¬op.Opens) : (op.run w).Fits := by
    have hforms : w.SameForms (op.run w) := by
      rw [op.run_eq_after]
      exact (does_of_not_opens (fun _ _ _ => World.Aside.forming) standard_discreet hop w).1
    exact hforms.fits h e hfits
  have hopened {c : ContextId} {opening : Act OpenFile} (hspares : opening.Does Sparing True)
      (hopens : ∀ file, (opening (w.reserving c)).result = .ok file →
        (opening (w.reserving c)).world.Suits file)
      (hrun : op.run w = (openInto c opening w).world) : (op.run w).Fits := by
    rw [hrun] at e ⊢
    exact World.openInto_fits hw h hspares hopens e hfits
  cases op with
  | openPath t base path flags mode =>
    exact hopened (pathOpening_spares standard_discreet t base path flags mode)
      (fun _ hok => World.pathOpening_suits (h.reserving _) hok)
      (Prod.mk.inj (ended_openPath t base path flags mode)).2
  | openPinned t name flags =>
    cases hheld : w.held? name with
    | none =>
      have hrun : (openPinned t name flags).run w = w :=
        (Prod.mk.inj (ended_openPinned_error t flags hheld)).2
      rw [hrun]
      exact hfits
    | some n =>
      refine hopened (openFound_spares standard_discreet n flags) (fun _ hok => ?_)
        (Prod.mk.inj (ended_openPinned t flags hheld)).2
      have hreserved := w.retabled_reserving (w.contextOf t flags.forKernel)
      exact World.openFound_suits (h.reserving _)
        ((h.sound.known_held hheld).congr hreserved.nodes hreserved.volumes) hok
  | reopen t handle =>
    cases hfile : (openFileOf t handle w).result with
    | error error =>
      have hrun : (reopen t handle).run w = w := (Prod.mk.inj (ended_reopen_error hfile)).2
      rw [hrun]
      exact hfits
    | ok file =>
      refine hopened (Action.does_bind (openFound_spares standard_discreet file.node _)
        fun _ => Action.does_pure _) (fun _ hok => ?_) (Prod.mk.inj (ended_reopen hfile)).2
      have hreserved := w.retabled_reserving (w.contextOf t handle.isKernel)
      exact reopening_suits (h.reserving _)
        ((h.sound.openFileOf_yields t handle file hfile).congr hreserved.nodes
          hreserved.volumes) hok
  | _ => exact hother not_false

namespace World

/-- In a fresh instance nothing is open. -/
theorem fits_fresh (limits : Limits) : (fresh limits).Fits := by
  have hforms : (rootOnly limits).SameForms (fresh limits) :=
    (furnish_does (standard_discreet.names fun _ _ _ => Aside.forming) _).1
  intro f file hfile
  obtain ⟨_, hnone, -⟩ := hforms f file hfile
  cases hnone

theorem Reachable.fits {w : World} (hw : w.Reachable) : w.Fits := by
  obtain ⟨limits, hsteps⟩ := hw
  induction hsteps with
  | refl => exact fits_fresh limits
  | tail hsteps hstep ih =>
    obtain ⟨op, rfl⟩ := hstep
    have hw : Reachable _ := ⟨limits, hsteps⟩
    exact op.fits hw.wellFormed hw.kept.orderly ih

end World

end VirtualFs
