/-
What operations do to what is open. Opening, closing and duplicating keep the
ledger in order and leave nothing loose; every other operation changes at most
the flags and the position of an open file (`World.Tends`). A directory that is
listed to rebuild a path is opened and closed again.
-/
import VirtualFs.Proofs.Idling
import VirtualFs.Proofs.Openings

namespace VirtualFs

open Query (demand ofResult look)
open World (Aside)
open VirtualFs.Action (keeps_pure keeps_bind keeps_query_bind keeps_look_bind keeps_ask_bind)

theorem OpenFile.setCursor_isPath (file : OpenFile) (cursor : Nat) :
    (file.setCursor cursor).isPath = file.isPath := by
  rw [OpenFile.setCursor]
  split
  · next hkind => simp [isPath, hkind]
  · rfl

namespace World

variable {w w' : World}

/-- Keeps the ledger in order, and the tables too, if they are in order before. -/
def Tends (w : World) (t : List Event) (w' : World) : Prop :=
  w.Kept [] → w.Ledger t w' ∧ w'.Kept []

instance : Stretch Tends where
  quiet h hw := ⟨Stretch.quiet h, hw⟩
  trans h h' hw := ⟨(h hw).1.trans (h' (h hw).2).1, (h' (h hw).2).2⟩

theorem Aside.tends {t : List Event} (h : w.Aside t w') : w.Tends t w' :=
  fun hw => ⟨(SameFiles.of_files h.1.files).ledger h.2.balanced, hw.spares h.1⟩

theorem SameFiles.has_eq (h : w.SameFiles w') (f : FileId) : w'.files.has f = w.files.has f := by
  have hsame := congrArg Option.isSome (h.file f)
  rwa [Option.isSome_map, Option.isSome_map] at hsame

/-- Tables that hold what they held stay in order while no file goes. -/
theorem SameFiles.orderly (h : w.SameFiles w')
    (hneat : ∀ (c : ContextId) (context : Context), w'.contexts[c]? = some context →
      w.Orderly → context.files.Neat context.files.limit)
    (hslots : w'.numbering.slot = w.numbering.slot) (hw : w.Orderly) : w'.Orderly := by
  refine ⟨fun c context hget => hneat c context hget hw, fun c i f hslot => ?_⟩
  rw [hslots] at hslot
  rw [h.has_eq]
  exact hw.bound c i f hslot

/-- Tables that hold what they held keep it in order while files stay on their nodes. -/
theorem SameFiles.tends (h : w.SameFiles w')
    (hneat : ∀ (c : ContextId) (context : Context), w'.contexts[c]? = some context →
      w.Orderly → context.files.Neat context.files.limit)
    (hslots : w'.numbering.slot = w.numbering.slot)
    (hops : ∀ n, (w'.node n).ops = (w.node n).ops) : w.Tends [] w' := by
  refine fun hw => ⟨h.ledger quiet_nil.balanced, ⟨h.orderly hneat hslots hw.orderly,
    fun f hf => ?_, fun f file' hfile' hpath' => ?_⟩⟩
  · rw [h.has_eq] at hf
    obtain ⟨c, i, hslot⟩ := (hw.held f hf).resolve_right List.not_mem_nil
    exact .inl ⟨c, i, by rw [hslots]; exact hslot⟩
  · have hsame := h.file f
    rw [hfile'] at hsame
    obtain ⟨file, hfile, heq⟩ := Option.map_eq_some_iff.1 hsame.symm
    rw [Prod.mk.injEq] at heq
    rw [hops, ← heq.1]
    exact hw.ops f file hfile (heq.2.trans hpath')

theorem sameFiles_setFile (w : World) (f : FileId) {g : OpenFile → OpenFile}
    (hg : ∀ file, (g file).node = file.node ∧ (g file).isPath = file.isPath) :
    w.SameFiles (w.setFile f g) := by
  refine ⟨Arena.nextKey_modify _ _ _, fun f' => ?_⟩
  rw [setFile, Arena.get?_modify]
  split
  · cases w.files.get? f' with
    | none => rfl
    | some file => simp [hg file]
  · rfl

/-- Flags and positions of an open file are nobody's business. -/
theorem tends_setFile (f : FileId) {g : OpenFile → OpenFile}
    (hg : ∀ file, (g file).node = file.node ∧ (g file).isPath = file.isPath) :
    w.Tends [] (w.setFile f g) :=
  (sameFiles_setFile w f hg).tends (fun c context hget hw => hw.neat c context hget) rfl
    fun _ => rfl

theorem Beside.neat_context {c : ContextId} {context : Context} (h : w.Beside w')
    (hget : w'.contexts[c]? = some context) (hw : w.Orderly) :
    context.files.Neat context.files.limit := by
  rcases h.neat c context hget with hneat | ⟨old, hold, hsame⟩
  · exact hneat
  · rw [hsame]
    exact hw.neat c old hold

theorem Beside.tends (h : w.Beside w') : w.Tends [] w' := by
  refine (SameFiles.of_files h.files).tends (fun c context hget => h.neat_context hget) h.slots
    fun n => ?_
  have hnode := congrArg Node.ops (h.node_eq n)
  exact hnode

instance : Moving Tends where
  beside h := h.tends
  settled w := Aside.tends ⟨w.spares_settle, quiet_nil⟩
  moved _ f _ := tends_setFile f fun file => ⟨file.setPosition_node _, file.setPosition_isPath _⟩
  flagged _ f _ := tends_setFile f fun _ => ⟨rfl, rfl⟩

instance : Turning Tends where
  turned _ f _ := tends_setFile f fun file => ⟨file.setCursor_node _, file.setCursor_isPath _⟩

end World

/-! ## What drivers and operations are to do with what is open -/

section

variable {R : World → List Event → World → Prop} (haside : ∀ w t w', World.Aside w t w' → R w t w')

include haside

/-- What opens and closes nothing is followed by whatever minds only that. -/
theorem Action.Does.of_aside {α : Type} {full : Prop} {x : Act α} (h : x.Does Aside full) :
    x.Does R True :=
  h.mono haside fun _ => trivial

variable [Backends] {full : Prop} (hlaws : Backends.Discreet full)

include hlaws

theorem Backends.Discreet.names : Backends.Names R where
  mount kind id device flags args :=
    ((hlaws.driver kind).mount id device flags args).of_aside haside
  createDirectory kind v parent name mode :=
    ((hlaws.driver kind).createDirectory v parent name mode).of_aside haside
  createSymlink kind v parent name target :=
    ((hlaws.driver kind).createSymlink v parent name target).of_aside haside
  rename kind v oldParent oldName newParent newName mustBeDirectory :=
    ((hlaws.driver kind).rename v oldParent oldName newParent newName mustBeDirectory).of_aside
      haside
  unlink kind v parent name := ((hlaws.driver kind).unlink v parent name).of_aside haside
  removeDirectory kind v parent name :=
    ((hlaws.driver kind).removeDirectory v parent name).of_aside haside
  publish v path ops :=
    (RamFs.publishDevice_does (R := Aside) (F := True) v path ops).of_aside haside
  move v ino path := (RamFs.moveDevice_does (R := Aside) (F := True) v ino path).of_aside haside
  withdraw v ino := (RamFs.withdrawDevice_does (R := Aside) (F := True) v ino).of_aside haside

theorem Backends.Discreet.writes : Backends.Writes R where
  write kind file position data := ((hlaws.ops kind).write file position data).of_aside haside
  writeStatus kind v n status mask :=
    ((hlaws.ops kind).writeStatus v n status mask).of_aside haside

end

/-! ## Queries that open for themselves -/

/-- Opens nothing that it does not close. -/
def Query.Balanced {α : Type} (q : Query α) (w : World) : Prop := VirtualFs.Balanced (q w).trace

namespace Query

variable {α β : Type} {w : World}

theorem Discreet.balanced {full : Prop} {q : Query α} (h : q.Discreet full) : q.Balanced w :=
  (h w).1.balanced

theorem Balanced.bind {q : Query α} {f : α → Query β} (hq : q.Balanced w)
    (hf : ∀ a, (q w).result = .ok a → (f a).Balanced w) : (q >>= f).Balanced w := by
  cases hresult : (q w).result with
  | error e =>
    rw [Query.Balanced, trace_bind_error hresult]
    exact hq
  | ok a =>
    rw [Query.Balanced, trace_bind_ok hresult]
    exact VirtualFs.Balanced.append hq (hf a hresult)

theorem Balanced.keeps {q : Query α} (h : q.Balanced w) (hw : w.Kept []) :
    (liftM q : Act α).Keeps w fun _ => [] :=
  ⟨(World.SameFiles.of_files rfl).ledger h, fun _ _ => hw, fun _ _ => hw⟩

end Query

variable [Backends] {full : Prop} (hlaws : Backends.Discreet full) {w : World}

section

include hlaws

/-! ## Listing a directory -/

/-- What a listing is opened for is an open directory, with operations that can close it. -/
theorem openListing_opens (dir : NodeId) : (liftM (openListing dir) : Act OpenFile).Opens w := by
  have hsame : (liftM (openListing dir) : Act OpenFile) = (do
      let ops ← opsOf dir
      let volume ← volumeOf dir
      demand (← look (·.isDirectory dir)) .notADirectory
      (liftM (ops.openDirectory volume dir ⟨OpenFlags.directoryBit⟩) : Act OpenFile)) := by
    simp only [openListing, Action.liftM_bind]
  rw [hsame]
  refine opens_query_bind (opsOf_discreet dir) fun o ho => opens_query_bind (volumeOf_discreet dir)
    fun v _ => opens_query_bind (.look _) fun _ _ =>
      opens_query_bind (.demand _ (by simp)) fun _ _ => ?_
  exact o.openDirectory_opens hlaws v _ (World.opsOf_eq_ok.1 ho)

theorem findEntry_discreet (ops : OpsKind) (volume : VolumeKey) (dir : NodeId)
    {passes : DirEntry → Query Bool} (hpasses : ∀ entry, (passes entry).Discreet full)
    (count index : Nat) : (findEntry ops volume dir passes count index).Discreet full := by
  induction count generalizing index with
  | zero => exact .pure _
  | succ count ih =>
    refine .bind ((hlaws.ops ops).entry volume dir index) fun found => ?_
    cases found with
    | none => exact .pure _
    | some entry =>
      exact .ite (ih _) (.bind (hpasses entry) fun _ => .ite (.pure _) (ih _))

theorem leadsTo_discreet (t : TaskId) (parent child : NodeId) (entry : DirEntry) :
    (leadsTo t parent child entry).Discreet full :=
  .bind .world fun _ => .ite (.pure _)
    (.bind (resolveIn_discreet hlaws t parent entry.name .plain) fun _ => .look _)

theorem searchEntry_discreet (t : TaskId) (ops : OpsKind) (volume : VolumeKey)
    (parent child : NodeId) : (searchEntry t ops volume parent child).Discreet full := by
  refine .bind (.look _) fun bound => .bind (findEntry_discreet hlaws ops volume parent
    (leadsTo_discreet hlaws t parent child) bound 0) fun found => ?_
  cases found with
  | some name => exact .pure _
  | none => exact .bind .world fun _ => .bind (.note rfl) fun _ => .throw nofun

/-- The listing is closed whether the search succeeds or fails. -/
theorem entryName_balanced (t : TaskId) (parent child : NodeId) :
    (entryName t parent child).Balanced w := by
  refine (opsOf_discreet (F := full) parent).balanced.bind fun ops _ =>
    (volumeOf_discreet (F := full) parent).balanced.bind fun volume _ => ?_
  obtain ⟨-, hfailed, hopened, hops⟩ := openListing_opens hlaws (w := w) parent
  rw [Action.liftM_apply] at hfailed hopened hops
  cases hresult : (openListing parent w).result with
  | error e =>
    rw [Query.Balanced, Query.trace_bind_error hresult]
    exact (hfailed e hresult).balanced
  | ok listing =>
    have hsearch := (searchEntry_discreet hlaws t ops volume parent child w).1
    obtain ⟨hopenings, hclosings, hclosingsOf⟩ :=
      closeFile_counts hlaws none listing (hops listing hresult)
    have hrest :
        ((searchEntry t ops volume parent child).andFinally (closeFile none listing) w).trace =
        (searchEntry t ops volume parent child w).trace ++ ((closeFile none listing w).trace ++
          (ofResult (searchEntry t ops volume parent child w).result w).trace) := by
      rw [Query.andFinally, Query.trace_bind_ok (Query.result_attempt _ _),
        Query.trace_bind_ok (closeFile_result none listing)]
      rfl
    have hend : Quiet (ofResult (searchEntry t ops volume parent child w).result w).trace :=
      (Query.Discreet.ofResult (F := True) (fun _ => trivial) w).1
    have hbooks : SameBooks listing.debt (openListing parent w).trace := hopened listing hresult
    rw [Query.Balanced, Query.trace_bind_ok hresult, hrest]
    refine ⟨fun p => ?_, fun f => ?_⟩
    · have hopen := hbooks.openings p
      have hclose := hbooks.closings p
      rw [listing.openings_debt] at hopen
      rw [listing.closings_debt] at hclose
      simp only [openings_append, closings_append, hsearch.openings, hsearch.closings, hopenings,
        hclosings, hend.openings, hend.closings]
      omega
    · have hclose := hbooks.closingsOf f
      rw [listing.closingsOf_debt] at hclose
      simp only [closingsOf_append, hsearch.closingsOf, hclosingsOf, hend.closingsOf]
      simp
      omega

theorem climb_balanced (t : TaskId) (room : Nat) (dir : NodeId) (below : String) :
    (climb t room dir below).Balanced w := by
  induction room using Nat.strong_induction_on generalizing dir below with
  | _ room ih =>
    rw [climb]
    refine (resolveIn_discreet hlaws t dir ".." .crossOnly).balanced.bind fun parent _ =>
      (entryName_balanced hlaws t parent dir).bind fun name _ => ?_
    split
    · refine (Query.Discreet.look (F := full) _).balanced.bind fun atRoot _ => ?_
      split
      · exact (Query.Discreet.pure (F := full) _).balanced
      · exact ih _ (by omega) parent _
    · exact (Query.Discreet.throw (F := True) fun _ => trivial).balanced

theorem absolutePath_balanced (t : TaskId) (dir : NodeId) (capacity : Nat) :
    (absolutePath t dir capacity).Balanced w := by
  refine (Query.Discreet.world (F := full)).balanced.bind fun w' _ => ?_
  dsimp only
  split
  · exact (Query.Discreet.demand (F := full) _ (by simp)).balanced.bind fun _ _ =>
      (Query.Discreet.pure (F := full) _).balanced
  · exact climb_balanced hlaws t _ dir ""

/-! ## Opening and closing -/

/-- Whatever number an open has reserved, a file that is created where its path leads to has
operations. -/
def World.Creates (w : World) : Prop :=
  ∀ c t base path found, (resolveTarget t base path (w.reserving c)).result = .ok found →
    (w.reserving c).CreatesIn found.1

theorem openPath_keeps (hw : w.Kept []) (hcreates : w.Creates) (t : TaskId) (base : Option Handle)
    (path : String) (flags : OpenFlags) (mode : UInt32) :
    (openPath t base path flags mode).Keeps w fun _ => [] := by
  refine keeps_ask_bind (withReserved_keeps hlaws hw _ fun handle w' hworld hw' => ?_)
  subst hworld
  refine keeps_query_bind (startNode_discreet (F := full) t base _).1 hw' fun start hstart =>
    keeps_query_bind (resolveParent_discreet hlaws t start path _).1 hw' fun found hfound => ?_
  have hfound : (resolveTarget t base path (w.reserving (w.contextOf t flags.forKernel))).result =
      .ok found :=
    Query.result_bind_eq_ok.2 ⟨start, hstart, hfound⟩
  refine (openName_opens hlaws t (hcreates _ t base path found hfound) found.2 flags mode).keeps hw'
    fun file w'' hw'' hops => (commitFile_settles hlaws hw'' hops _ handle).bind fun _ _ hw3 => ?_
  exact ⟨Stretch.quiet (quiet_singleton rfl), fun _ _ => hw3, fun _ _ => hw3⟩

theorem openHeld_keeps (hw : w.Kept []) (t : TaskId) (n : NodeId) (flags : OpenFlags) :
    (openHeld t n flags).Keeps w fun _ => [] :=
  keeps_ask_bind (withReserved_keeps hlaws hw _ fun handle _ _ hw' =>
    (openFound_opens hlaws n flags).keeps hw' fun _ _ hw'' hops =>
      commitFile_settles hlaws hw'' hops _ handle)

theorem close_keeps (hw : w.Kept []) (t : TaskId) (handle : Handle) :
    (close t handle).Keeps w fun _ => [] :=
  keeps_ask_bind (keeps_query_bind (lookupHandle_discreet (F := full) _ handle w).1 hw
    fun _ _ => giveBack_keeps hlaws hw _ handle)

theorem duplicate_keeps (hw : w.Kept []) (t : TaskId) (handle : Handle) :
    (duplicate t handle).Keeps w fun _ => [] := by
  refine keeps_query_bind (fileOf_discreet (F := full) t handle w).1 hw fun f hf =>
    keeps_ask_bind (withReserved_keeps hlaws hw _ fun copy w' hworld hw' => ?_)
  rw [result_fileOf] at hf
  have hopen : w'.files.has f = true := by
    rw [← hworld]
    show (w.reserving _).files.has f = true
    rw [w.reserving_files]
    exact hw.orderly.has_of_found hf
  have hbound := (hw'.held f hopen).resolve_right List.not_mem_nil
  exact keeps_bind (bindHandle_keeps _ copy hopen (hw'.mono fun _ hg => nomatch hg) (.inl hbound))
    fun _ _ _ _ hw'' => keeps_pure hw''

theorem duplicateTo_keeps (hw : w.Kept []) (t : TaskId) (handle target : Handle) :
    (duplicateTo t handle target).Keeps w fun _ => [] := by
  refine keeps_query_bind (fileOf_discreet (F := full) t handle w).1 hw fun f hf => ?_
  rw [result_fileOf] at hf
  split
  · exact keeps_pure hw
  · exact keeps_ask_bind (keeps_bind (installHandle_keeps _ target hw (hw.orderly.has_of_found hf))
      fun displaced _ _ _ hw' => keeps_bind (dropDisplaced_keeps hlaws hw')
        fun _ _ _ _ hw'' => keeps_pure hw'')

/-- A file keeps what is owed for it when it is moved. -/
theorem reopen_keeps (hw : w.Kept []) (t : TaskId) (handle : Handle) :
    (reopen t handle).Keeps w fun _ => [] := by
  refine keeps_query_bind (openFileOf_discreet (F := full) t handle w).1 hw fun file _ =>
    keeps_ask_bind (withReserved_keeps hlaws hw _ fun copy _ _ hw' =>
      (openFound_opens hlaws file.node _).keeps hw' fun fresh w'' hw'' hops => ?_)
  have hsettles : (commitFile (w.contextOf t handle.isKernel) copy
      (fresh.setPosition file.position)).Settles (fresh.setPosition file.position) w'' :=
    commitFile_settles hlaws hw'' (fun hpath => ?_) _ copy
  · refine ⟨?_, hsettles.kept⟩
    have hledger := hsettles.ledger
    rw [fresh.setPosition_debt] at hledger
    exact hledger
  · rw [fresh.setPosition_node]
    exact hops ((fresh.setPosition_isPath _).symm.trans hpath)

/-- The directory of a context that ends is let go after its files. -/
theorem retireContext_keeps (hw : w.Kept []) (c : ContextId) :
    (retireContext c).Keeps w fun _ => [] := by
  refine keeps_bind (emptyTable_keeps hlaws hw c) fun _ w' _ _ hw' => keeps_look_bind ?_
  obtain ⟨hledger, hkept⟩ := (setWorkingDirectory_does (R := World.Tends) c w'.rootNode w').1 hw'
  exact ⟨hledger, fun _ _ => hkept, fun _ _ => hkept⟩

end

end VirtualFs
