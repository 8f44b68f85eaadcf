/-
Opening puts a file on the books. Whoever opens a node has the file in hand
until it is bound to a number or closed again: `Action.Opens` says that nothing
else happens on the way, and `Action.Settles` that what is done with the file
squares the books. Operations on handles are put together from these.
-/
import VirtualFs.Proofs.Upkeep

namespace VirtualFs

open VirtualFs.Action (keeps_pure keeps_throw keeps_bind)

/-- What is on the books for a file in hand. -/
def OpenFile.debt (file : OpenFile) : List Event :=
  if file.isPath then [] else [.opened file.node]

theorem OpenFile.openings_debt (file : OpenFile) (p : NodeId → Bool) :
    openings p file.debt = (!file.isPath && p file.node).toNat := by
  rw [debt]
  cases file.isPath with
  | true => rfl
  | false =>
    rw [if_neg Bool.false_ne_true, openings, List.countP_singleton]
    show (if p file.node = true then 1 else 0) = (p file.node).toNat
    cases p file.node <;> rfl

theorem OpenFile.closings_debt (file : OpenFile) (p : NodeId → Bool) :
    closings p file.debt = 0 := by
  rw [debt]
  cases file.isPath <;> rfl

theorem OpenFile.closingsOf_debt (file : OpenFile) (f : FileId) : closingsOf f file.debt = 0 := by
  rw [debt]
  cases file.isPath <;> rfl

theorem OpenFile.setPosition_isPath (file : OpenFile) (position : Nat) :
    (file.setPosition position).isPath = file.isPath := by
  rw [OpenFile.setPosition]
  split
  · next hkind => simp [isPath, hkind]
  · rfl

theorem OpenFile.setPosition_debt (file : OpenFile) (position : Nat) :
    (file.setPosition position).debt = file.debt := by
  rw [debt, debt, file.setPosition_isPath, file.setPosition_node]

variable {w w' : World}

theorem World.Kept.spares {loose : List FileId} (h : w.Kept loose) (hspares : w.Spares w') :
    w'.Kept loose := by
  obtain ⟨hcontexts, htasks, hfiles, hops⟩ := hspares
  refine ⟨h.orderly.congr hcontexts htasks hfiles, fun f hf => ?_, fun f file hfile hpath => ?_⟩
  · rw [World.numbering_congr hcontexts htasks (by rw [hfiles])]
    rw [hfiles] at hf
    exact h.held f hf
  · rw [hfiles] at hfile
    obtain ⟨ops, hsome⟩ := Option.isSome_iff_exists.1 (h.ops f file hfile hpath)
    rw [hops f file ops hfile hsome]
    rfl

/-- Spares the tables; a file that comes out of it has been put on the books, and nothing else
has. -/
structure Action.Opens (x : Act OpenFile) (w : World) : Prop where
  spares : w.Spares (x w).world
  failed : ∀ e, (x w).result = .error e → Quiet (x w).trace
  opened : ∀ file, (x w).result = .ok file → SameBooks file.debt (x w).trace
  ops : ∀ file, (x w).result = .ok file → file.isPath = false →
    ((x w).world.node file.node).ops.isSome = true

/-- Squares the books over a file in hand, and leaves nothing loose. -/
structure Action.Settles {α : Type} (x : Act α) (file : OpenFile) (w : World) : Prop where
  ledger : w.Ledger (file.debt ++ (x w).trace) (x w).world
  kept : (x w).world.Kept []

namespace Action

variable {α β : Type}

theorem Settles.bind {x : Act α} {f : α → Act β} {file : OpenFile} (hx : x.Settles file w)
    (hf : ∀ a w', w'.Kept [] → (f a).Keeps w' fun _ => []) : (x >>= f).Settles file w := by
  obtain ⟨hledger, hkept⟩ := hx
  rcases hrun : x w with ⟨e | a, w', t⟩ <;> rw [hrun] at hledger hkept
  · have hdone := bind_error (f := f) hrun
    exact ⟨by rw [hdone]; exact hledger, by rw [hdone]; exact hkept⟩
  · have hdone := bind_ok (f := f) hrun
    obtain ⟨hrest, hok, herror⟩ := hf a w' hkept
    refine ⟨?_, ?_⟩
    · rw [hdone]
      show w.Ledger (file.debt ++ (t ++ (f a w').trace)) _
      rw [← List.append_assoc]
      exact hledger.trans hrest
    · rw [hdone]
      cases hresult : (f a w').result with
      | ok b => exact hok b hresult
      | error e => exact herror e hresult

/-- A sequence of queries is run as a sequence of actions. -/
theorem liftM_bind (q : Query α) (f : α → Query β) :
    (liftM (q >>= f) : Act β) = (liftM q : Act α) >>= fun a => liftM (f a) := by
  funext w
  rcases hq : q w with ⟨e | a, t⟩
  · rw [liftM_apply, Query.bind_error hq, bind_error (by rw [liftM_apply, hq])]
  · rw [liftM_apply, Query.bind_ok hq, bind_ok (by rw [liftM_apply, hq])]
    rfl

/-- A query that succeeds may come before. -/
theorem settles_query_bind {q : Query α} {f : α → Act β} {file : OpenFile} {a : α}
    (hq : Quiet (q w).trace) (ha : (q w).result = .ok a) (hf : (f a).Settles file w) :
    ((liftM q : Act α) >>= f).Settles file w := by
  have hdone := liftM_bind_ok (f := f) ha
  refine ⟨?_, by rw [hdone]; exact hf.kept⟩
  rw [hdone]
  exact hf.ledger.congr ((SameBooks.refl _).append (hq.sameBooks.append (.refl _)))

/-- What is opened and then settled is in order. -/
theorem Opens.keeps {x : Act OpenFile} {finish : OpenFile → Act α} (hx : x.Opens w)
    (hw : w.Kept [])
    (hfinish : ∀ file w', w'.Kept [] →
      (file.isPath = false → (w'.node file.node).ops.isSome = true) →
        (finish file).Settles file w') : (x >>= finish).Keeps w fun _ => [] := by
  obtain ⟨hspares, hfailed, hopened, hops⟩ := hx
  have hkept := hw.spares hspares
  rcases hrun : x w with ⟨e | file, w', t⟩ <;> rw [hrun] at hspares hfailed hopened hops hkept
  · exact .of_run (bind_error hrun)
      (World.SameFiles.ledger (.of_files hspares.files) (hfailed e rfl).balanced)
      nofun fun _ _ => hkept
  · obtain ⟨hledger, hleft⟩ := hfinish file w' hkept (hops file rfl)
    have hfirst : w.Ledger [] w' :=
      World.SameFiles.ledger (.of_files hspares.files) quiet_nil.balanced
    have hboth := (hfirst.trans hledger).congr ((hopened file rfl).append (.refl _))
    exact .of_run (bind_ok hrun) hboth (fun _ _ => hleft) fun _ _ => hleft

end Action

/-! ## Files in hand -/

theorem ledger_pushed (w : World) (file : OpenFile) :
    w.Ledger file.debt { w with files := w.files.push file } := by
  have howes : ∀ f < w.files.nextKey,
      ({ w with files := w.files.push file } : World).owes f = w.owes f := by
    intro f hf
    rw [World.owes, World.owes, w.get?_pushed file hf]
  refine ⟨?_, fun f hf file' hfile' => ?_, fun f hf => ?_, fun f hlt hge => ?_,
    fun f _ => file.closingsOf_debt f, fun p => ?_⟩
  · rw [Arena.nextKey_push]
    exact Nat.le_succ _
  · rw [w.get?_pushed file hf] at hfile'
    exact ⟨file', hfile', rfl, rfl⟩
  · rw [file.closingsOf_debt, howes f hf, Nat.zero_add]
  · rw [Arena.nextKey_push] at hlt
    obtain rfl : f = w.files.nextKey := by omega
    have hget : (w.files.push file).get? w.files.nextKey = some file := by
      rw [Arena.get?_push, if_pos rfl]
    refine ⟨file, ?_, fun file' hfile' => ?_⟩
    · rw [file.closingsOf_debt, Nat.zero_add, World.owes, hget]
      rfl
    · rw [hget] at hfile'
      cases hfile'
      exact ⟨rfl, rfl⟩
  · have hpushed : ({ w with files := w.files.push file } : World).files = w.files.push file := rfl
    have howed := World.owed_push hpushed p
    rw [file.openings_debt, file.closings_debt, howed]
    omega

/-- A file in hand may be entered under the next key, to be bound at once. -/
theorem addFile_bind_settles {α : Type} {file : OpenFile} {g : FileId → Act α}
    (hw : w.Kept [])
    (hops : file.isPath = false → (w.node file.node).ops.isSome = true)
    (hg : ∀ w', w'.numbering = w.numbering.made → w'.files.has w.files.nextKey = true →
      w'.Kept [w.files.nextKey] → (g w.files.nextKey).Keeps w' fun _ => []) :
    (addFile file >>= g).Settles file w := by
  have hpushed : ({ w with files := w.files.push file } : World).Kept [w.files.nextKey] := by
    refine ⟨hw.orderly.push file, fun f hf => ?_, fun f file' hfile' hpath' => ?_⟩
    · rw [w.numbering_push]
      rw [Arena.has, Arena.get?_push] at hf
      split at hf
      · next hself => exact .inr (List.mem_singleton.2 hself)
      · exact .inl ((hw.held f hf).resolve_right List.not_mem_nil)
    · rw [Arena.get?_push] at hfile'
      split at hfile'
      · cases hfile'
        exact hops hpath'
      · exact hw.ops f file' hfile' hpath'
  obtain ⟨hledger, hok, herror⟩ := hg _ (w.numbering_push file) (w.has_pushed file) hpushed
  have hrun : (addFile file >>= g) w = g w.files.nextKey { w with files := w.files.push file } :=
    rfl
  refine ⟨?_, ?_⟩
  · rw [hrun]
    exact (ledger_pushed w file).trans hledger
  · rw [hrun]
    cases hresult : (g w.files.nextKey { w with files := w.files.push file }).result with
    | ok a => exact hok a hresult
    | error e => exact herror e hresult

theorem opens_query_bind {α : Type} {q : Query α} {f : α → Act OpenFile}
    (hq : q.Discreet True) (hf : ∀ a, (q w).result = .ok a → (f a).Opens w) :
    ((liftM q : Act α) >>= f).Opens w := by
  have hquiet := (hq w).1
  cases hresult : (q w).result with
  | error e =>
    have hdone := Action.liftM_bind_error (f := f) hresult
    exact ⟨by rw [hdone]; exact .refl w, fun _ _ => by rw [hdone]; exact hquiet,
      by rw [hdone]; exact nofun, by rw [hdone]; exact nofun⟩
  | ok a =>
    have hdone := Action.liftM_bind_ok (f := f) hresult
    obtain ⟨hspares, hfailed, hopened, hops⟩ := hf a hresult
    exact ⟨by rw [hdone]; exact hspares,
      by rw [hdone]; exact fun e he => hquiet.append (hfailed e he),
      by rw [hdone]; exact fun file hfile => hquiet.sameBooks.append (hopened file hfile),
      by rw [hdone]; exact hops⟩

theorem opens_world_bind {f : World → Act OpenFile} (hf : (f w).Opens w) :
    ((Action.world : Act World) >>= f).Opens w := by
  have hdone := Action.bind_ok (f := f) (Action.world_apply w)
  exact ⟨by rw [hdone]; exact hf.spares, by rw [hdone]; exact hf.failed,
    by rw [hdone]; exact hf.opened, by rw [hdone]; exact hf.ops⟩

section

variable [Backends] {full : Prop} (hlaws : Backends.Discreet full) {file : OpenFile}

include hlaws

/-- A file in hand may be closed. -/
theorem closeFile_settles (hw : w.Kept [])
    (hops : file.isPath = false → (w.node file.node).ops.isSome = true) :
    (liftM (closeFile none file) : Act Unit).Settles file w := by
  obtain ⟨hopenings, hclosings, hclosingsOf⟩ := closeFile_counts hlaws none file hops
  refine ⟨World.SameFiles.ledger (.of_files rfl) ⟨fun p => ?_, fun f => ?_⟩, hw⟩
  · rw [openings_append, closings_append, file.openings_debt, file.closings_debt]
    show _ + openings p (closeFile none file w).trace = _ + closings p (closeFile none file w).trace
    rw [hopenings, hclosings]
    omega
  · rw [closingsOf_append, file.closingsOf_debt]
    show 0 + closingsOf f (closeFile none file w).trace = 0
    rw [hclosingsOf]
    simp

/-- A file in hand may be bound to a number that is reserved for it; it is closed if it cannot
be. -/
theorem commitFile_settles (hw : w.Kept [])
    (hops : file.isPath = false → (w.node file.node).ops.isSome = true) (c : ContextId)
    (handle : Handle) : (commitFile c handle file).Settles file w := by
  have hattempt : (Query.attempt (bindable c handle) w).result =
      .ok (w.numbering.fillable c handle) := by
    rw [Query.result_attempt, result_bindable]
  have hquiet : Quiet (Query.attempt (bindable c handle) w).trace :=
    (bindable_discreet (F := full) c handle w).1
  refine Action.settles_query_bind hquiet hattempt ?_
  cases hfillable : w.numbering.fillable c handle with
  | error e => exact (closeFile_settles hlaws hw hops).bind fun _ _ hw' => keeps_throw hw' e
  | ok =>
    refine addFile_bind_settles hw hops fun w' hnumbering hadded hw' => ?_
    have hfillable' : w'.numbering.fillable c handle = .ok () := by
      rw [hnumbering]
      exact hfillable
    exact keeps_bind (bindHandle_keeps c handle hadded hw' (.inr hfillable'))
      fun _ _ _ _ hw'' => keeps_pure hw''

/-! ## Opening -/

omit [Backends] hlaws in
/-- What drivers and operations open is noted, unless they fail. -/
theorem opens_noted {x : Act OpenFile} (hx : x.Does World.Aside full) {event : Event}
    (hevent : event.isTurnover = false)
    (hopened : ∀ file, (x w).result = .ok file → file.isPath = false ∧
      ((x w).world.node file.node).ops.isSome = true) :
    (do
      Action.note event
      let file ← x
      Action.note (.opened file.node)
      pure file : Act OpenFile).Opens w := by
  obtain ⟨⟨hspares, hquiet⟩, -⟩ := hx w
  have hfirst := (quiet_singleton hevent).append hquiet
  rcases hrun : x w with ⟨e | file, w', t⟩ <;> rw [hrun] at hspares hquiet hopened hfirst
  · have hdone : (do
        Action.note event
        let file ← x
        Action.note (.opened file.node)
        pure file : Act OpenFile) w = ⟨.error e, w', [event] ++ t⟩ := by
      rw [Action.bind_ok (Action.note_apply event w), Action.bind_error hrun]
    exact ⟨by rw [hdone]; exact hspares, fun _ _ => by rw [hdone]; exact hfirst,
      by rw [hdone]; exact nofun, by rw [hdone]; exact nofun⟩
  · obtain ⟨hpath, hops⟩ := hopened file rfl
    have hdone : (do
        Action.note event
        let file ← x
        Action.note (.opened file.node)
        pure file : Act OpenFile) w =
          ⟨.ok file, w', [event] ++ (t ++ ([.opened file.node] ++ []))⟩ := by
      rw [Action.bind_ok (Action.note_apply event w), Action.bind_ok hrun]
      rfl
    refine ⟨by rw [hdone]; exact hspares, by rw [hdone]; exact nofun, fun file' hfile' => ?_,
      fun file' hfile' _ => ?_⟩
    · rw [hdone] at hfile' ⊢
      cases hfile'
      have hdebt : file.debt = [.opened file.node] := by
        rw [OpenFile.debt, hpath, if_neg Bool.false_ne_true]
      rw [hdebt]
      show SameBooks ([] ++ ([.opened file.node] ++ [])) ([event] ++ (t ++ _))
      rw [← List.append_assoc [event]]
      exact hfirst.sameBooks.append (.refl _)
    · rw [hdone] at hfile' ⊢
      cases hfile'
      exact hops

theorem OpsKind.openFile_opens (o : OpsKind) (v : VolumeKey) {n : NodeId} (flags : OpenFlags)
    {ops : OpsKind} (hops : (w.node n).ops = some ops) : (o.openFile v n flags).Opens w :=
  opens_noted ((hlaws.ops o).openFile v n flags) rfl fun file hfile =>
    (hlaws.ops o).opened v n flags w file ops hops hfile

theorem OpsKind.openDirectory_opens (o : OpsKind) (v : VolumeKey) {n : NodeId} (flags : OpenFlags)
    {ops : OpsKind} (hops : (w.node n).ops = some ops) :
    (liftM (o.openDirectory v n flags) : Act OpenFile).Opens w := by
  have hsame : (liftM (o.openDirectory v n flags) : Act OpenFile) = (do
      Action.note (.used o (.openDirectory n))
      let file ← (liftM ((Backends.ops o).openDirectory v n flags) : Act OpenFile)
      Action.note (.opened file.node)
      pure file) := by
    rw [OpsKind.openDirectory, Action.liftM_bind]
    refine congrArg _ (funext fun _ => ?_)
    rw [Action.liftM_bind]
    refine congrArg _ (funext fun file => ?_)
    rw [Action.liftM_bind]
    rfl
  rw [hsame]
  exact opens_noted (Action.does_query ((hlaws.ops o).openDirectory v n flags)) rfl
    fun file hfile => (hlaws.ops o).listing v n flags w file ops hops hfile

theorem openFound_opens (n : NodeId) (flags : OpenFlags) : (openFound n flags).Opens w := by
  rw [openFound]
  split
  · refine ⟨.refl w, fun _ he => (by cases he), fun file hfile => ?_, fun file hfile hpath => ?_⟩
    · cases hfile
      exact .refl _
    · cases hfile
      cases hpath
  refine opens_world_bind (opens_query_bind (.demand _ (by simp)) fun _ _ =>
    opens_query_bind (opsOf_discreet n) fun o ho =>
      opens_query_bind (volumeOf_discreet n) fun v _ => ?_)
  have hops := World.opsOf_eq_ok.1 ho
  dsimp only
  split
  · exact opens_query_bind (.demand _ (by simp)) fun _ _ =>
      o.openDirectory_opens hlaws v _ hops
  · exact opens_query_bind (.demand _ (by simp)) fun _ _ => opens_query_bind (.demand _ (by simp))
      fun _ _ => o.openFile_opens hlaws v _ hops

/-- A driver that hands out a new file hands it out with operations. -/
theorem DriverKind.createFile_opens (d : DriverKind) (v : VolumeKey) (parent : NodeId)
    (name : String) (flags : OpenFlags) (mode : UInt32)
    (hcreates : ∀ file, (d.createFile v parent name flags mode w).result = .ok file →
      ((d.createFile v parent name flags mode w).world.node file.node).ops.isSome = true) :
    (d.createFile v parent name flags mode).Opens w := by
  refine opens_noted ((hlaws.driver d).createFile v parent name flags mode) rfl
    fun file hfile => ⟨(hlaws.driver d).created v parent name flags mode w file hfile, ?_⟩
  rcases hrun : (Backends.driver d).createFile v parent name flags mode w with ⟨e | file', w', t⟩
  · rw [hrun] at hfile
    cases hfile
  · rw [hrun] at hfile
    cases hfile
    have hdone : d.createFile v parent name flags mode w =
        ⟨.ok file, w',
          [.asked d (.createFile v parent name)] ++ (t ++ ([.opened file.node] ++ []))⟩ := by
      rw [DriverKind.createFile, Action.bind_ok (Action.note_apply _ w), Action.bind_ok hrun]
      rfl
    have hops := hcreates file (by rw [hdone])
    rw [hdone] at hops
    exact hops

/-- A file that is created in a directory has operations. -/
def World.CreatesIn (w : World) (parent : NodeId) : Prop :=
  ∀ volume name flags mode file, (volumeForWriting parent w).result = .ok volume →
    ((w.node parent).driver.createFile volume parent name flags mode w).result = .ok file →
      (((w.node parent).driver.createFile volume parent name flags mode w).world.node
        file.node).ops.isSome = true

theorem createNode_opens {parent : NodeId} (hcreates : w.CreatesIn parent) (name : String)
    (flags : OpenFlags) (mode : UInt32) : (createNode parent name flags mode).Opens w :=
  opens_query_bind (.ofResult fun hname => absurd hname (checkName_ne_full name)) fun _ _ =>
    opens_query_bind (volumeForWriting_discreet parent) fun v hv =>
      opens_query_bind (.look _) fun d hd => by
        cases hd
        exact DriverKind.createFile_opens hlaws _ v parent name flags mode
          fun file => hcreates v name flags mode file hv

/-- Opening a name finds what is there, or creates it. -/
theorem openName_opens (t : TaskId) {parent : NodeId} (hcreates : w.CreatesIn parent)
    (name : String) (flags : OpenFlags) (mode : UInt32) :
    (openName t parent name flags mode).Opens w := by
  have hfound :=
    resolveIn_discreet hlaws t parent name (if flags.nofollow then .crossOnly else .full)
  refine opens_query_bind (hfound.mono fun _ => trivial).attempt fun found _ => ?_
  split
  · exact opens_query_bind (.demand _ nofun) fun _ _ => openFound_opens hlaws _ flags
  · split
    · exact createNode_opens hlaws hcreates name flags mode
    · exact ⟨.refl w, fun _ _ => quiet_nil, nofun, nofun⟩

end

end VirtualFs
