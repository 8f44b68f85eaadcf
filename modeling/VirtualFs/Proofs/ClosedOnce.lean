/-
What is opened is closed once. Over any run of calls a file is closed in the
step in which the last number that was bound to it goes, never before and never
again; a file that is open for its path alone is never closed, and what a call
opens for itself it closes again. Drivers and operations may behave differently
from one call to the next.
-/
import VirtualFs.Proofs.Reachable
import VirtualFs.Proofs.Turnover

namespace VirtualFs

open World (Tends)
open VirtualFs.Action (keeps_pure keeps_bind keeps_query_bind keeps_ask_bind)

/-! ## Steps -/

namespace World

variable {before after : World} {seen : List Event}

/-- What is seen in a step closes what has to be closed, once, and nothing else. -/
structure ClosesOnce (before : World) (seen : List Event) (after : World) : Prop where
  /-- What is open has a number. -/
  bound : ∀ f, after.files.has f = after.holdsFile f
  /-- An open file is closed if its last number goes, and not if it keeps one, nor if it is open for
  its path alone. -/
  last : ∀ f file, before.files.get? f = some file →
    closingsOf f seen = (!file.isPath && !after.holdsFile f).toNat
  /-- What was gone before is not closed again. -/
  again : ∀ f < before.files.nextKey, before.files.has f = false → closingsOf f seen = 0
  /-- So it is with what is made in the step. -/
  fresh : ∀ f < after.files.nextKey, before.files.nextKey ≤ f → ∃ made : OpenFile,
    closingsOf f seen = (!made.isPath && !after.holdsFile f).toNat ∧
      ∀ file, after.files.get? f = some file → file.isPath = made.isPath
  unborn : ∀ f, after.files.nextKey ≤ f → closingsOf f seen = 0
  /-- What was opened has been closed or has to be, node by node. -/
  balance : ∀ p, closings p seen + (after.owed p).card = openings p seen + (before.owed p).card

theorem Kept.has_eq_holdsFile (h : after.Kept []) (f : FileId) :
    after.files.has f = after.holdsFile f := by
  rw [Bool.eq_iff_iff, holdsFile_iff]
  exact ⟨fun hf => (h.held f hf).resolve_right List.not_mem_nil,
    fun ⟨c, i, hslot⟩ => h.orderly.bound c i f hslot⟩

/-- What is owed is what has a number and is open for more than its path. -/
theorem Kept.owes_eq (h : after.Kept []) {f : FileId} {isPath : Bool}
    (hpath : ∀ file, after.files.get? f = some file → file.isPath = isPath) :
    after.owes f = (!isPath && after.holdsFile f) := by
  rw [← h.has_eq_holdsFile, owes, Arena.has]
  cases hget : after.files.get? f with
  | none => simp
  | some file => simp [hpath file hget]

/-- What is no longer owed has been paid. -/
theorem eq_toNat_of_add {owed kept : Bool} {paid : Nat}
    (h : paid + (owed && kept).toNat = owed.toNat) : paid = (owed && !kept).toNat := by
  cases owed <;> cases kept <;> simpa using h

theorem Ledger.closesOnce (h : before.Ledger seen after) (hafter : after.Kept []) :
    before.ClosesOnce seen after where
  bound := hafter.has_eq_holdsFile
  last f file hfile := by
    have hlt := Arena.lt_nextKey_of_has (Arena.has_iff.2 ⟨file, hfile⟩)
    have hclosed := h.closed f hlt
    have hpath : ∀ file', after.files.get? f = some file' → file'.isPath = file.isPath := by
      intro file' hfile'
      obtain ⟨old, hold, -, hpath⟩ := h.stays f hlt file' hfile'
      rw [hfile] at hold
      cases hold
      exact hpath
    have howes := hafter.owes_eq hpath
    have howed : before.owes f = !file.isPath := by
      rw [owes, hfile]
      rfl
    rw [howes, howed] at hclosed
    exact eq_toNat_of_add hclosed
  again f hf hgone := by
    have hclosed := h.closed f hf
    have howed : before.owes f = false := by
      cases hget : before.files.get? f with
      | none => rw [owes, hget]; rfl
      | some file => rw [Arena.has, hget] at hgone; cases hgone
    rw [howed] at hclosed
    exact Nat.eq_zero_of_add_eq_zero_right hclosed
  fresh f hlt hge := by
    obtain ⟨made, hmade, hsame⟩ := h.fresh f hlt hge
    refine ⟨made, ?_, fun file hfile => (hsame file hfile).2⟩
    rw [hafter.owes_eq fun file hfile => (hsame file hfile).2] at hmade
    exact eq_toNat_of_add hmade
  unborn := h.unborn
  balance p := (h.balance p).symm

end World

/-! ## Calls -/

/-- A call with its arguments: an operation, or a question. -/
inductive Call where
  | operation (op : Operation)
  | status (t : TaskId) (base : Option Handle) (path : String)
  | linkStatus (t : TaskId) (base : Option Handle) (path : String)
  | handleStatus (t : TaskId) (h : Handle)
  | readLink (t : TaskId) (base : Option Handle) (path : String)
  | access (t : TaskId) (base : Option Handle) (path : String) (mode : UInt32)
  | flagsOf (t : TaskId) (h : Handle)
  | flush (t : TaskId) (h : Handle)
  | sync
  | workingDirectory (t : TaskId) (capacity : Nat)
  | directoryPath (t : TaskId) (h : Handle) (capacity : Nat)

namespace Call

variable [Backends]

/-- What a call does. -/
def act : Call → Act Unit
  | operation op => op.act
  | status t base path => (liftM (VirtualFs.status t base path) : Act Status).only
  | linkStatus t base path => (liftM (VirtualFs.linkStatus t base path) : Act Status).only
  | handleStatus t h => (liftM (VirtualFs.handleStatus t h) : Act Status).only
  | readLink t base path => (liftM (VirtualFs.readLink t base path) : Act String).only
  | access t base path mode => liftM (VirtualFs.access t base path mode)
  | flagsOf t h => (liftM (VirtualFs.flagsOf t h) : Act OpenFlags).only
  | flush t h => liftM (VirtualFs.flush t h)
  | sync => liftM VirtualFs.sync
  | workingDirectory t capacity =>
    (liftM (VirtualFs.workingDirectory t capacity) : Act String).only
  | directoryPath t h capacity => (liftM (VirtualFs.directoryPath t h capacity) : Act String).only

end Call

/-- A call, and how drivers and operations behave on the occasion. -/
structure Occasion where
  backends : Backends
  call : Call

/-- What a call does on an occasion. -/
def Occasion.act (now : Occasion) : Act Unit := @Call.act now.backends now.call

namespace Call

/-- Calls one after the other; one that fails ends nothing. -/
def session : List Occasion → Act Unit
  | [] => pure ()
  | now :: rest => do
    let _ ← (Action.attempt now.act : Act (Except Error Unit))
    session rest

theorem session_cons (now : Occasion) (rest : List Occasion) (w : World) :
    session (now :: rest) w =
      { session rest (now.act w).world with
        trace := (now.act w).trace ++ (session rest (now.act w).world).trace } :=
  Action.bind_ok (f := fun _ => session rest)
    (show (Action.attempt now.act : Act (Except Error Unit)) w = ⟨.ok (now.act w).result, _, _⟩
      from rfl)

theorem session_append (done rest : List Occasion) (w : World) :
    session (done ++ rest) w =
      { session rest (session done w).world with
        trace := (session done w).trace ++ (session rest (session done w).world).trace } := by
  induction done generalizing w with
  | nil => rfl
  | cons now done ih =>
    rw [List.cons_append, session_cons, session_cons, ih, List.append_assoc]

end Call

/-! ## Each call keeps everything in order -/

section

variable {α : Type} {x : Act α} {w : World}

theorem Action.Does.keeps {full : Prop} (h : x.Does Tends full) (hw : w.Kept []) :
    x.Keeps w fun _ => [] :=
  have hdone := (h w).1 hw
  ⟨hdone.1, fun _ _ => hdone.2, fun _ _ => hdone.2⟩

theorem Action.Keeps.only (h : x.Keeps w fun _ => []) : x.only.Keeps w fun _ => [] :=
  keeps_bind h fun _ _ _ _ hw => keeps_pure hw

theorem Action.Keeps.attempt (h : x.Keeps w fun _ => []) :
    (Action.attempt x : Act (Except Error α)).Keeps w fun _ => [] := by
  refine ⟨h.ledger, fun _ _ => ?_, nofun⟩
  cases hresult : (x w).result with
  | ok a => exact h.ok a hresult
  | error e => exact h.error e hresult

end

section

variable [Backends] {full : Prop} (hlaws : Backends.Discreet full) {w : World}

include hlaws

theorem Operation.keeps (hw : w.Kept []) (hcreates : w.Creates) (op : Operation) :
    op.act.Keeps w fun _ => [] := by
  cases op with
  | openPath t base path flags mode =>
    exact (openPath_keeps hlaws hw hcreates t base path flags mode).only
  | openPinned t name flags =>
    refine Action.Keeps.only (keeps_ask_bind (keeps_query_bind ?_ hw fun n _ =>
      openHeld_keeps hlaws hw t n flags))
    exact (Query.Discreet.expect (F := True) _ (fun _ => trivial) w).1
  | close t h => exact (close_keeps hlaws hw t h).only
  | duplicate t h => exact (duplicate_keeps hlaws hw t h).only
  | duplicateTo t h target => exact (duplicateTo_keeps hlaws hw t h target).only
  | reopen t h => exact (reopen_keeps hlaws hw t h).only
  | closeAll c => exact (emptyTable_keeps hlaws hw c).only
  | retireContext c => exact (retireContext_keeps hlaws hw c).only
  | preadv | control | makeDirectory | removeDirectory | unlink | makeSymlink | rename
  | changeDirectory | changeDirectoryTo | mount | addDevice | moveDevice | withdrawDevice | hold
  | release | addContext | addTask | setDepth =>
    refine (Operation.Aloof.does hlaws (hlaws.names fun _ _ _ => World.Aside.tends) ?_).keeps hw
    exact True.intro
  | readv | writev | pwritev | seek | setFlags | writeStatus =>
    refine (Operation.Moving.does hlaws (hlaws.writes fun _ _ _ => World.Aside.tends) ?_).keeps hw
    exact True.intro
  | nextEntry | rewind =>
    refine (Operation.Turning.does hlaws ?_).keeps hw
    exact True.intro

theorem syncVolumes_discreet (earlier : Except Error Unit) (volumes : List VolumeKey) :
    (syncVolumes earlier volumes).Discreet True := by
  induction volumes generalizing earlier with
  | nil => exact .ofResult fun _ => trivial
  | cons v rest ih =>
    refine .bind (.look _) fun found => .bind (.attempt ?_) fun synced => ?_
    · exact .bind (.note rfl) fun _ => ((hlaws.driver found.2).sync v).mono fun _ => trivial
    · cases synced with
      | ok => exact ih earlier
      | error cause => exact .bind (.note rfl) fun _ => ih _

theorem Call.keeps (hw : w.Kept []) (hcreates : w.Creates) (call : Call) :
    call.act.Keeps w fun _ => [] := by
  cases call with
  | operation op => exact op.keeps hlaws hw hcreates
  | status t base path =>
    have hasked : (VirtualFs.status t base path).Discreet full :=
      .bind (startNode_discreet t base) fun _ => .bind (resolve_discreet hlaws t _ path _)
        fun n => statusOf_discreet hlaws n
    exact (hasked.balanced.keeps hw).only
  | linkStatus t base path =>
    have hasked : (VirtualFs.linkStatus t base path).Discreet full :=
      .bind (startNode_discreet t base) fun _ => .bind (resolve_discreet hlaws t _ path _)
        fun n => statusOf_discreet hlaws n
    exact (hasked.balanced.keeps hw).only
  | handleStatus t h =>
    have hasked : (VirtualFs.handleStatus t h).Discreet full :=
      .bind (openFileOf_discreet t h) fun file => statusOf_discreet hlaws file.node
    exact (hasked.balanced.keeps hw).only
  | readLink t base path =>
    have hasked : (VirtualFs.readLink t base path).Discreet full :=
      .bind (startNode_discreet t base) fun _ => .bind (resolve_discreet hlaws t _ path _)
        fun n => .bind (.look _) fun _ => .bind (.demand _ nofun) fun _ =>
          .bind (opsOf_discreet n) fun o => .bind (volumeOf_discreet n) fun v =>
            .bind (statusOf_discreet hlaws n) fun _ => .bind (.look _) fun _ =>
              .bind (.demand _ nofun) fun _ => .bind (.look _) fun depth =>
                OpsKind.readLink_discreet hlaws o v n depth
    exact (hasked.balanced.keeps hw).only
  | access t base path mode =>
    have hasked : (VirtualFs.access t base path mode).Discreet full :=
      .bind (startNode_discreet t base) fun _ => .bind (resolve_discreet hlaws t _ path _)
        fun n => .ite (.pure _) (.bind (volumeOf_discreet n) fun v => .bind (.look _) fun _ =>
          .bind (.demand _ nofun) fun _ => .bind (opsOf_discreet n) fun o =>
            (hlaws.ops o).checkAccess v n mode)
    exact hasked.balanced.keeps hw
  | flagsOf t h =>
    have hasked : (VirtualFs.flagsOf t h).Discreet full :=
      .bind (openFileOf_discreet t h) fun _ => .pure _
    exact (hasked.balanced.keeps hw).only
  | flush t h =>
    have hasked : (VirtualFs.flush t h).Discreet full :=
      .bind (operableOf_discreet t h) fun found => .bind (.note rfl) fun _ =>
        (hlaws.ops found.2).sync found.1
    exact hasked.balanced.keeps hw
  | sync =>
    have hasked : VirtualFs.sync.Discreet True :=
      .bind (.look _) fun volumes => syncVolumes_discreet hlaws _ volumes
    exact hasked.balanced.keeps hw
  | workingDirectory t capacity =>
    have hasked : (VirtualFs.workingDirectory t capacity).Balanced w :=
      (Query.Discreet.look (F := full) _).balanced.bind fun dir _ =>
        absolutePath_balanced hlaws t dir capacity
    exact (hasked.keeps hw).only
  | directoryPath t h capacity =>
    have hasked : (VirtualFs.directoryPath t h capacity).Balanced w :=
      (openFileOf_discreet (F := full) t h).balanced.bind fun file _ =>
        (Query.Discreet.look (F := full) _).balanced.bind fun _ _ =>
          (Query.Discreet.demand (F := full) _ (by simp)).balanced.bind fun _ _ =>
            absolutePath_balanced hlaws t file.node capacity
    exact (hasked.keeps hw).only

end

theorem Occasion.keeps {full : Prop} {now : Occasion}
    (hlaws : @Backends.Discreet now.backends full) {w : World} (hw : w.Kept [])
    (hcreates : @World.Creates now.backends w) : now.act.Keeps w fun _ => [] :=
  @Call.keeps now.backends full hlaws w hw hcreates now.call

/-- A session keeps everything in order if each of its calls does. -/
theorem Call.session_keeps {full : Prop} {occasions : List Occasion}
    (hlaws : ∀ now ∈ occasions, @Backends.Discreet now.backends full) {w : World} (hw : w.Kept [])
    (hcreates : ∀ done now, done ++ [now] <+: occasions →
      @World.Creates now.backends (session done w).world) :
    (session occasions).Keeps w fun _ => [] := by
  induction occasions generalizing w with
  | nil => exact keeps_pure hw
  | cons now rest ih =>
    have hcall := Occasion.keeps (hlaws now List.mem_cons_self) hw
      (hcreates [] now (List.prefix_append [now] rest))
    refine keeps_bind hcall.attempt fun _ w' _ hworld hw' =>
      ih (fun other hother => hlaws other (List.mem_cons_of_mem _ hother)) hw'
        fun done next hdone => ?_
    have hnext := hcreates (now :: done) next (List.cons_prefix_cons.2 ⟨rfl, hdone⟩)
    rw [session_cons] at hnext
    rw [← hworld]
    exact hnext

/-! ## Runs -/

/-- **What is opened is closed once**, over any run of calls: in the step in which its last number
goes, and not before. At every point what has been closed and what is open for more than its path
make up what has been opened, node by node. Drivers and operations may behave differently from one
call to the next; they must leave what is open alone, and give a file that is created operations
that can close it. -/
theorem Call.session_closes_once {full : Prop} (occasions : List Occasion)
    (hlaws : ∀ now ∈ occasions, @Backends.Discreet now.backends full) {w : World} (hw : w.Kept [])
    (hcreates : ∀ done now, done ++ [now] <+: occasions →
      @World.Creates now.backends (session done w).world) :
    (∀ done now, done ++ [now] <+: occasions →
      (session done w).world.ClosesOnce (now.act (session done w).world).trace
        (session (done ++ [now]) w).world) ∧
      ∀ done, done <+: occasions → ∀ p,
        closings p (session done w).trace + ((session done w).world.owed p).card =
          openings p (session done w).trace + (w.owed p).card := by
  have hkept : ∀ done, done <+: occasions → (session done w).world.Kept [] ∧
      w.Ledger (session done w).trace (session done w).world := by
    intro done hdone
    have hkeeps := session_keeps (fun now hnow => hlaws now (hdone.subset hnow)) hw
      fun first now hfirst => hcreates first now (hfirst.trans hdone)
    refine ⟨?_, hkeeps.ledger⟩
    cases hresult : (session done w).result with
    | ok u => exact hkeeps.ok u hresult
    | error e => exact hkeeps.error e hresult
  refine ⟨fun done now hdone => ?_, fun done hdone p => ((hkept done hdone).2.balance p).symm⟩
  have hbefore := (List.prefix_append done [now]).trans hdone
  have hafter := (hkept _ hdone).1
  have hnow : now ∈ occasions := hdone.subset (List.mem_append_right done List.mem_cons_self)
  have hstep := Occasion.keeps (hlaws now hnow) (hkept done hbefore).1 (hcreates done now hdone)
  refine World.Ledger.closesOnce ?_ hafter
  rw [session_append]
  exact hstep.ledger

/-! ## Memory volumes -/

/-- A file gets the operations of the directory that it is created in. -/
theorem World.WellFormed.creates {w : World} (h : w.WellFormed) : w.Creates := by
  intro c t base path found hfound v name flags mode file hv hfile
  have hreserving : (w.reserving c).WellFormed :=
    World.Edits.wellFormed
      (h.edits_of_moves (allocateHandle_turns (h.steady : w.Steady .all) c).moves.1) h
  obtain ⟨hknown, -⟩ := hreserving.sound.resolveTarget_yields t base path found hfound
  have hasked := World.Sound.volumeForWriting_asked hknown v hv
  have hram := hreserving.ram found.1 hknown.live
  rw [hram.driver] at hfile ⊢
  have hinserted := (RamFs.createFile_inserts hreserving hknown.live hasked.volume_eq flags mode).2
    file hfile
  have hops : (DriverKind.ram.createFile v found.1 name flags mode).Leads (fun _ _ => True)
      (w.reserving c) fun file w' =>
        (w'.node file.node).ops = ((w.reserving c).node found.1).ops :=
    Action.leads_note_bind (Action.leads_bind
      (RamFs.createFile_ops v found.1 name flags mode (w.reserving c)) fun _ _ _ hops =>
        Action.leads_note_bind (Action.leads_pure hops))
  rw [hops.2 file hfile, hram.ops_of_isDirectory hinserted.isDirectory]
  rfl

/-- What is asked changes nothing. -/
theorem Call.edits {w : World} (h : w.WellFormed) (call : Call) :
    w.Edits (call.act w).world := by
  cases call with
  | operation op =>
    have hedits := op.edits h
    rw [op.run_eq_after] at hedits
    exact hedits
  | access | flush | sync => exact .refl
  | _ =>
    have hworld : ∀ {α : Type} (q : Query α), (liftM q : Act α).only.after w = w := fun q =>
      Action.after_only (liftM q) w
    show w.Edits (Action.after _ w)
    rw [Call.act, hworld]
    exact .refl

theorem Call.wellFormed_session {w : World} (h : w.WellFormed) {occasions : List Occasion}
    (hstandard : ∀ now ∈ occasions, now.backends = standard) :
    (session occasions w).world.WellFormed := by
  induction occasions generalizing w with
  | nil => exact h
  | cons now rest ih =>
    obtain ⟨backends, call⟩ := now
    obtain rfl : backends = standard := hstandard _ List.mem_cons_self
    rw [session_cons]
    exact ih (World.Edits.wellFormed (call.edits h) h) fun next hnext =>
      hstandard next (List.mem_cons_of_mem _ hnext)

/-- In a fresh instance nothing is open. -/
theorem World.kept_fresh (limits : Limits) : (fresh limits).Kept [] := by
  have hroot : (rootOnly limits).Kept [] := ⟨⟨nofun, nofun⟩, nofun, nofun⟩
  exact ((World.furnish_does (standard_discreet.names fun _ _ _ => World.Aside.tends) _).1 hroot).2

/-- A file is created, and its number duplicated; its directory is opened for the path alone, and
the task asks where it is. Then the file's first number goes, and at last the context with the
others. -/
def Call.someSession : List Occasion :=
  [.operation (.addContext false), .operation (.addTask 1),
    .operation (.makeDirectory 0 none "/a" 0o755), .operation (.changeDirectory 0 "/a"),
    .operation (.openPath 0 none "b" ⟨OpenFlags.createBit⟩ 0o644), .operation (.duplicate 0 ⟨0⟩),
    .operation (.openPath 0 none "/a" ⟨OpenFlags.pathBit⟩ 0), .workingDirectory 0 pathMax,
    .operation (.close 0 ⟨0⟩), .operation (.retireContext 1)].map (⟨standard, ·⟩)

/-- The listing that finds the directory's name is closed in the same step, the file in the last. -/
theorem Call.session_closes_once_someSession :
    ((∀ now ∈ someSession, @Backends.Discreet now.backends True) ∧ (World.fresh {}).Kept [] ∧
      ∀ done now, done ++ [now] <+: someSession →
        @World.Creates now.backends (session done (World.fresh {})).world) ∧
      ((∀ done now, done ++ [now] <+: someSession →
        (session done (World.fresh {})).world.ClosesOnce
          (now.act (session done (World.fresh {})).world).trace
          (session (done ++ [now]) (World.fresh {})).world) ∧
        ∀ done, done <+: someSession → ∀ p,
          closings p (session done (World.fresh {})).trace +
              ((session done (World.fresh {})).world.owed p).card =
            openings p (session done (World.fresh {})).trace + ((World.fresh {}).owed p).card) ∧
      (someSession.inits.map fun done =>
        let w := session done (World.fresh {})
        (openings (fun _ => true) w.trace, closings (fun _ => true) w.trace)) =
        [(0, 0), (0, 0), (0, 0), (0, 0), (0, 0), (1, 0), (1, 0), (1, 0), (2, 1), (2, 1), (2, 2)] := by
  have hstandard : ∀ now ∈ someSession, now.backends = standard := by
    intro now hnow
    obtain ⟨call, -, rfl⟩ := List.mem_map.1 hnow
    rfl
  have hlaws : ∀ now ∈ someSession, @Backends.Discreet now.backends True := fun now hnow =>
    hstandard now hnow ▸ standard_discreet
  have hcreates : ∀ done now, done ++ [now] <+: someSession →
      @World.Creates now.backends (session done (World.fresh {})).world := by
    intro done now hdone
    have hall : ∀ next ∈ done ++ [now], next.backends = standard := fun next hnext =>
      hstandard next (hdone.subset hnext)
    rw [hall now (List.mem_append_right done List.mem_cons_self)]
    exact (wellFormed_session (World.wellFormed_fresh {}) fun next hnext =>
      hall next (List.mem_append_left [now] hnext)).creates
  exact ⟨⟨hlaws, World.kept_fresh {}, hcreates⟩,
    session_closes_once someSession hlaws (World.kept_fresh {}) hcreates,
    by decide +kernel⟩

end VirtualFs
