/-
Every call on the handle tables is a step of the map they amount to. A run of
calls over any contexts answers what `Numbering` answers, in the same order,
and leaves the numbering that it leaves (`run_serves`). From the map one reads
off what a caller relies on: which number a call may touch, when a table is
full, and that a failed call leaves no trace.

The outcome of an open's other work is read off the world in which its number
is already reserved (`World.outcome`), as a full table is found before that
work starts.
-/
import VirtualFs.Proofs.TableState

namespace VirtualFs

open VirtualFs.Action (renders_pure renders_throw renders_query_bind renders_ask_bind renders_bind
  renders_bind_error renders_map)
open World (Sparing)

variable [Backends]

/-! ## The calls -/

/-- Binds a file to a number of the caller's choice and lets go of what was there. -/
def installGiven (c : ContextId) (h : Handle) : Given → Act (Option FileId)
  | .bound c' h' => do
    let displaced ← installHandle c h (← lookupHandle c' h')
    dropDisplaced displaced
    pure displaced
  | .fresh file => do
    match ← Query.attempt (installable c h) with
    | .error e =>
      closeFile none file
      throw e
    | .ok () =>
      let displaced ← installHandle c h (← addFile file)
      dropDisplaced displaced
      pure displaced

/-- Binds a file to a reserved number. -/
def bindGiven (c : ContextId) (h : Handle) : Given → Act Unit
  | .bound c' h' => do bindHandle c h (← lookupHandle c' h')
  | .fresh file => do
    let _ ← commitFile c h file
    pure ()

namespace TableCall

/-- What a call runs. A file that is handed back is let go of. -/
def act : TableCall → Act Reply
  | .openPath t base path flags mode => .handle <$> VirtualFs.openPath t base path flags mode
  | .openHeld t n flags => .handle <$> VirtualFs.openHeld t n flags
  | .duplicate t h => .handle <$> VirtualFs.duplicate t h
  | .duplicateTo t h target => .handle <$> VirtualFs.duplicateTo t h target
  | .reopen t h => .handle <$> VirtualFs.reopen t h
  | .close t h => do
    VirtualFs.close t h
    pure .done
  | .closeAll c => do
    emptyTable c
    pure .done
  | .allocate c => .handle <$> allocateHandle c
  | .bind c h given => do
    bindGiven c h given
    pure .done
  | .free c h => do
    let displaced ← freeHandle c h
    dropDisplaced displaced
    pure (.displaced displaced)
  | .install c h given => .displaced <$> installGiven c h given
  | .lookup c h => do
    let f ← lookupHandle c h
    pure (.file f)

end TableCall

/-- How the work of an open comes out once its number is reserved. -/
def World.outcome (w : World) : TableCall → Except Error Unit
  | .openPath t base path flags mode =>
    let reserved := w.reserving (w.contextOf t flags.forKernel)
    (pathOpening t base path flags mode reserved).result.map fun _ => ()
  | .openHeld t n flags =>
    let reserved := w.reserving (w.contextOf t flags.forKernel)
    (openFound n flags reserved).result.map fun _ => ()
  | .reopen t h => do
    let file ← (openFileOf t h w).result
    let reserved := w.reserving (w.contextOf t h.isKernel)
    (openFound file.node (file.flags.without OpenFlags.truncateBit) reserved).result.map fun _ => ()
  | _ => .ok ()

/-! ## Each call is a step of the map -/

section

variable {excused : Prop} {w : World} {c : ContextId}

/-- A new number for a file that is open. -/
theorem withReserved_bound (hw : w.Orderly) (hreach : w.numbering.InReach c) {f : FileId}
    (hf : w.files.has f = true) :
    (withReserved c fun copy => do
      bindHandle c copy f
      pure copy).Renders w.numbering w (w.numbering.give c (.taken f)) := by
  cases hleast : w.numbering.least c with
  | none =>
    rw [Numbering.give_full hleast]
    exact withReserved_exhausted hw _ hleast
  | some i =>
    rw [Numbering.give_least hleast]
    obtain ⟨hkernel, hslot⟩ := hreach.names_least hleast
    refine withReserved_renders hw hreach hleast fun hnumbering hw' => ?_
    have hfill := Numbering.fill_reserved hkernel f
    rw [hslot] at hfill
    have hbind := bindHandle_renders hw' c (.ofSlot i (w.numbering.kernel c)) (f := f)
      (by rwa [World.reserving_files])
    rw [hnumbering, hfill] at hbind
    exact renders_bind hbind fun w' hnumbering hw' _ => renders_pure hw' hnumbering _

/-- A new number for a file that the work opens. -/
theorem withReserved_opened (hw : w.Orderly) (hreach : w.numbering.InReach c)
    {opening : Act OpenFile} (hopening : opening.Does Sparing excused)
    {finish : Handle → OpenFile → Act Handle}
    (hfinish : ∀ handle file w', w'.Orderly → (finish handle file).Renders w'.numbering w' (do
      let after ← w'.numbering.made.fill c handle w'.numbering.next
      pure (handle, after))) :
    (withReserved c fun handle => opening >>= finish handle).Renders w.numbering w
      (w.numbering.opened c ((opening (w.reserving c)).result.map fun _ => ())) := by
  cases hleast : w.numbering.least c with
  | none =>
    rw [Numbering.opened_full hleast]
    exact withReserved_exhausted hw _ hleast
  | some i =>
    rw [Numbering.opened_least hleast]
    obtain ⟨hkernel, hslot⟩ := hreach.names_least hleast
    refine withReserved_renders hw hreach hleast fun hnumbering hw' => ?_
    obtain ⟨hspares, -⟩ := hopening (w.reserving c)
    rcases hrun : opening (w.reserving c) with ⟨e | file, w', t⟩ <;> rw [hrun] at hspares
    · have hsame := World.numbering_congr hspares.contexts hspares.tasks (by rw [hspares.files])
      exact .of_run (Action.bind_error hrun) rfl (hsame.trans hnumbering)
        (hw'.congr hspares.contexts hspares.tasks hspares.files) (.of_files hspares.files)
    · have hsame := World.numbering_congr hspares.contexts hspares.tasks (by rw [hspares.files])
      have hrest := hfinish (.ofSlot i (w.numbering.kernel c)) file w'
        (hw'.congr hspares.contexts hspares.tasks hspares.files)
      have hfill := Numbering.fill_reserved (n := w.numbering.made) hkernel w.numbering.next
      rw [hslot] at hfill
      have hmade : w'.numbering.made = w.numbering.made.set c i .reserved := by
        rw [hsame, hnumbering]
        rfl
      have hnext : w'.numbering.next = w.numbering.next := by
        rw [hsame, hnumbering]
        rfl
      rw [hmade, hnext, hfill] at hrest
      exact .of_run (Action.bind_ok hrun) hrest.result hrest.numbering hrest.orderly
        ((World.Retains.of_files hspares.files).trans hrest.retains)

theorem openPath_renders (hlaws : Backends.Discreet excused) (hw : w.Orderly) (t : TaskId)
    (base : Option Handle) (path : String) (flags : OpenFlags) (mode : UInt32)
    (hreach : w.numbering.InReach (w.numbering.contextOf t flags.forKernel)) :
    (openPath t base path flags mode).Renders w.numbering w
      (w.numbering.opened (w.numbering.contextOf t flags.forKernel)
        (w.outcome (.openPath t base path flags mode))) := by
  rw [openPath_eq]
  have hopening := pathOpening_spares hlaws t base path flags mode
  refine renders_ask_bind (withReserved_opened (c := w.contextOf t flags.forKernel) hw hreach
    hopening fun handle file w' hw' => ?_)
  have hcommit := commitFile_renders hw' (w.contextOf t flags.forKernel) handle file
  cases hfill : w'.numbering.made.fill (w.contextOf t flags.forKernel) handle
      w'.numbering.next with
  | error e =>
    rw [hfill] at hcommit
    exact renders_bind_error hcommit
  | ok after =>
    rw [hfill] at hcommit
    exact renders_bind hcommit fun w'' hnumbering hw'' _ =>
      .of_run rfl rfl hnumbering hw'' (.refl w'')

theorem openHeld_renders (hlaws : Backends.Discreet excused) (hw : w.Orderly) (t : TaskId)
    (n : NodeId) (flags : OpenFlags)
    (hreach : w.numbering.InReach (w.numbering.contextOf t flags.forKernel)) :
    (openHeld t n flags).Renders w.numbering w
      (w.numbering.opened (w.numbering.contextOf t flags.forKernel)
        (w.outcome (.openHeld t n flags))) :=
  renders_ask_bind (withReserved_opened hw hreach (openFound_spares hlaws n flags)
    fun handle file _ hw' => commitFile_renders hw' _ handle file)

theorem duplicate_renders (hw : w.Orderly) (t : TaskId) (handle : Handle)
    (hreach : w.numbering.InReach (w.numbering.contextOf t handle.isKernel)) :
    (duplicate t handle).Renders w.numbering w (do
      let f ← w.numbering.fileOf handle t
      w.numbering.give (w.numbering.contextOf t handle.isKernel) (.taken f)) :=
  renders_query_bind hw (result_fileOf t handle) fun _ hfound =>
    renders_ask_bind (withReserved_bound hw hreach (hw.has_of_found hfound))

/-- A duplicate onto its own number changes nothing. -/
theorem duplicateTo_renders (hw : w.Orderly) (t : TaskId) (handle target : Handle) :
    (duplicateTo t handle target).Renders w.numbering w (do
      let after ← w.numbering.copied handle t target
      pure (target, after)) := by
  rw [Numbering.copied, bind_assoc]
  refine renders_query_bind hw (result_fileOf t handle) fun f hfound => ?_
  split
  · exact renders_pure hw rfl target
  refine renders_ask_bind ?_
  have hinstall := installHandle_renders hw (w.contextOf t target.isKernel) target
    (hw.has_of_found hfound)
  show Action.Renders w.numbering _ w
    ((w.numbering.place (w.contextOf t target.isKernel) target f >>= _) >>= _)
  cases hplace : w.numbering.place (w.contextOf t target.isKernel) target f with
  | error e =>
    rw [hplace] at hinstall
    exact renders_bind_error hinstall
  | ok placed =>
    rw [hplace] at hinstall
    refine renders_bind hinstall fun w' hnumbering hw' _ =>
      renders_bind (dropDisplaced_renders hw' _) fun w'' hnumbering' hw'' _ =>
        renders_pure hw'' (hnumbering'.trans hnumbering) target

theorem reopen_renders (hlaws : Backends.Discreet excused) (hw : w.Orderly) (t : TaskId)
    (handle : Handle)
    (hreach : w.numbering.InReach (w.numbering.contextOf t handle.isKernel)) :
    (reopen t handle).Renders w.numbering w (do
      let _ ← w.numbering.fileOf handle t
      w.numbering.opened (w.numbering.contextOf t handle.isKernel)
        (w.outcome (.reopen t handle))) := by
  have hfile : (openFileOf t handle w).result = (w.numbering.fileOf handle t).map w.file := by
    rw [openFileOf, Query.result_bind, result_fileOf]
    cases w.numbering.fileOf handle t <;> rfl
  cases hfound : w.numbering.fileOf handle t with
  | error e =>
    rw [hfound] at hfile
    exact renders_query_bind (k := fun _ => .error e) hw hfile nofun
  | ok f =>
    rw [hfound] at hfile
    refine renders_query_bind (k := fun _ => _) hw hfile fun file hfile' => renders_ask_bind ?_
    cases hfile'
    rw [World.outcome, hfile]
    exact withReserved_opened hw hreach (openFound_spares hlaws _ _)
      fun copy fresh _ hw' => commitFile_renders hw' _ copy (fresh.setPosition (w.file f).position)

theorem close_renders (hw : w.Orderly) (t : TaskId) (handle : Handle) :
    (close t handle).Renders w.numbering w (do
      let _ ← w.numbering.fileOf handle t
      pure ((), w.numbering.set (w.numbering.contextOf t handle.isKernel) handle.slot .free)) := by
  refine renders_ask_bind (renders_query_bind hw (result_lookupHandle _ handle) fun f hfound => ?_)
  have hback : (giveBack (w.contextOf t handle.isKernel) handle).Renders w.numbering w
      (.ok ((), (w.numbering.release (w.numbering.contextOf t handle.isKernel) handle).2)) :=
    giveBack_renders hw _ handle
  rwa [Numbering.release_found hfound] at hback

theorem bindGiven_renders (hw : w.Orderly) (c : ContextId) (handle : Handle) (given : Given) :
    (bindGiven c handle given).Renders w.numbering w (do
      let after ← w.numbering.bound c handle given
      pure ((), after)) := by
  rw [Numbering.bound]
  cases given with
  | bound c' handle' =>
    rw [Numbering.given, bind_assoc, bind_assoc]
    exact renders_query_bind hw (result_lookupHandle c' handle') fun f hfound =>
      bindHandle_renders hw c handle (hw.has_of_found hfound)
  | fresh file =>
    have hcommit := commitFile_renders hw c handle file
    show Action.Renders w.numbering _ w
      (w.numbering.made.fill c handle w.numbering.next >>= fun after => pure ((), after))
    cases hfill : w.numbering.made.fill c handle w.numbering.next with
    | error e =>
      rw [hfill] at hcommit
      exact renders_bind_error hcommit
    | ok after =>
      rw [hfill] at hcommit
      exact renders_bind hcommit fun w' hnumbering hw' _ => renders_pure hw' hnumbering ()

/-- What a number is given displaces what was there, and that is let go. -/
theorem installHandle_bind_renders (hw : w.Orderly) (c : ContextId) (handle : Handle) {f : FileId}
    (hf : w.files.has f = true) :
    ((do
      let displaced ← installHandle c handle f
      dropDisplaced displaced
      pure displaced : Act (Option FileId))).Renders w.numbering w
        (w.numbering.place c handle f) := by
  have hinstall := installHandle_renders hw c handle hf
  cases hplace : w.numbering.place c handle f with
  | error e =>
    rw [hplace] at hinstall
    exact renders_bind_error hinstall
  | ok placed =>
    rw [hplace] at hinstall
    exact renders_bind hinstall fun w' hnumbering hw' _ =>
      renders_bind (dropDisplaced_renders hw' _) fun w'' hnumbering' hw'' _ =>
        renders_pure hw'' (hnumbering'.trans hnumbering) _

theorem installGiven_renders (hw : w.Orderly) (c : ContextId) (handle : Handle) (given : Given) :
    (installGiven c handle given).Renders w.numbering w (do
      let (f, start) ← w.numbering.given given
      start.place c handle f) := by
  cases given with
  | bound c' handle' =>
    rw [Numbering.given, bind_assoc]
    exact renders_query_bind hw (result_lookupHandle c' handle') fun f hfound =>
      installHandle_bind_renders hw c handle (hw.has_of_found hfound)
  | fresh file =>
    have hattempt : (Query.attempt (installable c handle) w).result =
        .ok (w.numbering.placeable c handle) := by
      rw [Query.result_attempt, result_installable]
    refine renders_query_bind (k := fun _ => _) hw hattempt fun found hfound => ?_
    obtain rfl := Except.ok.inj hfound
    show Action.Renders w.numbering _ w (w.numbering.made.place c handle w.numbering.next)
    have hplace : w.numbering.made.place c handle w.numbering.next =
        (w.numbering.placeable c handle).map fun _ =>
          ((w.numbering.slot c handle.slot).value?,
            w.numbering.made.set c handle.slot (.taken w.numbering.next)) := rfl
    cases hplaceable : w.numbering.placeable c handle with
    | error e =>
      rw [hplace, hplaceable]
      exact renders_query_bind (k := fun _ => .error e) hw (closeFile_result none file)
        fun _ _ => renders_throw hw _
    | ok =>
      refine renders_addFile_bind hw fun w' hnumbering hw' hadded => ?_
      have hinstall := installHandle_bind_renders hw' c handle hadded
      rw [hnumbering, hplace, hplaceable] at hinstall
      rw [hplace, hplaceable]
      exact hinstall.of_success

/-- Reserves a number for work that is still to be done, and gives it back if the work fails. -/
def TableCall.Reserves : TableCall → Prop
  | .openPath .. | .openHeld .. | .duplicate .. | .reopen .. => True
  | _ => False

/-- A call that reserves nothing for work to come answers what the map says, and leaves the
numbering that the map says, however large the tables are. -/
theorem TableCall.act_renders_of_not_reserves (hw : w.Orderly) {call : TableCall}
    (hcall : ¬call.Reserves) (outcome : Except Error Unit) :
    call.act.Renders w.numbering w (w.numbering.answer outcome call) := by
  cases call with
  | openPath | openHeld | duplicate | reopen => exact absurd trivial hcall
  | duplicateTo t handle target =>
    have hmap := renders_map (g := Reply.handle) (duplicateTo_renders hw t handle target)
    rwa [bind_assoc] at hmap
  | close t handle =>
    have hmap := renders_map (g := fun _ => Reply.done) (close_renders hw t handle)
    rw [bind_assoc] at hmap
    rwa [← bind_pure_comp] at hmap
  | closeAll c =>
    exact renders_bind (emptyTable_renders hw c) fun w' hnumbering hw' _ =>
      renders_pure hw' hnumbering Reply.done
  | allocate c => exact renders_map (allocateHandle_renders hw c)
  | bind c handle given =>
    have hmap := renders_map (g := fun _ => Reply.done) (bindGiven_renders hw c handle given)
    rw [bind_assoc] at hmap
    rwa [← bind_pure_comp] at hmap
  | free c handle =>
    exact renders_bind (freeHandle_renders hw c handle) fun w' hnumbering hw' _ =>
      renders_bind (dropDisplaced_renders hw' _) fun w'' hnumbering' hw'' _ =>
        renders_pure hw'' (hnumbering'.trans hnumbering) _
  | install c handle given =>
    have hmap := renders_map (g := Reply.displaced) (installGiven_renders hw c handle given)
    rwa [bind_assoc] at hmap
  | lookup c handle =>
    exact renders_query_bind hw (result_lookupHandle c handle) fun f _ =>
      renders_pure hw rfl (Reply.file f)

/-- A call answers what the map says, and leaves the numbering that the map says. -/
theorem TableCall.act_renders (hlaws : Backends.Discreet excused) (hw : w.Orderly)
    (hsmall : w.numbering.Small) (call : TableCall) :
    call.act.Renders w.numbering w (w.numbering.answer (w.outcome call) call) := by
  cases call with
  | openPath t base path flags mode =>
    exact renders_map (openPath_renders hlaws hw t base path flags mode (hsmall.inReach _))
  | openHeld t n flags =>
    exact renders_map (openHeld_renders hlaws hw t n flags (hsmall.inReach _))
  | duplicate t handle =>
    have hmap := renders_map (g := Reply.handle)
      (duplicate_renders hw t handle (hsmall.inReach _))
    rwa [bind_assoc] at hmap
  | reopen t handle =>
    have hmap := renders_map (g := Reply.handle)
      (reopen_renders hlaws hw t handle (hsmall.inReach _))
    rwa [bind_assoc] at hmap
  | duplicateTo | close | closeAll | allocate | bind | free | install | lookup =>
    refine act_renders_of_not_reserves hw ?_ _
    exact not_false

/-- The work of an open calls a table full only as far as a driver does. -/
theorem World.outcome_full (hlaws : Backends.Discreet excused) {call : TableCall}
    (hfull : w.outcome call = .error .tooManyOpenFiles) : excused := by
  have hmap : ∀ {r : Except Error OpenFile}, (r.map fun _ => ()) = .error .tooManyOpenFiles →
      r = .error .tooManyOpenFiles := by
    intro r hr
    cases r with
    | error e => exact congrArg _ (Except.error.inj hr)
    | ok file => cases hr
  cases call with
  | openPath t base path flags mode =>
    exact (pathOpening_spares hlaws t base path flags mode _).2 (hmap hfull)
  | openHeld t n flags => exact (openFound_spares hlaws n flags _).2 (hmap hfull)
  | reopen t handle =>
    rcases Numbering.bind_eq_error.1 hfull with hfile | ⟨file, -, hfull⟩
    · exact ((openFileOf_discreet t handle) w).2 hfile
    · exact (openFound_spares hlaws file.node _ _).2 (hmap hfull)
  | duplicate | duplicateTo | close | closeAll | allocate | bind | free | install | lookup =>
    cases hfull

end

/-! ## Runs -/

namespace TableCall

/-- The answers of calls in a row and the world they leave. -/
def run : List TableCall → World → List (Except Error Reply) × World
  | [], w => ([], w)
  | call :: rest, w =>
    let done := call.act w
    let (replies, last) := run rest done.world
    (done.result :: replies, last)

/-- Calls in a row, each with how the work of an open comes out. -/
def outcomes : List TableCall → World → List (TableCall × Except Error Unit)
  | [], _ => []
  | call :: rest, w => (call, w.outcome call) :: outcomes rest (call.act w).world

/-- What a caller may rely on in a call. -/
structure Honest (excused : Prop) (w : World) (call : TableCall) : Prop where
  /-- The call is a step of the map. -/
  step : ((call.act w).result, (call.act w).world.numbering) =
    w.numbering.step call (w.outcome call)
  /-- A new number is the least that is neither bound nor reserved. -/
  least : ∀ c r, w.numbering.giver call = some c → (call.act w).result = .ok r →
    ∃ i, r = .handle (.ofSlot i (w.numbering.kernel c)) ∧ i < w.numbering.limit c ∧
      w.numbering.slot c i = .free ∧ ∀ j < i, w.numbering.slot c j ≠ .free
  /-- Where all numbers are bound or reserved, the call fails for that. -/
  full : ∀ c, w.numbering.giver call = some c → w.numbering.Asks call → w.numbering.Full c →
    (call.act w).result = .error .tooManyOpenFiles
  /-- And only there, unless it is what a driver answers to an open. -/
  left : (call.act w).result = .error .tooManyOpenFiles →
    (w.outcome call = .error .tooManyOpenFiles ∧ excused) ∨
      ∃ c, w.numbering.giver call = some c ∧ w.numbering.Asks call ∧ w.numbering.Full c
  /-- A call that fails leaves the map as it was. -/
  failed : ∀ e, (call.act w).result = .error e → (call.act w).world.numbering = w.numbering
  /-- Other numbers, in any context, keep what they were bound to. -/
  elsewhere : ∀ c i, ¬w.numbering.Touches c i call →
    (call.act w).world.numbering.slot c i = w.numbering.slot c i
  /-- What is still bound has not changed itself. -/
  same : ∀ c i f, f < w.numbering.next → (call.act w).world.numbering.slot c i = .taken f →
    (call.act w).world.files.get? f = w.files.get? f

variable {excused : Prop} {w : World}

theorem honest (hlaws : Backends.Discreet excused) (hw : w.Orderly) (hsmall : w.numbering.Small)
    (call : TableCall) :
    call.Honest excused w := by
  obtain ⟨hresult, hnumbering, horderly, hretains⟩ := call.act_renders hlaws hw hsmall
  refine ⟨?_, ?_, ?_, ?_, ?_, ?_, ?_⟩
  · exact Prod.ext hresult hnumbering
  · intro c r hgiver hok
    rw [hresult] at hok
    cases hanswer : w.numbering.answer (w.outcome call) call with
    | error e =>
      rw [hanswer] at hok
      cases hok
    | ok found =>
      rw [hanswer] at hok
      cases hok
      obtain ⟨i, hreply, hleast⟩ := Numbering.answer_gives hgiver hanswer
      exact ⟨i, hreply, Numbering.least_eq_some_iff.1 hleast⟩
  · intro c hgiver hasks hfull
    rw [hresult, Numbering.answer_full hgiver hasks hfull]
    rfl
  · intro herror
    rw [hresult] at herror
    cases hanswer : w.numbering.answer (w.outcome call) call with
    | error e =>
      rw [hanswer] at herror
      cases herror
      exact (Numbering.full_of_answer hanswer).imp_left fun houtcome =>
        ⟨houtcome, World.outcome_full hlaws houtcome⟩
    | ok found =>
      rw [hanswer] at herror
      cases herror
  · intro e herror
    rw [hresult] at herror
    cases hanswer : w.numbering.answer (w.outcome call) call with
    | error e =>
      rw [hanswer] at hnumbering
      exact hnumbering
    | ok found =>
      rw [hanswer] at herror
      cases herror
  · intro c i hnot
    cases hanswer : w.numbering.answer (w.outcome call) call with
    | error e =>
      rw [hanswer] at hnumbering
      rw [hnumbering]
      rfl
    | ok found =>
      rw [hanswer] at hnumbering
      rw [hnumbering]
      exact (Numbering.answer_within hanswer).slot c i hnot
  · intro c i f hlt hbound
    rcases hretains.file f hlt with hsame | hgone
    · exact hsame
    · have hhas := horderly.bound c i f hbound
      rw [Arena.has, hgone] at hhas
      cases hhas

theorem orderly (hlaws : Backends.Discreet excused) (hw : w.Orderly) (hsmall : w.numbering.Small)
    (call : TableCall) : (call.act w).world.Orderly ∧ (call.act w).world.numbering.Small := by
  obtain ⟨-, hnumbering, horderly, -⟩ := call.act_renders hlaws hw hsmall
  refine ⟨horderly, fun c => ?_⟩
  rw [hnumbering]
  cases hanswer : w.numbering.answer (w.outcome call) call with
  | error e => exact hsmall c
  | ok found =>
    show found.2.limit c ≤ Handle.slotLimit
    rw [(Numbering.answer_within hanswer).limit]
    exact hsmall c

/-- The tables are the maps of `Numbering` along every run of calls: the answers are those of the
map, so is what is left, and each call on the way does what a caller relies on. -/
theorem run_serves (hlaws : Backends.Discreet excused) (hw : w.Orderly)
    (hsmall : w.numbering.Small) (calls : List TableCall) :
    ((run calls w).1, (run calls w).2.numbering) =
        Numbering.serve (outcomes calls w) w.numbering ∧
      ∀ before call after, calls = before ++ call :: after →
        call.Honest excused (run before w).2 := by
  induction calls generalizing w with
  | nil => exact ⟨rfl, fun before call after h => absurd h.symm (by simp)⟩
  | cons first rest ih =>
    obtain ⟨hw', hsmall'⟩ := orderly hlaws hw hsmall first
    obtain ⟨hserve, hhonest⟩ := ih hw' hsmall'
    have hfirst := honest hlaws hw hsmall first
    refine ⟨?_, fun before call after hsplit => ?_⟩
    · rw [outcomes, Numbering.serve, ← hfirst.step]
      dsimp only
      rw [← hserve]
      rfl
    · cases before with
      | nil =>
        cases hsplit
        exact hfirst
      | cons _ before =>
        cases hsplit
        exact hhonest before call after rfl

/-- A kernel's table of two numbers and a task's of one, with nothing open. -/
def twoTables : World where
  limits := {}
  contexts := #[⟨true, { limit := 2 }, 0⟩, ⟨false, { limit := 1 }, 0⟩]
  tasks := #[{ context := 1 }]

/-- A number is reserved, an open finds the table full, and once the number is free the open gets
it; a duplicate in the kernel's table outlives the task's own. -/
def someCalls : List TableCall :=
  [.allocate 1, .openHeld 0 0 ⟨OpenFlags.pathBit⟩, .free 1 ⟨0⟩, .openHeld 0 0 ⟨OpenFlags.pathBit⟩,
    .duplicateTo 0 ⟨0⟩ (.ofSlot 1 true), .closeAll 1, .lookup 1 ⟨0⟩, .lookup 0 (.ofSlot 1 true)]

omit [Backends] in
theorem orderly_twoTables : twoTables.Orderly := by
  refine ⟨fun c context hc => ?_, fun c i f hbound => ?_⟩
  · rcases c with _ | _ | c <;> cases hc
    · exact .empty 2
    · exact .empty 1
  · rcases c with _ | _ | c <;> cases hbound

omit [Backends] in
theorem small_twoTables : twoTables.numbering.Small := by
  intro c
  rcases c with _ | _ | c <;> show (_ : Nat) ≤ Handle.slotLimit
  · decide
  · decide
  · exact Nat.zero_le _

omit [Backends] in
/-- The memory filesystem serves these calls as the map does. -/
theorem run_serves_someCalls :
    (@Backends.Discreet ramBackends False ∧ twoTables.Orderly ∧ twoTables.numbering.Small) ∧
      ((@run ramBackends someCalls twoTables).1,
          (@run ramBackends someCalls twoTables).2.numbering) =
        Numbering.serve (@outcomes ramBackends someCalls twoTables) twoTables.numbering ∧
      (@run ramBackends someCalls twoTables).1 =
        [.ok (.handle ⟨0⟩), .error .tooManyOpenFiles, .ok (.displaced none), .ok (.handle ⟨0⟩),
          .ok (.handle (.ofSlot 1 true)), .ok .done, .error .badHandle, .ok (.file 0)] :=
  ⟨⟨ram_discreet, orderly_twoTables, small_twoTables⟩,
    (@run_serves ramBackends False twoTables ram_discreet orderly_twoTables small_twoTables
      someCalls).1,
    by decide +kernel⟩

end TableCall

end VirtualFs
