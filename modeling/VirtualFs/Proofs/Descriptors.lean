/-
Descriptors at the system call boundary. A number that is negative or carries
the bit of the kernel's table is refused wherever it is given, before anything
has happened; no such number is ever handed out; and what a task calls stays in
its own context, however often it calls and with whatever it asks for.
-/
import VirtualFs.Proofs.Failure
import VirtualFs.Proofs.Following
import VirtualFs.Proofs.MountHistory
import VirtualFs.Proofs.OwnContext
import VirtualFs.Proofs.StreamRuns
import VirtualFs.Proofs.TableCalls

namespace VirtualFs

open World (SameBeyond)

/-! ## Contexts of an instance -/

namespace World

/-- A stretch of a run in which contexts stay, each the kernel's or not as it was. -/
def Enduring (w : World) (_ : List Event) (w' : World) : Prop :=
  ∀ (c : ContextId) context, w.contexts[c]? = some context →
    ∃ context', w'.contexts[c]? = some context' ∧ context'.kernel = context.kernel

theorem Enduring.of_contexts {w w' : World} {t : List Event} (h : w'.contexts = w.contexts) :
    Enduring w t w' :=
  fun c context hget => ⟨context, by rw [h]; exact hget, rfl⟩

instance : Following Enduring where
  quiet _ := .of_contexts rfl
  trans h h' c context hget := by
    obtain ⟨context', hget', hkernel⟩ := h c context hget
    obtain ⟨context'', hget'', hkernel'⟩ := h' c context' hget'
    exact ⟨context'', hget'', hkernel'.trans hkernel⟩
  beside h := h.kernel
  settled w := .of_contexts w.spares_settle.contexts
  moved _ _ _ := .of_contexts rfl
  flagged _ _ _ := .of_contexts rfl
  turned _ _ _ := .of_contexts rfl
  seen _ h := h
  tables _ c _ := kept_setContext c fun _ => rfl
  removed _ _ := .of_contexts rfl
  spared h := .of_contexts h.contexts
  pushed _ _ := .of_contexts rfl

variable {w : World}

/-- The kernel's context is there from the start. -/
theorem Reachable.kernel_kernelContext (hw : w.Reachable) :
    (w.context kernelContext).kernel = true := by
  have hthere : ∃ context, w.contexts[kernelContext]? = some context ∧ context.kernel = true := by
    obtain ⟨limits, hsteps⟩ := hw
    induction hsteps with
    | refl => exact ⟨_, rfl, rfl⟩
    | tail _ hstep ih =>
      obtain ⟨op, rfl⟩ := hstep
      obtain ⟨context, hget, hkernel⟩ := ih
      obtain ⟨context', hget', hsame⟩ := op.follows (R := Enduring) _ _ context hget
      exact ⟨context', hget', hsame.trans hkernel⟩
  obtain ⟨context, hget, hkernel⟩ := hthere
  rwa [context_of_getElem? hget]

/-- No move changes the limits of an instance. -/
theorem WellFormed.limits_of_moves {range : Range} {w' : World} (h : w.WellFormed)
    (hmoves : Relation.ReflTransGen (Move range) w w') : w'.limits = w.limits := by
  induction hmoves with
  | refl => rfl
  | tail hmoves hmove ih =>
    have hlawful := (Edits.wellFormed (h.edits_of_moves hmoves) h).lawful
    exact (hlawful.limits_of_move hmove).trans ih

theorem WellFormed.limits_run (h : w.WellFormed) (op : Operation) :
    (op.run w).limits = w.limits := by
  have hsteady : w.Steady .all := h.steady
  have hmoves := op.moves hsteady (fun _ _ _ _ _ => trivial) (fun _ _ _ => trivial)
    fun _ _ => trivial
  rw [op.run_eq_after]
  exact h.limits_of_moves hmoves

/-- A table has as many numbers as the limits say; a context that is not there has none. -/
theorem WellFormed.limit_le (h : w.WellFormed) (c : ContextId) :
    w.numbering.limit c ≤ w.limits.handles := by
  rw [numbering_limit]
  cases hget : w.contexts[c]? with
  | none =>
    rw [context_of_getElem?_none hget]
    exact Nat.zero_le _
  | some context =>
    rw [context_of_getElem? hget, (h.held.table c context hget).limit_eq]

/-- The numbers of all tables leave the bit of the kernel's table alone. -/
theorem WellFormed.small (h : w.WellFormed) (hlimit : w.limits.handles ≤ Handle.slotLimit) :
    w.numbering.Small :=
  fun c => Nat.le_trans (h.limit_le c) hlimit

end World

/-- A duplicate onto a number of the caller's choice has that number. -/
theorem duplicateTo_eq_ok {w : World} (hw : w.Orderly) {t : TaskId} {h target copy : Handle}
    (hok : (duplicateTo t h target w).result = .ok copy) : copy = target := by
  have hresult := (duplicateTo_renders hw t h target).result
  rw [hok] at hresult
  cases hcopied : w.numbering.copied h t target with
  | error e =>
    rw [hcopied] at hresult
    cases hresult
  | ok after =>
    rw [hcopied] at hresult
    exact Except.ok.inj hresult

/-! ## What is refused -/

namespace Syscall

variable {α β : Type}

/-- Fails in every world, and leaves it as it is. -/
structure Refuses (x : Sys α) : Prop where
  idle : Idle x
  error : ∀ w, ∃ e, (x w).result = .error e

theorem refuses_throw (e : Errno) : Refuses (throw e : Sys α) := ⟨idle_throw e, fun _ => ⟨e, rfl⟩⟩

/-- Nothing comes after a refusal. -/
theorem Refuses.bind {x : Sys α} (h : Refuses x) (f : α → Sys β) : Refuses (x >>= f) := by
  have hrun : ∀ w, ∃ e t, x w = { result := .error e, world := w, trace := t } := fun w => by
    obtain ⟨e, he⟩ := h.error w
    exact ⟨e, (x w).trace, by rw [← he]; exact congrArg (Outcome.mk _ · _) (h.idle w)⟩
  refine ⟨fun w => ?_, fun w => ?_⟩ <;> obtain ⟨e, t, hrun⟩ := hrun w
  · rw [Action.after, Action.bind_error hrun]
  · exact ⟨e, by rw [Action.bind_error hrun]⟩

/-- What only looks may come before a refusal. -/
theorem refuses_bind_of_idle {x : Sys α} (hx : Idle x) {f : α → Sys β} (hf : ∀ a, Refuses (f a)) :
    Refuses (x >>= f) := by
  refine ⟨idle_bind hx fun a => (hf a).idle, fun w => ?_⟩
  rcases hrun : x w with ⟨e | a, w', t⟩
  · exact ⟨e, by rw [Action.bind_error hrun]⟩
  · obtain ⟨e, he⟩ := (hf a).error w'
    exact ⟨e, by rw [Action.bind_ok hrun]; exact he⟩

theorem Refuses.map {x : Sys α} (h : Refuses x) (g : α → β) : Refuses (g <$> x) := by
  rw [← bind_pure_comp]
  exact h.bind _

section

variable {fd : Int32} (hfd : ¬Plain fd)

include hfd

theorem refuses_handleOf : Refuses (handleOf fd) := by
  rw [handleOf_eq, if_neg hfd]
  exact refuses_throw _

/-- A call that is first of all given a descriptor. -/
theorem refuses_handle (f : Handle → Sys β) : Refuses (handleOf fd >>= f) :=
  (refuses_handleOf hfd).bind f

theorem refuses_baseOf (hcwd : fd ≠ atCwd) : Refuses (baseOf fd) := by
  rw [baseOf, if_neg hcwd]
  exact (refuses_handleOf hfd).map _

/-- A call that is first of all given what relative paths start from. -/
theorem refuses_base (hcwd : fd ≠ atCwd) (f : Option Handle → Sys β) : Refuses (baseOf fd >>= f) :=
  (refuses_baseOf hfd hcwd).bind f

theorem refuses_dup3 {oldfd newfd : Int32} (hused : fd = oldfd ∨ fd = newfd) (t : TaskId)
    (flags : UInt32) : Refuses (dup3 t oldfd newfd flags) := by
  rw [dup3]
  split
  · exact refuses_throw _
  · obtain rfl | rfl := hused
    · exact refuses_handle hfd _
    · exact refuses_bind_of_idle (idle_handleOf _) fun _ => refuses_handle hfd _

end

end Syscall

/-! ## What calls are given and return -/

namespace SystemCall

open Syscall (Plain atCwd)

/-- What a system call returns. -/
inductive Returned where
  | descriptor (number : Int)
  | number (number : Int)
  | filled (filled : Syscall.Filled)
  | entry (entry : Option DirEntry)
  | status (status : Status)

/-- A system call as it is run, with what it returns. -/
def act : SystemCall → Syscall.Sys Returned
  | openat t dirfd path flags mode => .descriptor <$> Syscall.openat t dirfd path flags mode
  | close t fd => .number <$> Syscall.close t fd
  | readv t fd buffers => .filled <$> Syscall.readv t fd buffers
  | read t fd buffer => .filled <$> Syscall.read t fd buffer
  | writev t fd segments => .number <$> Syscall.writev t fd segments
  | write t fd data => .number <$> Syscall.write t fd data
  | pread64 t fd buffer offset => .filled <$> Syscall.pread64 t fd buffer offset
  | pwrite64 t fd data offset => .number <$> Syscall.pwrite64 t fd data offset
  | lseek t fd offset whence => .number <$> Syscall.lseek t fd offset whence
  | sync => .number <$> Syscall.sync
  | fsync t fd => .number <$> Syscall.fsync t fd
  | ioctl t fd request input buffer => .filled <$> Syscall.ioctl t fd request input buffer
  | dup t fd => .descriptor <$> Syscall.dup t fd
  | dup3 t oldfd newfd flags => .descriptor <$> Syscall.dup3 t oldfd newfd flags
  | fcntl t fd command argument => .number <$> Syscall.fcntl t fd command argument
  | readdir t fd => .entry <$> Syscall.readdir t fd
  | mkdirat t dirfd path mode => .number <$> Syscall.mkdirat t dirfd path mode
  | unlinkat t dirfd path flags => .number <$> Syscall.unlinkat t dirfd path flags
  | renameat t olddirfd oldpath newdirfd newpath =>
    .number <$> Syscall.renameat t olddirfd oldpath newdirfd newpath
  | symlinkat t target dirfd path => .number <$> Syscall.symlinkat t target dirfd path
  | readlinkat t dirfd path buffer => .filled <$> Syscall.readlinkat t dirfd path buffer
  | fstat t fd => .status <$> Syscall.fstat t fd
  | fstatat t dirfd path flags => .status <$> Syscall.fstatat t dirfd path flags
  | faccessat t dirfd path mode => .number <$> Syscall.faccessat t dirfd path mode
  | mount t device dir fs flags args => .number <$> Syscall.mount t device dir fs flags args
  | chdir t path => .number <$> Syscall.chdir t path
  | fchdir t fd => .number <$> Syscall.fchdir t fd
  | getcwd t buffer => .filled <$> Syscall.getcwd t buffer

theorem after_act (call : SystemCall) (w : World) : call.act.after w = call.run w := by
  cases call <;> exact Action.after_map _ _ w

/-- A call is given a number as a descriptor. The one that stands for the task's own directory is
none where a call asks for a base. -/
def Uses (fd : Int32) : SystemCall → Prop
  | close _ n | readv _ n _ | read _ n _ | writev _ n _ | write _ n _ | pread64 _ n ..
  | pwrite64 _ n .. | lseek _ n .. | fsync _ n | ioctl _ n .. | dup _ n | fcntl _ n ..
  | readdir _ n | fstat _ n | fchdir _ n => fd = n
  | dup3 _ oldfd newfd _ => fd = oldfd ∨ fd = newfd
  | openat _ dirfd .. | mkdirat _ dirfd .. | unlinkat _ dirfd .. | symlinkat _ _ dirfd _
  | readlinkat _ dirfd .. | fstatat _ dirfd .. | faccessat _ dirfd .. => fd = dirfd ∧ fd ≠ atCwd
  | renameat _ olddirfd _ newdirfd _ => (fd = olddirfd ∨ fd = newdirfd) ∧ fd ≠ atCwd
  | sync | mount .. | chdir .. | getcwd .. => False

/-- **A number that is negative or of the kernel's table is refused wherever it is given.** -/
theorem refuses {call : SystemCall} {fd : Int32} (huses : call.Uses fd) (hfd : ¬Plain fd) :
    Syscall.Refuses call.act := by
  cases call with
  | close _ _ | readv _ _ _ | read _ _ _ | writev _ _ _ | write _ _ _ | pread64 _ _ _ _
  | pwrite64 _ _ _ _ | fsync _ _ | ioctl _ _ _ _ _ | dup _ _ | fcntl _ _ _ _ | readdir _ _
  | fstat _ _ | fchdir _ _ =>
    cases huses
    exact (Syscall.refuses_handle hfd _).map _
  | openat _ _ _ _ _ | mkdirat _ _ _ _ | unlinkat _ _ _ _ | symlinkat _ _ _ _
  | readlinkat _ _ _ _ | fstatat _ _ _ _ | faccessat _ _ _ _ =>
    obtain ⟨rfl, hcwd⟩ := huses
    exact (Syscall.refuses_base hfd hcwd _).map _
  | lseek _ _ _ _ =>
    cases huses
    exact (Syscall.refuses_bind_of_idle (Syscall.idle_settled _) fun _ =>
      Syscall.refuses_handle hfd _).map _
  | dup3 _ _ _ _ => exact (Syscall.refuses_dup3 hfd huses _ _).map _
  | renameat _ _ _ _ _ =>
    obtain ⟨rfl | rfl, hcwd⟩ := huses
    · exact (Syscall.refuses_base hfd hcwd _).map _
    · exact (Syscall.refuses_bind_of_idle (Syscall.idle_baseOf _) fun _ =>
        Syscall.refuses_base hfd hcwd _).map _
  | _ => exact huses.elim

end SystemCall

/-! ## Numbers that are returned -/

namespace Syscall

variable {α β : Type} {w : World}

theorem result_bind_of_idle {x : Sys α} (hx : Idle x) {f : α → Sys β} {b : β} :
    ((x >>= f) w).result = .ok b ↔ ∃ a, (x w).result = .ok a ∧ (f a w).result = .ok b := by
  have hworld : (x w).world = w := hx w
  rw [Action.result_bind_eq_ok, hworld]

theorem result_perform_eq_ok {operation : Act α} {a : α} :
    (perform operation w).result = .ok a ↔ (operation w).result = .ok a := by
  have hattempt : (Action.attempt operation w : Outcome Errno _).result =
      .ok (operation w).result := rfl
  rw [perform, Action.result_bind_eq_ok, hattempt]
  cases (operation w).result with
  | ok b => simp [settled]
  | error cause => simp [settled, refusal, Action.result_bind_eq_ok]

/-- The numbers of a task's own table leave the bit of the kernel's alone. -/
theorem plain_ofSlot {slot : Nat} (h : slot < Handle.slotLimit) :
    Plain (Handle.ofSlot slot false).raw := by
  refine ⟨Handle.nonneg_ofSlot h false, ?_⟩
  have hbit := Handle.isKernel_ofSlot h false
  rwa [Handle.isKernel, bne_eq_false_iff_eq] at hbit

section

variable {t : TaskId} {n : Int} (hw : w.Reachable) (hlimit : w.limits.handles ≤ Handle.slotLimit)
  (hown : (w.context (w.task t).context).kernel = false)

include hw hlimit hown

/-- What a call of the tables gives a task in its own context. -/
theorem plain_of_given (call : TableCall)
    (hgiver : w.numbering.giver call = some (w.task t).context) {h : Handle}
    (hok : (call.act w).result = .ok (.handle h)) : Plain h.raw := by
  have hsmall := hw.wellFormed.small hlimit
  obtain ⟨i, hreply, hlt, -⟩ :=
    (call.honest standard_discreet hw.kept.orderly hsmall).least _ _ hgiver hok
  have hkernel : w.numbering.kernel (w.task t).context = false := hown
  rw [hkernel] at hreply
  cases hreply
  exact plain_ofSlot (Nat.lt_of_lt_of_le hlt (hsmall _))

theorem openat_plain {dirfd : Int32} {path : String} {flags mode : UInt32}
    (hok : (openat t dirfd path flags mode w).result = .ok n) :
    ∃ fd : Int32, n = fd.toInt ∧ Plain fd := by
  obtain ⟨base, -, hok⟩ := (result_bind_of_idle (idle_baseOf dirfd)).1 hok
  obtain ⟨h, hopened, hok⟩ := Action.result_bind_eq_ok.1 hok
  cases hok
  refine ⟨h.raw, rfl, plain_of_given hw hlimit hown (.openPath t base path _ mode) ?_
    (Action.result_map_eq_ok.2 ⟨h, result_perform_eq_ok.1 hopened, rfl⟩)⟩
  show some (w.contextOf t _) = _
  rw [OpenFlags.forKernel_without]
  rfl

theorem dup_plain {fd : Int32} (hok : (dup t fd w).result = .ok n) :
    ∃ fd : Int32, n = fd.toInt ∧ Plain fd := by
  obtain ⟨h, hhandle, hok⟩ := (result_bind_of_idle (idle_handleOf fd)).1 hok
  obtain ⟨copy, hcopied, hok⟩ := Action.result_bind_eq_ok.1 hok
  cases hok
  refine ⟨copy.raw, rfl, plain_of_given hw hlimit hown (.duplicate t h) ?_
    (Action.result_map_eq_ok.2 ⟨copy, result_perform_eq_ok.1 hcopied, rfl⟩)⟩
  show some (w.contextOf t h.isKernel) = _
  rw [handleOf_own hhandle]
  rfl

end

theorem dup3_plain {t : TaskId} {oldfd newfd : Int32} {flags : UInt32} {n : Int}
    (hw : w.Orderly) (hok : (dup3 t oldfd newfd flags w).result = .ok n) :
    ∃ fd : Int32, n = fd.toInt ∧ Plain fd := by
  rw [dup3] at hok
  split at hok
  · cases hok
  obtain ⟨h, -, hok⟩ := (result_bind_of_idle (idle_handleOf oldfd)).1 hok
  obtain ⟨target, htarget, hok⟩ := (result_bind_of_idle (idle_handleOf newfd)).1 hok
  obtain ⟨copy, hcopied, hok⟩ := Action.result_bind_eq_ok.1 hok
  cases hok
  obtain ⟨rfl, hplain⟩ := handleOf_eq_ok htarget
  obtain rfl := duplicateTo_eq_ok hw (result_perform_eq_ok.1 hcopied)
  exact ⟨newfd, rfl, hplain⟩

end Syscall

namespace SystemCall

open Syscall (Plain)

/-- **A number that a call hands out is neither negative nor of the kernel's table.** -/
theorem returned_plain {w : World} {t : TaskId} (hw : w.Reachable)
    (hlimit : w.limits.handles ≤ Handle.slotLimit)
    (hown : (w.context (w.task t).context).kernel = false) {call : SystemCall}
    (htask : ∀ s ∈ call.task, s = t) {n : Int}
    (hok : (call.act w).result = .ok (.descriptor n)) :
    ∃ fd : Int32, n = fd.toInt ∧ Plain fd := by
  cases call with
  | openat s _ _ _ _ =>
    obtain rfl := htask s rfl
    obtain ⟨_, hopened, hsame⟩ := Action.result_map_eq_ok.1 hok
    cases hsame
    exact Syscall.openat_plain hw hlimit hown hopened
  | dup s _ =>
    obtain rfl := htask s rfl
    obtain ⟨_, hcopied, hsame⟩ := Action.result_map_eq_ok.1 hok
    cases hsame
    exact Syscall.dup_plain hw hlimit hown hcopied
  | dup3 s _ _ _ =>
    obtain ⟨_, hcopied, hsame⟩ := Action.result_map_eq_ok.1 hok
    cases hsame
    exact Syscall.dup3_plain hw.kept.orderly hcopied
  | _ =>
    obtain ⟨_, -, hsame⟩ := Action.result_map_eq_ok.1 hok
    cases hsame

end SystemCall

/-! ## Runs -/

namespace SystemCall

open Syscall (Plain)

variable {w : World} {t : TaskId}

/-- What a context may rely on when a task of its own makes a call. -/
structure StaysIn (c : ContextId) (w : World) (call : SystemCall) : Prop where
  /-- Nothing changes beyond the context. -/
  beyond : SameBeyond c w (call.run w)
  /-- What is handed out is neither negative nor of the kernel's table. -/
  returned : ∀ n, (call.act w).result = .ok (.descriptor n) →
    ∃ fd : Int32, n = fd.toInt ∧ Plain fd
  /-- A number that is one or the other is refused, and nothing has changed. -/
  refused : ∀ fd, call.Uses fd → ¬Plain fd →
    (∃ e, (call.act w).result = .error e) ∧ call.run w = w

theorem sameBeyond {call : SystemCall} (htask : ∀ s ∈ call.task, s = t) (w : World) :
    SameBeyond (w.task t).context w (call.run w) := by
  rcases call.run_amounts w with hsame | ⟨op, ⟨s, hcaller, hown⟩, hrun⟩
  · rw [hsame]
    exact .refl _ w
  · obtain rfl := htask s hcaller
    rw [hrun]
    exact hown.sameBeyond w

theorem staysIn (hw : w.Reachable) (hlimit : w.limits.handles ≤ Handle.slotLimit)
    (hown : (w.context (w.task t).context).kernel = false) {call : SystemCall}
    (htask : ∀ s ∈ call.task, s = t) : call.StaysIn (w.task t).context w where
  beyond := sameBeyond htask w
  returned _ hok := returned_plain hw hlimit hown htask hok
  refused fd huses hfd := by
    have hrefuses := refuses huses hfd
    exact ⟨hrefuses.error w, (call.after_act w).symm.trans (hrefuses.idle w)⟩

theorem reachable_run (hw : w.Reachable) (call : SystemCall) :
    (call.run w).Reachable ∧ (call.run w).limits = w.limits := by
  rcases call.run_amounts w with hsame | ⟨op, -, hrun⟩
  · rw [hsame]
    exact ⟨hw, rfl⟩
  · rw [hrun]
    exact ⟨hw.steps (.single ⟨op, rfl⟩), hw.wellFormed.limits_run op⟩

/-- The world that calls in a row leave. -/
def runAll (calls : List SystemCall) (w : World) : World := calls.foldl (fun w call => call.run w) w

/-- **System calls stay in the caller's context.** A task whose context is not marked as the
kernel's may call what it likes, as often as it likes and with any numbers, flags and paths. Other
contexts keep their tables and directories; so does every open file its position and flags unless a
number of the caller's context is bound to it. No number is handed out that is negative or of the
kernel's table, and a call that is given one fails before it has changed anything. -/
theorem runAll_stays_in_context (hw : w.Reachable) (hlimit : w.limits.handles ≤ Handle.slotLimit)
    (hown : (w.context (w.task t).context).kernel = false) (calls : List SystemCall)
    (hcalls : ∀ call ∈ calls, ∀ s ∈ call.task, s = t) :
    (w.task t).context ≠ kernelContext ∧ SameBeyond (w.task t).context w (runAll calls w) ∧
      ∀ before call after, calls = before ++ call :: after →
        call.StaysIn (w.task t).context (runAll before w) := by
  refine ⟨fun hkernel => ?_, ?_⟩
  · rw [hkernel, hw.kernel_kernelContext] at hown
    cases hown
  induction calls generalizing w with
  | nil => exact ⟨.refl _ w, fun before call after h => absurd h.symm (by simp)⟩
  | cons first rest ih =>
    have hfirst := staysIn hw hlimit hown (hcalls first List.mem_cons_self)
    obtain ⟨hw', hlimits⟩ := reachable_run hw first
    have htask : (first.run w).task t = w.task t := by
      rw [World.task, hfirst.beyond.tasks, World.task]
    -- The context is the caller's own before each call, and not the kernel's.
    obtain ⟨hbeyond, hstays⟩ := ih hw' (hlimits ▸ hlimit)
      (by rw [htask, hfirst.beyond.kernel]; exact hown)
      fun call hcall => hcalls call (List.mem_cons_of_mem _ hcall)
    rw [htask] at hbeyond hstays
    refine ⟨hfirst.beyond.trans hbeyond, fun before call after hsplit => ?_⟩
    cases before with
    | nil =>
      cases hsplit
      exact hfirst
    | cons _ before =>
      cases hsplit
      exact hstays before call after rfl

/-- Two tasks, and a file that the second and the kernel have open. -/
def neighbours : World :=
  Operation.runAll
    [.addContext false, .addTask 1, .addContext false, .addTask 2,
      .openPath 1 none "/k" ⟨OpenFlags.createBit ||| OpenFlags.readWriteMode⟩ 0o644,
      .openPath 1 none "/k" ⟨OpenFlags.kernelBit⟩ 0]
    (World.fresh {})

/-- Asks for a number of the kernel's, copies what is given instead, and tries the kernel's own and
a negative one. -/
def reaching : List SystemCall :=
  [.openat 0 Syscall.atCwd "/k" (OpenFlags.kernelBit ||| OpenFlags.readWriteMode) 0, .dup 0 0,
    .write 0 1 ⟨#[1, 2]⟩, .close 0 0x40000000, .lseek 0 (-1) 0 0, .dup3 0 1 0x40000001 0]

/-- The first task reaches nothing of its neighbours', but the file both have a name for. -/
theorem runAll_stays_in_context_reaching :
    (neighbours.Reachable ∧ neighbours.limits.handles ≤ Handle.slotLimit ∧
      (neighbours.context (neighbours.task 0).context).kernel = false ∧
      ∀ call ∈ reaching, ∀ s ∈ call.task, s = 0) ∧
    (SameBeyond 1 neighbours (runAll reaching neighbours) ∧
      ∀ before call after, reaching = before ++ call :: after →
        call.StaysIn 1 (runAll before neighbours)) ∧
    (Syscall.openat 0 Syscall.atCwd "/k" (OpenFlags.kernelBit ||| OpenFlags.readWriteMode) 0
      neighbours).result = .ok 0 := by
  have hw : neighbours.Reachable := ⟨{}, World.steps_runAll _ _⟩
  have hlimit : neighbours.limits.handles ≤ Handle.slotLimit := by decide +kernel
  have hown : (neighbours.context (neighbours.task 0).context).kernel = false := by decide +kernel
  have hcalls : ∀ call ∈ reaching, ∀ s ∈ call.task, s = 0 := by
    simp [reaching, task]
  have hcontext : (neighbours.task 0).context = 1 := by decide +kernel
  have hstays := (runAll_stays_in_context hw hlimit hown reaching hcalls).2
  rw [hcontext] at hstays
  exact ⟨⟨hw, hlimit, hown, hcalls⟩, hstays, by decide +kernel⟩

end SystemCall

end VirtualFs
