/-
What system calls do to a world. A call turns its arguments into those of an
operation or of a question; unless an argument ends the call first, it does to
the world what the operation does, and a question does nothing. The operation is
the caller's, and works on handles of the caller's own table.
-/
import VirtualFs.Syscall
import VirtualFs.Proofs.Operations

namespace VirtualFs

/-- A system call with its arguments. -/
inductive SystemCall where
  | openat (t : TaskId) (dirfd : Int32) (path : String) (flags mode : UInt32)
  | close (t : TaskId) (fd : Int32)
  | readv (t : TaskId) (fd : Int32) (buffers : List ByteArray)
  | read (t : TaskId) (fd : Int32) (buffer : ByteArray)
  | writev (t : TaskId) (fd : Int32) (segments : List ByteArray)
  | write (t : TaskId) (fd : Int32) (data : ByteArray)
  | pread64 (t : TaskId) (fd : Int32) (buffer : ByteArray) (offset : Int)
  | pwrite64 (t : TaskId) (fd : Int32) (data : ByteArray) (offset : Int)
  | lseek (t : TaskId) (fd : Int32) (offset : Int) (whence : UInt32)
  | sync
  | fsync (t : TaskId) (fd : Int32)
  | ioctl (t : TaskId) (fd : Int32) (request : UInt32) (input buffer : ByteArray)
  | dup (t : TaskId) (fd : Int32)
  | dup3 (t : TaskId) (oldfd newfd : Int32) (flags : UInt32)
  | fcntl (t : TaskId) (fd : Int32) (command argument : UInt32)
  | readdir (t : TaskId) (fd : Int32)
  | mkdirat (t : TaskId) (dirfd : Int32) (path : String) (mode : UInt32)
  | unlinkat (t : TaskId) (dirfd : Int32) (path : String) (flags : UInt32)
  | renameat (t : TaskId) (olddirfd : Int32) (oldpath : String) (newdirfd : Int32)
    (newpath : String)
  | symlinkat (t : TaskId) (target : String) (dirfd : Int32) (path : String)
  | readlinkat (t : TaskId) (dirfd : Int32) (path : String) (buffer : ByteArray)
  | fstat (t : TaskId) (fd : Int32)
  | fstatat (t : TaskId) (dirfd : Int32) (path : String) (flags : UInt32)
  | faccessat (t : TaskId) (dirfd : Int32) (path : String) (mode : UInt32)
  | mount (t : TaskId) (device dir fs : String) (flags : UInt32) (args : String)
  | chdir (t : TaskId) (path : String)
  | fchdir (t : TaskId) (fd : Int32)
  | getcwd (t : TaskId) (buffer : ByteArray)

/-- The world a system call leaves. -/
def SystemCall.run : SystemCall → World → World
  | openat t dirfd path flags mode => (Syscall.openat t dirfd path flags mode).after
  | close t fd => (Syscall.close t fd).after
  | readv t fd buffers => (Syscall.readv t fd buffers).after
  | read t fd buffer => (Syscall.read t fd buffer).after
  | writev t fd segments => (Syscall.writev t fd segments).after
  | write t fd data => (Syscall.write t fd data).after
  | pread64 t fd buffer offset => (Syscall.pread64 t fd buffer offset).after
  | pwrite64 t fd data offset => (Syscall.pwrite64 t fd data offset).after
  | lseek t fd offset whence => (Syscall.lseek t fd offset whence).after
  | sync => Syscall.sync.after
  | fsync t fd => (Syscall.fsync t fd).after
  | ioctl t fd request input buffer => (Syscall.ioctl t fd request input buffer).after
  | dup t fd => (Syscall.dup t fd).after
  | dup3 t oldfd newfd flags => (Syscall.dup3 t oldfd newfd flags).after
  | fcntl t fd command argument => (Syscall.fcntl t fd command argument).after
  | readdir t fd => (Syscall.readdir t fd).after
  | mkdirat t dirfd path mode => (Syscall.mkdirat t dirfd path mode).after
  | unlinkat t dirfd path flags => (Syscall.unlinkat t dirfd path flags).after
  | renameat t olddirfd oldpath newdirfd newpath =>
    (Syscall.renameat t olddirfd oldpath newdirfd newpath).after
  | symlinkat t target dirfd path => (Syscall.symlinkat t target dirfd path).after
  | readlinkat t dirfd path buffer => (Syscall.readlinkat t dirfd path buffer).after
  | fstat t fd => (Syscall.fstat t fd).after
  | fstatat t dirfd path flags => (Syscall.fstatat t dirfd path flags).after
  | faccessat t dirfd path mode => (Syscall.faccessat t dirfd path mode).after
  | mount t device dir fs flags args => (Syscall.mount t device dir fs flags args).after
  | chdir t path => (Syscall.chdir t path).after
  | fchdir t fd => (Syscall.fchdir t fd).after
  | getcwd t buffer => (Syscall.getcwd t buffer).after

/-- The task that makes a call. To flush all volumes is nobody's. -/
def SystemCall.task : SystemCall → Option TaskId
  | sync => none
  | openat t .. | close t .. | readv t .. | read t .. | writev t .. | write t .. | pread64 t ..
  | pwrite64 t .. | lseek t .. | fsync t .. | ioctl t .. | dup t .. | dup3 t .. | fcntl t ..
  | readdir t .. | mkdirat t .. | unlinkat t .. | renameat t .. | symlinkat t .. | readlinkat t ..
  | fstat t .. | fstatat t .. | faccessat t .. | mount t .. | chdir t .. | fchdir t ..
  | getcwd t .. => some t

/-- A relative path starts from the task's directory, or from a handle of its own table. -/
def OwnBase (base : Option Handle) : Prop := ∀ h ∈ base, h.isKernel = false

/-- An operation of a task on handles of its own table, of those that system calls come to. -/
def Operation.Own (t : TaskId) : Operation → Prop
  | openPath s base _ flags _ => s = t ∧ OwnBase base ∧ flags.forKernel = false
  | makeDirectory s base .. | removeDirectory s base _ | unlink s base _ | makeSymlink s base .. =>
    s = t ∧ OwnBase base
  | rename s oldBase _ newBase _ => s = t ∧ OwnBase oldBase ∧ OwnBase newBase
  | close s h | duplicate s h | setFlags s h _ | readv s h _ | preadv s h .. | writev s h _
  | pwritev s h .. | seek s h .. | control s h .. | nextEntry s h | changeDirectoryTo s h =>
    s = t ∧ h.isKernel = false
  | duplicateTo s h target => s = t ∧ h.isKernel = false ∧ target.isKernel = false
  | mount s .. | changeDirectory s _ => s = t
  | _ => False

namespace Syscall

variable {α β : Type}

/-- A number that may stand for a handle of the caller's own table: it is not negative, and the bit
of the kernel's table is not set in it. -/
def Plain (fd : Int32) : Prop := 0 ≤ fd ∧ fd &&& Handle.kernelBit = 0

instance (fd : Int32) : Decidable (Plain fd) := inferInstanceAs (Decidable (_ ∧ _))

/-- A descriptor is turned into the handle of its number, never into one of the kernel's. -/
theorem handleOf_eq (fd : Int32) :
    handleOf fd = if Plain fd then pure ⟨fd⟩ else throw ebadf := by
  have hkernel : (⟨fd⟩ : Handle).isKernel = true ↔ fd &&& Handle.kernelBit ≠ 0 := bne_iff_ne
  rw [handleOf, Handle.ofRaw?]
  by_cases hneg : fd < 0
  · rw [if_pos hneg, if_neg fun hplain : Plain fd => Int32.not_lt.2 hplain.1 hneg]
  rw [if_neg hneg]
  dsimp only
  by_cases hbit : fd &&& Handle.kernelBit = 0
  · rw [if_neg (mt hkernel.1 (not_not_intro hbit)), if_pos ⟨Int32.not_lt.1 hneg, hbit⟩]
  · rw [if_pos (hkernel.2 hbit), if_neg fun hplain : Plain fd => hbit hplain.2]

/-- Leaves every world as it is. -/
def Idle (x : Sys α) : Prop := ∀ w, x.after w = w

/-- Does to a world what an operation of some sort does, or nothing. -/
def Amounts (P : Operation → Prop) (x : Sys α) : Prop :=
  ∀ w, x.after w = w ∨ ∃ op, P op ∧ x.after w = op.run w

variable {P : Operation → Prop}

theorem Idle.amounts {x : Sys α} (h : Idle x) : Amounts P x := fun w => .inl (h w)

/-! ## What does nothing -/

theorem idle_pure (a : α) : Idle (pure a : Sys α) := fun _ => rfl

theorem idle_throw (e : Errno) : Idle (throw e : Sys α) := fun _ => rfl

theorem idle_look (f : World → α) : Idle (Action.look f) := fun _ => rfl

theorem after_bind_of_idle {x : Sys α} (hx : Idle x) (f : α → Sys β) (w : World) :
    (x >>= f).after w = w ∨
      ∃ a, (x w).result = .ok a ∧ (x >>= f).after w = (f a).after w := by
  have hworld := hx w
  rcases hrun : x w with ⟨e | a, w', t⟩ <;> rw [Action.after, hrun] at hworld <;>
    obtain rfl : w' = w := hworld
  · exact .inl (by rw [Action.after, Action.bind_error hrun])
  · exact .inr ⟨a, rfl, by rw [Action.after, Action.bind_ok hrun, Action.after]⟩

theorem idle_bind {x : Sys α} {f : α → Sys β} (hx : Idle x) (hf : ∀ a, Idle (f a)) :
    Idle (x >>= f) := by
  intro w
  rcases after_bind_of_idle hx f w with hsame | ⟨a, -, hrest⟩
  · exact hsame
  · exact hrest.trans (hf a w)

theorem idle_refusal (cause : Error) : Idle (refusal cause : Sys α) :=
  idle_bind (x := Action.log (.callFailed cause)) (fun _ => rfl) fun _ => idle_throw _

theorem idle_settled (r : Except Error α) : Idle (settled r) := by
  cases r with
  | ok a => exact idle_pure a
  | error cause => exact idle_refusal cause

theorem idle_perform {operation : Act α} (h : ∀ w, operation.after w = w) :
    Idle (perform operation) :=
  idle_bind (x := Action.attempt operation) h idle_settled

theorem idle_ask (q : Query α) : Idle (ask q) := idle_perform fun _ => rfl

theorem idle_handleOf (fd : Int32) : Idle (handleOf fd) := by
  rw [handleOf_eq]
  split
  · exact idle_pure _
  · exact idle_throw _

theorem idle_baseOf (fd : Int32) : Idle (baseOf fd) := by
  rw [baseOf]
  split
  · exact idle_pure _
  · rw [← bind_pure_comp]
    exact idle_bind (idle_handleOf fd) fun _ => idle_pure _

theorem idle_positionOf (offset : Int) : Idle (positionOf offset) := by
  rw [positionOf]
  split
  · exact idle_pure _
  · exact idle_throw _

theorem idle_filled (r : Received Nat) : Idle (filled r) :=
  idle_bind (idle_settled r.result) fun _ => idle_pure _

/-! ## What does as operations do -/

theorem amounts_bind {x : Sys α} {f : α → Sys β} (hx : Idle x)
    (hf : ∀ a w, (x w).result = .ok a → Amounts P (f a)) : Amounts P (x >>= f) := by
  intro w
  rcases after_bind_of_idle hx f w with hsame | ⟨a, ha, hrest⟩
  · exact .inl hsame
  · rw [hrest]
    exact hf a w ha w

theorem Plain.isKernel {fd : Int32} (h : Plain fd) : (⟨fd⟩ : Handle).isKernel = false := by
  rw [Handle.isKernel, h.2, bne_self_eq_false]

theorem handleOf_eq_ok {fd : Int32} {h : Handle} {w : World}
    (hresult : (handleOf fd w).result = .ok h) : h = ⟨fd⟩ ∧ Plain fd := by
  rw [handleOf_eq] at hresult
  split at hresult
  · next hplain =>
    cases hresult
    exact ⟨rfl, hplain⟩
  · cases hresult

theorem handleOf_own {fd : Int32} {h : Handle} {w : World}
    (hresult : (handleOf fd w).result = .ok h) : h.isKernel = false := by
  obtain ⟨rfl, hplain⟩ := handleOf_eq_ok hresult
  exact hplain.isKernel

theorem baseOf_own {fd : Int32} {base : Option Handle} {w : World}
    (hresult : (baseOf fd w).result = .ok base) : OwnBase base := by
  intro h hbase
  rw [baseOf] at hresult
  split at hresult
  · cases hresult
    cases hbase
  · rw [← bind_pure_comp] at hresult
    rcases hrun : handleOf fd w with ⟨e | h', w', t⟩
    · rw [Action.bind_error hrun] at hresult
      cases hresult
    · rw [Action.bind_ok hrun] at hresult
      cases hresult
      cases hbase
      exact handleOf_own (congrArg Outcome.result hrun)

theorem amounts_handle {fd : Int32} {f : Handle → Sys β}
    (hf : ∀ h, h.isKernel = false → Amounts P (f h)) : Amounts P (handleOf fd >>= f) :=
  amounts_bind (idle_handleOf fd) fun h _ hresult => hf h (handleOf_own hresult)

theorem amounts_base {fd : Int32} {f : Option Handle → Sys β}
    (hf : ∀ base, OwnBase base → Amounts P (f base)) : Amounts P (baseOf fd >>= f) :=
  amounts_bind (idle_baseOf fd) fun base _ hresult => hf base (baseOf_own hresult)

/-- What follows the operation of a call only reports. -/
theorem amounts_perform_bind (op : Operation) (hown : P op) {operation : Act α}
    (hop : ∀ w, operation.after w = op.run w) {f : α → Sys β} (hf : ∀ a, Idle (f a)) :
    Amounts P (perform operation >>= f) := by
  refine fun w => .inr ⟨op, hown, ?_⟩
  have hperform : (perform operation).after w = op.run w :=
    (idle_settled (operation w).result (operation w).world).trans (hop w)
  rw [Action.after] at hperform
  rcases hrun : perform operation w with ⟨e | a, w', t⟩ <;> rw [hrun] at hperform <;>
    obtain rfl : w' = op.run w := hperform
  · rw [Action.after, Action.bind_error hrun]
  · rw [Action.after, Action.bind_ok hrun]
    exact hf a _

theorem amounts_perform (op : Operation) (hown : P op) {operation : Act α}
    (hop : ∀ w, operation.after w = op.run w) : Amounts P (perform operation) :=
  fun w => .inr ⟨op, hown, (idle_settled (operation w).result (operation w).world).trans (hop w)⟩

/-! ## The calls -/

theorem amounts_readv (t : TaskId) (fd : Int32) (buffers : List ByteArray) :
    Amounts (Operation.Own t) (readv t fd buffers) :=
  amounts_handle fun h hh =>
    amounts_perform_bind (.readv t h buffers) ⟨rfl, hh⟩ (fun _ => rfl) idle_filled

theorem amounts_writev (t : TaskId) (fd : Int32) (segments : List ByteArray) :
    Amounts (Operation.Own t) (writev t fd segments) :=
  amounts_handle fun h hh =>
    amounts_perform_bind (.writev t h segments) ⟨rfl, hh⟩ (fun _ => rfl) fun _ => idle_pure _

theorem amounts_dup3 (t : TaskId) (oldfd newfd : Int32) (flags : UInt32) :
    Amounts (Operation.Own t) (dup3 t oldfd newfd flags) := by
  rw [dup3]
  split
  · exact (idle_throw _).amounts
  · exact amounts_handle fun h hh => amounts_handle fun target htarget =>
      amounts_perform_bind (.duplicateTo t h target) ⟨rfl, hh, htarget⟩ (fun _ => rfl)
        fun _ => idle_pure _

theorem amounts_fcntl (t : TaskId) (fd : Int32) (command argument : UInt32) :
    Amounts (Operation.Own t) (fcntl t fd command argument) := by
  refine amounts_handle fun h hh => ?_
  split
  · exact (idle_bind (idle_ask (flagsOf t h)) fun _ => idle_pure _).amounts
  split
  · exact amounts_perform_bind (.setFlags t h ⟨argument⟩) ⟨rfl, hh⟩ (fun _ => rfl)
      fun _ => idle_pure _
  · exact (idle_throw _).amounts

theorem amounts_unlinkat (t : TaskId) (dirfd : Int32) (path : String) (flags : UInt32) :
    Amounts (Operation.Own t) (unlinkat t dirfd path flags) := by
  refine amounts_base fun base hbase => ?_
  split
  · exact amounts_perform_bind (.removeDirectory t base path) ⟨rfl, hbase⟩ (fun _ => rfl)
      fun _ => idle_pure _
  · exact amounts_perform_bind (.unlink t base path) ⟨rfl, hbase⟩ (fun _ => rfl)
      fun _ => idle_pure _

theorem idle_fstatat (t : TaskId) (dirfd : Int32) (path : String) (flags : UInt32) :
    Idle (fstatat t dirfd path flags) := by
  refine idle_bind (idle_baseOf dirfd) fun base => ?_
  split
  · exact idle_ask _
  · exact idle_ask _

/-- Bytes are put into the buffer if a path is found for it, and only then; nothing is changed. -/
theorem ended_receiveCwd (t : TaskId) (buffer : ByteArray) (w : World) : (receiveCwd t buffer).ended w =
    (.ok (match (workingDirectory t (buffer.size - 1) w).result with
      | .ok path =>
        { result := .ok (terminated path).size
          buffers := Bytes.scatter (terminated path) [buffer] }
      | .error cause => { result := .error cause, buffers := [buffer] }), w) := by
  rw [receiveCwd, receive, Action.ended_bind, Action.ended_attempt]
  cases hfound : (workingDirectory t (buffer.size - 1) w).result with
  | ok path =>
    rw [Action.ended_query_bind hfound]
    rfl
  | error cause =>
    rw [Action.ended_query_bind_error hfound]
    rfl

theorem idle_getcwd (t : TaskId) (buffer : ByteArray) : Idle (getcwd t buffer) := by
  have hidle (w : World) : (receiveCwd t buffer).after w = w :=
    congrArg Prod.snd (ended_receiveCwd t buffer w)
  refine idle_bind (idle_perform hidle) fun r => ?_
  split
  · exact idle_throw _
  · exact idle_filled r

end Syscall

open Syscall (amounts_bind amounts_handle amounts_base amounts_perform_bind amounts_perform
  idle_bind idle_ask idle_pure idle_handleOf idle_baseOf idle_positionOf idle_settled idle_filled
  idle_look)

/-- The kernel's table is not to be had by asking for it. -/
theorem OpenFlags.forKernel_without (flags : OpenFlags) :
    (flags.without kernelBit).forKernel = false := by
  rw [forKernel, has, without, UInt32.and_assoc, UInt32.not_and_self, UInt32.and_zero]
  rfl

/-- **A system call does to a world what an operation of the caller's own does, or nothing.** -/
theorem SystemCall.run_amounts (call : SystemCall) (w : World) :
    call.run w = w ∨
      ∃ op : Operation, (∃ t, call.task = some t ∧ op.Own t) ∧ call.run w = op.run w := by
  have hcall {t : TaskId} (htask : call.task = some t) {α : Type} {x : Syscall.Sys α}
      (hx : Syscall.Amounts (Operation.Own t) x) : x.after w = w ∨
        ∃ op : Operation, (∃ t, call.task = some t ∧ op.Own t) ∧ x.after w = op.run w :=
    (hx w).imp id fun ⟨op, hown, hrun⟩ => ⟨op, ⟨t, htask, hown⟩, hrun⟩
  cases call with
  | openat t dirfd path flags mode =>
    exact hcall rfl (amounts_base fun base hbase => amounts_perform_bind
      (.openPath t base path ((OpenFlags.mk flags).without OpenFlags.kernelBit) mode)
      ⟨rfl, hbase, OpenFlags.forKernel_without _⟩ (fun _ => rfl) fun _ => idle_pure _)
  | close t fd =>
    exact hcall rfl (amounts_handle fun h hh =>
      amounts_perform_bind (.close t h) ⟨rfl, hh⟩ (fun _ => rfl) fun _ => idle_pure _)
  | readv t fd buffers => exact hcall rfl (Syscall.amounts_readv t fd buffers)
  | read t fd buffer => exact hcall rfl (Syscall.amounts_readv t fd [buffer])
  | writev t fd segments => exact hcall rfl (Syscall.amounts_writev t fd segments)
  | write t fd data => exact hcall rfl (Syscall.amounts_writev t fd [data])
  | pread64 t fd buffer offset =>
    exact hcall rfl (amounts_handle fun h hh => amounts_bind (idle_positionOf offset) fun p _ _ =>
      amounts_perform_bind (.preadv t h p [buffer]) ⟨rfl, hh⟩ (fun _ => rfl) idle_filled)
  | pwrite64 t fd data offset =>
    exact hcall rfl (amounts_handle fun h hh => amounts_bind (idle_positionOf offset) fun p _ _ =>
      amounts_perform_bind (.pwritev t h p [data]) ⟨rfl, hh⟩ (fun _ => rfl)
        fun _ => idle_pure _)
  | lseek t fd offset whence =>
    exact hcall rfl (amounts_bind (idle_settled _) fun origin _ _ => amounts_handle fun h hh =>
      amounts_perform_bind (.seek t h offset origin) ⟨rfl, hh⟩ (fun _ => rfl)
        fun _ => idle_pure _)
  | sync => exact .inl ((idle_bind (idle_ask VirtualFs.sync) fun _ => idle_pure _) w)
  | fsync t fd =>
    exact .inl ((idle_bind (idle_handleOf fd) fun h =>
      idle_bind (idle_ask (flush t h)) fun _ => idle_pure _) w)
  | ioctl t fd request input buffer =>
    exact hcall rfl (amounts_handle fun h hh => amounts_perform_bind
      (.control t h request input buffer) ⟨rfl, hh⟩ (fun _ => rfl) idle_filled)
  | dup t fd =>
    exact hcall rfl (amounts_handle fun h hh =>
      amounts_perform_bind (.duplicate t h) ⟨rfl, hh⟩ (fun _ => rfl) fun _ => idle_pure _)
  | dup3 t oldfd newfd flags => exact hcall rfl (Syscall.amounts_dup3 t oldfd newfd flags)
  | fcntl t fd command argument => exact hcall rfl (Syscall.amounts_fcntl t fd command argument)
  | readdir t fd =>
    exact hcall rfl (amounts_handle fun h hh =>
      amounts_perform (.nextEntry t h) ⟨rfl, hh⟩ fun _ => rfl)
  | mkdirat t dirfd path mode =>
    exact hcall rfl (amounts_base fun base hbase => amounts_perform_bind
      (.makeDirectory t base path mode) ⟨rfl, hbase⟩ (fun _ => rfl) fun _ => idle_pure _)
  | unlinkat t dirfd path flags => exact hcall rfl (Syscall.amounts_unlinkat t dirfd path flags)
  | renameat t olddirfd oldpath newdirfd newpath =>
    exact hcall rfl (amounts_base fun oldBase hold => amounts_base fun newBase hnew =>
      amounts_perform_bind (.rename t oldBase oldpath newBase newpath) ⟨rfl, hold, hnew⟩
        (fun _ => rfl) fun _ => idle_pure _)
  | symlinkat t target dirfd path =>
    exact hcall rfl (amounts_base fun base hbase => amounts_perform_bind
      (.makeSymlink t base path target) ⟨rfl, hbase⟩ (fun _ => rfl) fun _ => idle_pure _)
  | readlinkat t dirfd path buffer =>
    exact .inl ((idle_bind (idle_baseOf dirfd) fun base =>
      idle_bind (idle_ask (readLink t base path)) fun _ => idle_pure _) w)
  | fstat t fd => exact .inl ((idle_bind (idle_handleOf fd) fun h => idle_ask _) w)
  | fstatat t dirfd path flags => exact .inl (Syscall.idle_fstatat t dirfd path flags w)
  | faccessat t dirfd path mode =>
    exact .inl ((idle_bind (idle_baseOf dirfd) fun base =>
      idle_bind (idle_ask (access t base path mode)) fun _ => idle_pure _) w)
  | mount t device dir fs flags args =>
    exact hcall rfl (amounts_perform_bind (P := Operation.Own t)
      (.mount t device dir fs (.ofBits flags) args) rfl (fun _ => rfl) fun _ => idle_look _)
  | chdir t path =>
    exact hcall rfl (amounts_perform_bind (P := Operation.Own t) (.changeDirectory t path) rfl
      (fun _ => rfl) fun _ => idle_pure _)
  | fchdir t fd =>
    exact hcall rfl (amounts_handle fun h hh =>
      amounts_perform_bind (.changeDirectoryTo t h) ⟨rfl, hh⟩ (fun _ => rfl)
        fun _ => idle_pure _)
  | getcwd t buffer => exact .inl (Syscall.idle_getcwd t buffer w)

end VirtualFs
