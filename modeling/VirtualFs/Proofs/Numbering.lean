/-
What handle tables amount to: for each context a map from the numbers below
its limit to "reserved" or an open file. `Numbering` is that map and nothing
more, and `Numbering.answer` is what each call on the tables does to it. It
says nothing of lists that grow and shrink, of numbers that are given back, or
of what an open has to do before it succeeds: how that comes out is handed to
it (`outcome`).

An answer carries the map it leaves, so a call that fails leaves none: the map
stays as it was (`Numbering.step`).
-/
import VirtualFs.Direct
import VirtualFs.Handle.Lemmas
import VirtualFs.ReservationTable.Lemmas

namespace VirtualFs

/-- The numbers of every context. -/
@[ext]
structure Numbering where
  /-- How many numbers a context has. -/
  limit : ContextId → Nat
  /-- Whether the handles of a context carry the kernel's bit. -/
  kernel : ContextId → Bool
  /-- The context that a task's handles belong to, those with the kernel's bit and those without. -/
  contextOf : TaskId → Bool → ContextId
  slot : ContextId → Nat → Slot FileId
  /-- The key of the next file that is opened. -/
  next : FileId

/-- What a caller binds to a number: what it found under another one, or a file it has made. -/
inductive Given where
  | bound (c : ContextId) (h : Handle)
  | fresh (file : OpenFile)

/-- A call on the handle tables, by a task or on a context itself. -/
inductive TableCall where
  | openPath (t : TaskId) (base : Option Handle) (path : String) (flags : OpenFlags)
      (mode : UInt32)
  | openHeld (t : TaskId) (n : NodeId) (flags : OpenFlags)
  | duplicate (t : TaskId) (h : Handle)
  | duplicateTo (t : TaskId) (h target : Handle)
  | reopen (t : TaskId) (h : Handle)
  | close (t : TaskId) (h : Handle)
  | closeAll (c : ContextId)
  | allocate (c : ContextId)
  | bind (c : ContextId) (h : Handle) (given : Given)
  | free (c : ContextId) (h : Handle)
  | install (c : ContextId) (h : Handle) (given : Given)
  | lookup (c : ContextId) (h : Handle)

/-- What a call on the tables answers. -/
inductive Reply where
  | done
  | handle (h : Handle)
  | file (f : FileId)
  /-- What was bound to the number before. -/
  | displaced (f : Option FileId)
  deriving DecidableEq

namespace Numbering

variable (n : Numbering) (c : ContextId) (h : Handle)

/-- The numbering with one number in another state. -/
def set (i : Nat) (s : Slot FileId) : Numbering :=
  { n with slot := fun c' j => if c' = c ∧ j = i then s else n.slot c' j }

/-- One more file is open. -/
def made : Numbering := { n with next := n.next + 1 }

/-- The least number that is neither bound nor reserved. -/
def least : Option Nat := (List.range (n.limit c)).find? fun i => (n.slot c i).isFree

/-- No number reaches the bit of a handle that selects the kernel's table. -/
def Small : Prop := ∀ c, n.limit c ≤ Handle.slotLimit

/-- The number that a context gives next, if there is one, stays below that bit. -/
def InReach : Prop := ∀ i, n.least c = some i → i < Handle.slotLimit

/-- Every number is bound or reserved. -/
def Full : Prop := ∀ i < n.limit c, n.slot c i ≠ .free

/-- Some number is bound to a file. -/
def Bound (f : FileId) : Prop := ∃ c i, n.slot c i = .taken f

/-- What a handle is bound to. -/
def find : Option FileId := if h.isKernel = n.kernel c then (n.slot c h.slot).value? else none

/-- What a handle is bound to; a number that is free or reserved, or of another table, is bad. -/
def found : Except Error FileId :=
  match n.find c h with
  | some f => .ok f
  | none => .error .badHandle

/-- The open file behind a task's handle. -/
def fileOf (t : TaskId) : Except Error FileId := n.found (n.contextOf t h.isKernel) h

/-- Puts the least free number into a state. -/
def give (s : Slot FileId) : Except Error (Handle × Numbering) :=
  match n.least c with
  | some i => .ok (.ofSlot i (n.kernel c), n.set c i s)
  | none => .error .tooManyOpenFiles

/-- Opens a file under the least free number, if the rest of the work comes out well. A full table
is found first. -/
def opened (outcome : Except Error Unit) : Except Error (Handle × Numbering) := do
  let (h, after) ← n.give c (.taken n.next)
  outcome
  pure (h, after.made)

/-- Whether a file may be bound to the number of the caller's choice. -/
def placeable : Except Error Unit :=
  if h.isKernel = n.kernel c ∧ h.slot < n.limit c then
    if n.slot c h.slot = .reserved then .error .busy else .ok ()
  else .error .badHandle

/-- Binds a file to the number of the caller's choice. -/
def place (f : FileId) : Except Error (Option FileId × Numbering) := do
  n.placeable c h
  pure ((n.slot c h.slot).value?, n.set c h.slot (.taken f))

/-- Whether a number is reserved, so that a file may be bound to it. -/
def fillable : Except Error Unit :=
  if h.isKernel = n.kernel c ∧ n.slot c h.slot = .reserved then .ok () else .error .badHandle

/-- Binds a file to a number that is reserved. -/
def fill (f : FileId) : Except Error Numbering := do
  n.fillable c h
  pure (n.set c h.slot (.taken f))

/-- Frees a number; a handle of another table frees none. -/
def release : Option FileId × Numbering :=
  if h.isKernel = n.kernel c then ((n.slot c h.slot).value?, n.set c h.slot .free) else (none, n)

/-- Frees every number of a context. -/
def clear : Numbering := { n with slot := fun c' i => if c' = c then .free else n.slot c' i }

/-- The file that is given, and the numbering once it is one. -/
def given : Given → Except Error (FileId × Numbering)
  | .bound c h => do return (← n.found c h, n)
  | .fresh _ => .ok (n.next, n.made)

/-- Binds what a task's handle is bound to to another number as well. -/
def copied (t : TaskId) (target : Handle) : Except Error Numbering := do
  let f ← n.fileOf h t
  if h = target then pure n
  else
    let (_, after) ← n.place (n.contextOf t target.isKernel) target f
    pure after

/-- Binds what is given to a number that is reserved. -/
def bound (what : Given) : Except Error Numbering := do
  let (f, start) ← n.given what
  start.fill c h f

/-- What a call answers and the numbering it leaves, if it succeeds. -/
def answer (outcome : Except Error Unit) : TableCall → Except Error (Reply × Numbering)
  | .openPath t _ _ flags _ => do
    let (h, after) ← n.opened (n.contextOf t flags.forKernel) outcome
    pure (.handle h, after)
  | .openHeld t _ flags => do
    let (h, after) ← n.opened (n.contextOf t flags.forKernel) outcome
    pure (.handle h, after)
  | .duplicate t h => do
    let f ← n.fileOf h t
    let (copy, after) ← n.give (n.contextOf t h.isKernel) (.taken f)
    pure (.handle copy, after)
  | .duplicateTo t h target => do
    let after ← n.copied h t target
    pure (.handle target, after)
  | .reopen t h => do
    let _ ← n.fileOf h t
    let (copy, after) ← n.opened (n.contextOf t h.isKernel) outcome
    pure (.handle copy, after)
  | .close t h => do
    let _ ← n.fileOf h t
    pure (.done, n.set (n.contextOf t h.isKernel) h.slot .free)
  | .closeAll c => pure (.done, n.clear c)
  | .allocate c => do
    let (h, after) ← n.give c .reserved
    pure (.handle h, after)
  | .bind c h given => do
    let after ← n.bound c h given
    pure (.done, after)
  | .free c h => pure (.displaced (n.release c h).1, (n.release c h).2)
  | .install c h given => do
    let (f, start) ← n.given given
    let (displaced, after) ← start.place c h f
    pure (.displaced displaced, after)
  | .lookup c h => do
    let f ← n.found c h
    pure (.file f, n)

/-- The numbering that is left: that of a success, or the one before a failure. -/
def after {α : Type} : Except Error (α × Numbering) → Numbering
  | .ok (_, left) => left
  | .error _ => n

/-- The answer of a call and the numbering after it. -/
def step (call : TableCall) (outcome : Except Error Unit) : Except Error Reply × Numbering :=
  ((n.answer outcome call).map Prod.fst, n.after (n.answer outcome call))

/-- The answers of calls in a row and the numbering they leave. -/
def serve : List (TableCall × Except Error Unit) → Numbering →
    List (Except Error Reply) × Numbering
  | [], n => ([], n)
  | (call, outcome) :: rest, n =>
    let (reply, after) := n.step call outcome
    let (replies, last) := serve rest after
    (reply :: replies, last)

/-! ## What a call may touch -/

/-- The context whose least free number a call takes. -/
def giver : TableCall → Option ContextId
  | .openPath t _ _ flags _ => some (n.contextOf t flags.forKernel)
  | .openHeld t _ flags => some (n.contextOf t flags.forKernel)
  | .duplicate t h => some (n.contextOf t h.isKernel)
  | .reopen t h => some (n.contextOf t h.isKernel)
  | .allocate c => some c
  | _ => none

/-- Whether a call comes to the point where it takes a number: the handle it starts from, if any, is
bound. -/
def Asks : TableCall → Prop
  | .duplicate t h => ∃ f, n.fileOf h t = .ok f
  | .reopen t h => ∃ f, n.fileOf h t = .ok f
  | _ => True

/-- The numbers of which a call may change the state: the one that it names or takes, or all of a
context if it empties it. -/
def Touches (c : ContextId) (i : Nat) : TableCall → Prop
  | .duplicateTo t _ target => c = n.contextOf t target.isKernel ∧ i = target.slot
  | .close t h => c = n.contextOf t h.isKernel ∧ i = h.slot
  | .bind c' h _ => c = c' ∧ i = h.slot
  | .free c' h => c = c' ∧ i = h.slot
  | .install c' h _ => c = c' ∧ i = h.slot
  | .closeAll c' => c = c'
  | call => n.giver call = some c ∧ n.least c = some i

/-! ## What the map says of itself -/

section

variable {n : Numbering} {c : ContextId} {h : Handle} {i : Nat} {f : FileId}

theorem least_eq_some_iff : n.least c = some i ↔
    i < n.limit c ∧ n.slot c i = .free ∧ ∀ j < i, n.slot c j ≠ .free := by
  rw [least, List.find?_range_eq_some]
  simp only [List.mem_range, ReservationTable.isFree_iff, Bool.not_eq_true']
  constructor
  · intro h
    obtain ⟨hfree, hlt, hlow⟩ := h
    refine ⟨hlt, hfree, fun j hj hj' => ?_⟩
    have := hlow j hj
    simp [hj', Slot.isFree] at this
  · intro h
    obtain ⟨hlt, hfree, hlow⟩ := h
    refine ⟨hfree, hlt, fun j hj => ?_⟩
    rw [← Bool.not_eq_true, ReservationTable.isFree_iff]
    exact hlow j hj

theorem least_eq_none_iff : n.least c = none ↔ n.Full c := by
  rw [least, List.find?_eq_none]
  simp only [List.mem_range, ReservationTable.isFree_iff]
  rfl

theorem Small.inReach (hsmall : n.Small) (c : ContextId) : n.InReach c := fun _ hleast =>
  Nat.lt_of_lt_of_le (least_eq_some_iff.1 hleast).1 (hsmall c)

/-- A handle that is made for the least number names it. -/
theorem InReach.names_least (hreach : n.InReach c) (hleast : n.least c = some i) :
    (Handle.ofSlot i (n.kernel c)).isKernel = n.kernel c ∧
      (Handle.ofSlot i (n.kernel c)).slot = i :=
  ⟨Handle.isKernel_ofSlot (hreach i hleast) _, Handle.slot_ofSlot (hreach i hleast) _⟩

theorem set_slot (c' : ContextId) (i j : Nat) (s : Slot FileId) :
    (n.set c i s).slot c' j = if c' = c ∧ j = i then s else n.slot c' j := rfl

theorem set_kernel (s : Slot FileId) : (n.set c i s).kernel = n.kernel := rfl

/-- A number that is put back to what it was makes no difference. -/
theorem set_self : n.set c i (n.slot c i) = n := by
  refine Numbering.ext rfl rfl rfl (funext fun c' => funext fun j => ?_) rfl
  rw [set_slot]
  split
  · next h => rw [h.1, h.2]
  · rfl

theorem set_set (s s' : Slot FileId) : (n.set c i s).set c i s' = n.set c i s' := by
  refine Numbering.ext rfl rfl rfl (funext fun c' => funext fun j => ?_) rfl
  rw [set_slot, set_slot, set_slot]
  split <;> rfl

/-- A number that is bound stays so as long as it is another one that changes. -/
theorem Bound.set (hbound : n.Bound f) (hnot : n.slot c i ≠ .taken f) (s : Slot FileId) :
    (n.set c i s).Bound f := by
  obtain ⟨c', j, hslot⟩ := hbound
  refine ⟨c', j, ?_⟩
  rw [set_slot, if_neg, hslot]
  rintro ⟨rfl, rfl⟩
  exact hnot hslot

theorem bound_set (f : FileId) : (n.set c i (.taken f)).Bound f :=
  ⟨c, i, by rw [set_slot, if_pos ⟨rfl, rfl⟩]⟩

/-- Freeing a number that was only reserved takes the reservation back. -/
theorem release_reserved (hkernel : h.isKernel = n.kernel c) (hfree : n.slot c h.slot = .free) :
    (n.set c h.slot .reserved).release c h = (none, n) := by
  have hput : (n.set c h.slot .reserved).set c h.slot .free = n := by
    rw [set_set, ← hfree, set_self]
  have hvalue : ((n.set c h.slot .reserved).slot c h.slot).value? = none := by
    rw [set_slot, if_pos ⟨rfl, rfl⟩]
    rfl
  rw [release, hput, hvalue]
  exact if_pos hkernel

/-- What was found is what freeing the number hands back. -/
theorem release_found (hfound : n.found c h = .ok f) :
    n.release c h = (some f, n.set c h.slot .free) := by
  rw [found, find] at hfound
  by_cases hkernel : h.isKernel = n.kernel c
  · rw [if_pos hkernel] at hfound
    rw [release, if_pos hkernel]
    cases hvalue : (n.slot c h.slot).value? with
    | none =>
      rw [hvalue] at hfound
      cases hfound
    | some g =>
      rw [hvalue] at hfound
      cases hfound
      rfl
  · rw [if_neg hkernel] at hfound
    cases hfound

theorem placeable_eq_ok : n.placeable c h = .ok () ↔
    h.isKernel = n.kernel c ∧ h.slot < n.limit c ∧ n.slot c h.slot ≠ .reserved := by
  rw [placeable]
  by_cases hin : h.isKernel = n.kernel c ∧ h.slot < n.limit c
  · by_cases hreserved : n.slot c h.slot = .reserved
    · simp [hin, hreserved]
    · simp [hin, hreserved]
  · simp only [hin, if_false, reduceCtorEq, false_iff]
    exact fun hall => hin ⟨hall.1, hall.2.1⟩

theorem fillable_eq_ok : n.fillable c h = .ok () ↔
    h.isKernel = n.kernel c ∧ n.slot c h.slot = .reserved := by
  rw [fillable]
  split
  · next hboth => simp [hboth]
  · next hboth => simp [hboth]

/-- A number that is reserved can be bound. -/
theorem fill_reserved (hkernel : h.isKernel = n.kernel c) (f : FileId) :
    (n.set c h.slot .reserved).fill c h f = .ok (n.set c h.slot (.taken f)) := by
  have hslot : (n.set c h.slot .reserved).slot c h.slot = .reserved := by
    rw [set_slot, if_pos ⟨rfl, rfl⟩]
  have hfillable : (n.set c h.slot .reserved).fillable c h = .ok () :=
    fillable_eq_ok.2 ⟨hkernel, hslot⟩
  rw [fill, hfillable, set_set]
  rfl

theorem give_full (hleast : n.least c = none) (s : Slot FileId) :
    n.give c s = .error .tooManyOpenFiles := by
  rw [give, hleast]

theorem give_least (hleast : n.least c = some i) (s : Slot FileId) :
    n.give c s = .ok (.ofSlot i (n.kernel c), n.set c i s) := by
  rw [give, hleast]

theorem opened_full (hleast : n.least c = none) (outcome : Except Error Unit) :
    n.opened c outcome = .error .tooManyOpenFiles := by
  rw [opened, give_full hleast]
  rfl

theorem opened_least (hleast : n.least c = some i) (outcome : Except Error Unit) :
    n.opened c outcome =
      outcome.map fun _ => (.ofSlot i (n.kernel c), (n.set c i (.taken n.next)).made) := by
  rw [opened, give_least hleast]
  cases outcome <;> rfl

/-! ## What each call does -/

/-- Another numbering with the same contexts, and the same numbers outside of some. -/
structure Within (touched : ContextId → Nat → Prop) (n n' : Numbering) : Prop where
  limit : n'.limit = n.limit
  kernel : n'.kernel = n.kernel
  contextOf : n'.contextOf = n.contextOf
  slot : ∀ c i, ¬touched c i → n'.slot c i = n.slot c i

theorem Within.refl (touched : ContextId → Nat → Prop) : Within touched n n :=
  ⟨rfl, rfl, rfl, fun _ _ _ => rfl⟩

theorem within_set {touched : ContextId → Nat → Prop} (htouched : touched c i)
    (s : Slot FileId) : Within touched n (n.set c i s) := by
  refine ⟨rfl, rfl, rfl, fun c' j hnot => ?_⟩
  rw [set_slot, if_neg]
  intro hboth
  obtain ⟨rfl, rfl⟩ := hboth
  exact hnot htouched

theorem Within.made {touched : ContextId → Nat → Prop} {n' : Numbering}
    (h : Within touched n n') : Within touched n n'.made :=
  ⟨h.limit, h.kernel, h.contextOf, h.slot⟩

theorem bind_eq_ok {α β : Type} {r : Except Error α} {k : α → Except Error β} {b : β} :
    r >>= k = .ok b ↔ ∃ a, r = .ok a ∧ k a = .ok b := by
  cases r <;> simp [bind, Except.bind]

/-- A failure comes from the first part or from the rest. -/
theorem bind_eq_error {α β : Type} {r : Except Error α} {k : α → Except Error β} {e : Error} :
    r >>= k = .error e ↔ r = .error e ∨ ∃ a, r = .ok a ∧ k a = .error e := by
  cases r <;> simp [bind, Except.bind]

section

variable {after : Numbering} {outcome : Except Error Unit}

theorem give_eq_ok {s : Slot FileId} : n.give c s = .ok (h, after) ↔
    ∃ i, n.least c = some i ∧ h = .ofSlot i (n.kernel c) ∧ after = n.set c i s := by
  cases hleast : n.least c with
  | none => simp [give_full hleast]
  | some i => simp [give_least hleast, eq_comm]

theorem opened_eq_ok : n.opened c outcome = .ok (h, after) ↔
    ∃ i, n.least c = some i ∧ outcome = .ok () ∧ h = .ofSlot i (n.kernel c) ∧
      after = (n.set c i (.taken n.next)).made := by
  cases hleast : n.least c with
  | none => simp [opened_full hleast]
  | some i => cases outcome <;> simp [opened_least hleast, Except.map, eq_comm]

theorem place_eq_ok {displaced : Option FileId} (hplace : n.place c h f = .ok (displaced, after)) :
    after = n.set c h.slot (.taken f) := by
  obtain ⟨_, -, hplace⟩ := bind_eq_ok.1 hplace
  cases hplace
  rfl

theorem fill_eq_ok (hfill : n.fill c h f = .ok after) : after = n.set c h.slot (.taken f) := by
  obtain ⟨_, -, hfill⟩ := bind_eq_ok.1 hfill
  cases hfill
  rfl

/-- A file that is given changes no number. -/
theorem given_eq_ok {touched : ContextId → Nat → Prop} {what : Given}
    (hgiven : n.given what = .ok (f, after)) : Within touched n after := by
  cases what with
  | bound c' h' =>
    obtain ⟨_, -, hgiven⟩ := bind_eq_ok.1 hgiven
    cases hgiven
    exact .refl touched
  | fresh file =>
    cases hgiven
    exact (Within.refl touched).made

theorem Within.trans {touched : ContextId → Nat → Prop} {n' n'' : Numbering}
    (h : Within touched n n') (h' : Within touched n' n'') : Within touched n n'' :=
  ⟨h'.limit.trans h.limit, h'.kernel.trans h.kernel, h'.contextOf.trans h.contextOf,
    fun c i hnot => (h'.slot c i hnot).trans (h.slot c i hnot)⟩

/-- A call that asks for a new number sets the least that is free, and may open a file with it. -/
theorem answer_sets {call : TableCall} {r : Reply} (hgiver : n.giver call = some c)
    (hanswer : n.answer outcome call = .ok (r, after)) :
    ∃ i s, n.least c = some i ∧ r = .handle (.ofSlot i (n.kernel c)) ∧
      (after = n.set c i s ∨ after = (n.set c i s).made) := by
  have hopens : ∀ {made : Handle × Numbering}, n.opened c outcome = .ok made →
      ∃ i s, n.least c = some i ∧ Reply.handle made.1 = .handle (.ofSlot i (n.kernel c)) ∧
        (made.2 = n.set c i s ∨ made.2 = (n.set c i s).made) := by
    intro made hopened
    obtain ⟨i, hleast, -, hhandle, hafter⟩ := opened_eq_ok.1 hopened
    exact ⟨i, _, hleast, congrArg _ hhandle, .inr hafter⟩
  have hgives : ∀ {s : Slot FileId} {given : Handle × Numbering}, n.give c s = .ok given →
      ∃ i s, n.least c = some i ∧ Reply.handle given.1 = .handle (.ofSlot i (n.kernel c)) ∧
        (given.2 = n.set c i s ∨ given.2 = (n.set c i s).made) := by
    intro s given hgiven
    obtain ⟨i, hleast, hhandle, hafter⟩ := give_eq_ok.1 hgiven
    exact ⟨i, s, hleast, congrArg _ hhandle, .inl hafter⟩
  cases call with
  | openPath | openHeld =>
    cases hgiver
    obtain ⟨_, hopened, hanswer⟩ := bind_eq_ok.1 hanswer
    cases hanswer
    exact hopens hopened
  | reopen =>
    cases hgiver
    obtain ⟨_, -, hanswer⟩ := bind_eq_ok.1 hanswer
    obtain ⟨_, hopened, hanswer⟩ := bind_eq_ok.1 hanswer
    cases hanswer
    exact hopens hopened
  | duplicate =>
    cases hgiver
    obtain ⟨_, -, hanswer⟩ := bind_eq_ok.1 hanswer
    obtain ⟨_, hgiven, hanswer⟩ := bind_eq_ok.1 hanswer
    cases hanswer
    exact hgives hgiven
  | allocate =>
    cases hgiver
    obtain ⟨_, hgiven, hanswer⟩ := bind_eq_ok.1 hanswer
    cases hanswer
    exact hgives hgiven
  | duplicateTo | close | closeAll | bind | free | install | lookup => cases hgiver

/-- A call that succeeds leaves all numbers alone but those that it may touch. -/
theorem answer_within {call : TableCall} {r : Reply}
    (hanswer : n.answer outcome call = .ok (r, after)) :
    Within (fun c i => n.Touches c i call) n after := by
  cases call with
  | openPath | openHeld | reopen | duplicate | allocate =>
    obtain ⟨i, s, hleast, -, rfl | rfl⟩ := answer_sets rfl hanswer
    · exact within_set (by exact ⟨rfl, hleast⟩) s
    · exact (within_set (by exact ⟨rfl, hleast⟩) s).made
  | duplicateTo t handle target =>
    obtain ⟨_, hcopied, hanswer⟩ := bind_eq_ok.1 hanswer
    cases hanswer
    obtain ⟨_, -, hcopied⟩ := bind_eq_ok.1 hcopied
    split at hcopied
    · cases hcopied
      exact .refl _
    · obtain ⟨_, hplace, hcopied⟩ := bind_eq_ok.1 hcopied
      cases hcopied
      rw [place_eq_ok hplace]
      exact within_set (by exact ⟨rfl, rfl⟩) _
  | close t handle =>
    obtain ⟨_, -, hanswer⟩ := bind_eq_ok.1 hanswer
    cases hanswer
    exact within_set (by exact ⟨rfl, rfl⟩) _
  | closeAll c' =>
    cases hanswer
    exact ⟨rfl, rfl, rfl, fun c i hnot => if_neg hnot⟩
  | bind c' handle what =>
    obtain ⟨_, hbound, hanswer⟩ := bind_eq_ok.1 hanswer
    cases hanswer
    obtain ⟨_, hgiven, hbound⟩ := bind_eq_ok.1 hbound
    rw [fill_eq_ok hbound]
    exact (given_eq_ok hgiven).trans (within_set (by exact ⟨rfl, rfl⟩) _)
  | free c' handle =>
    cases hanswer
    rw [release]
    split
    · exact within_set (by exact ⟨rfl, rfl⟩) _
    · exact .refl _
  | install c' handle what =>
    obtain ⟨_, hgiven, hanswer⟩ := bind_eq_ok.1 hanswer
    obtain ⟨_, hplace, hanswer⟩ := bind_eq_ok.1 hanswer
    cases hanswer
    rw [place_eq_ok hplace]
    exact (given_eq_ok hgiven).trans (within_set (by exact ⟨rfl, rfl⟩) _)
  | lookup c' handle =>
    obtain ⟨_, -, hanswer⟩ := bind_eq_ok.1 hanswer
    cases hanswer
    exact .refl _

/-- A new number is the least that is neither bound nor reserved. -/
theorem answer_gives {call : TableCall} {r : Reply} (hgiver : n.giver call = some c)
    (hanswer : n.answer outcome call = .ok (r, after)) :
    ∃ i, r = .handle (.ofSlot i (n.kernel c)) ∧ n.least c = some i := by
  obtain ⟨i, _, hleast, hreply, -⟩ := answer_sets hgiver hanswer
  exact ⟨i, hreply, hleast⟩

/-- Where no number is left, none is given. -/
theorem answer_full {call : TableCall} (hgiver : n.giver call = some c) (hasks : n.Asks call)
    (hfull : n.Full c) : n.answer outcome call = .error .tooManyOpenFiles := by
  have hleast := least_eq_none_iff.2 hfull
  cases call with
  | openPath t base path flags mode =>
    cases hgiver
    exact bind_eq_error.2 (.inl (opened_full hleast outcome))
  | openHeld t node flags =>
    cases hgiver
    exact bind_eq_error.2 (.inl (opened_full hleast outcome))
  | reopen t handle =>
    cases hgiver
    obtain ⟨f, hf⟩ := hasks
    exact bind_eq_error.2 (.inr ⟨f, hf, bind_eq_error.2 (.inl (opened_full hleast outcome))⟩)
  | duplicate t handle =>
    cases hgiver
    obtain ⟨f, hf⟩ := hasks
    exact bind_eq_error.2 (.inr ⟨f, hf, bind_eq_error.2 (.inl (give_full hleast _))⟩)
  | allocate c' =>
    cases hgiver
    exact bind_eq_error.2 (.inl (give_full hleast _))
  | duplicateTo | close | closeAll | bind | free | install | lookup => cases hgiver

theorem found_ne_full : n.found c h ≠ .error .tooManyOpenFiles := by
  rw [found]
  split <;> nofun

theorem full_of_give {s : Slot FileId} (hgive : n.give c s = .error .tooManyOpenFiles) :
    n.Full c := by
  cases hleast : n.least c with
  | none => exact least_eq_none_iff.1 hleast
  | some i =>
    rw [give_least hleast] at hgive
    cases hgive

theorem full_of_opened (hopened : n.opened c outcome = .error .tooManyOpenFiles) :
    n.Full c ∨ outcome = .error .tooManyOpenFiles := by
  rcases bind_eq_error.1 hopened with hgive | ⟨_, -, hopened⟩
  · exact .inl (full_of_give hgive)
  rcases bind_eq_error.1 hopened with houtcome | ⟨_, -, hopened⟩
  · exact .inr houtcome
  · cases hopened

theorem bind_ne_full {α β : Type} {r : Except Error α} {k : α → Except Error β}
    (hr : r ≠ .error .tooManyOpenFiles) (hk : ∀ a, k a ≠ .error .tooManyOpenFiles) :
    r >>= k ≠ .error .tooManyOpenFiles := by
  intro hfull
  rcases bind_eq_error.1 hfull with hfull | ⟨a, -, hfull⟩
  · exact hr hfull
  · exact hk a hfull

theorem place_ne_full : n.place c h f ≠ .error .tooManyOpenFiles := by
  have hplaceable : n.placeable c h ≠ .error .tooManyOpenFiles := by
    rw [placeable]
    split
    · split <;> nofun
    · nofun
  exact bind_ne_full hplaceable nofun

theorem fill_ne_full : n.fill c h f ≠ .error .tooManyOpenFiles := by
  have hfillable : n.fillable c h ≠ .error .tooManyOpenFiles := by
    rw [fillable]
    split <;> nofun
  exact bind_ne_full hfillable nofun

theorem given_ne_full {what : Given} : n.given what ≠ .error .tooManyOpenFiles := by
  cases what with
  | bound c' h' => exact bind_ne_full found_ne_full nofun
  | fresh file => exact nofun

theorem copied_ne_full {t : TaskId} {target : Handle} :
    n.copied h t target ≠ .error .tooManyOpenFiles := by
  refine bind_ne_full found_ne_full fun f => ?_
  split
  · exact nofun
  · exact bind_ne_full place_ne_full nofun

/-- A table is called full only if it is, or if the work of an open says so. -/
theorem full_of_answer {call : TableCall}
    (hanswer : n.answer outcome call = .error .tooManyOpenFiles) :
    outcome = .error .tooManyOpenFiles ∨ ∃ c, n.giver call = some c ∧ n.Asks call ∧ n.Full c := by
  cases call with
  | openPath t base path flags mode =>
    rcases bind_eq_error.1 hanswer with hopened | ⟨_, -, hanswer⟩
    · exact (full_of_opened hopened).elim (fun hfull => .inr ⟨_, rfl, trivial, hfull⟩) .inl
    · cases hanswer
  | openHeld t node flags =>
    rcases bind_eq_error.1 hanswer with hopened | ⟨_, -, hanswer⟩
    · exact (full_of_opened hopened).elim (fun hfull => .inr ⟨_, rfl, trivial, hfull⟩) .inl
    · cases hanswer
  | reopen t handle =>
    rcases bind_eq_error.1 hanswer with hfile | ⟨f, hf, hanswer⟩
    · exact absurd hfile found_ne_full
    rcases bind_eq_error.1 hanswer with hopened | ⟨_, -, hanswer⟩
    · exact (full_of_opened hopened).elim (fun hfull => .inr ⟨_, rfl, ⟨f, hf⟩, hfull⟩) .inl
    · cases hanswer
  | duplicate t handle =>
    rcases bind_eq_error.1 hanswer with hfile | ⟨f, hf, hanswer⟩
    · exact absurd hfile found_ne_full
    rcases bind_eq_error.1 hanswer with hgive | ⟨_, -, hanswer⟩
    · exact .inr ⟨_, rfl, ⟨f, hf⟩, full_of_give hgive⟩
    · cases hanswer
  | allocate c' =>
    rcases bind_eq_error.1 hanswer with hgive | ⟨_, -, hanswer⟩
    · exact .inr ⟨_, rfl, trivial, full_of_give hgive⟩
    · cases hanswer
  | duplicateTo t handle target => exact absurd hanswer (bind_ne_full copied_ne_full nofun)
  | close t handle => exact absurd hanswer (bind_ne_full found_ne_full nofun)
  | closeAll c' => cases hanswer
  | bind c' handle what =>
    have hbound : n.bound c' handle what ≠ .error .tooManyOpenFiles :=
      bind_ne_full given_ne_full fun _ => fill_ne_full
    exact absurd hanswer (bind_ne_full hbound nofun)
  | free c' handle => cases hanswer
  | install c' handle what =>
    exact absurd hanswer
      (bind_ne_full given_ne_full fun _ => bind_ne_full place_ne_full nofun)
  | lookup c' handle => exact absurd hanswer (bind_ne_full found_ne_full nofun)

end

end

end Numbering

end VirtualFs
