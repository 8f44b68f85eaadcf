/-
A table of numbered slots with a limit. A slot is free, then reserved, then
taken: a reserved slot has a number and no value yet, so that a caller may
hand the number out, try the rest of its work, and fill or release the slot.
The lowest free number is given first, and the table never ends in a free
slot. A table is known by the state of each number (`slotAt`).
-/

namespace VirtualFs

/-- One slot of a table. -/
inductive Slot (α : Type) where
  | free
  | reserved
  | taken (value : α)
  deriving DecidableEq, Repr, Inhabited

namespace Slot

variable {α : Type}

def isFree : Slot α → Bool
  | .free => true
  | _ => false

def value? : Slot α → Option α
  | .taken v => some v
  | _ => none

end Slot

/-- Slots by number, at most `limit` of them. -/
structure ReservationTable (α : Type) where
  limit : Nat
  slots : List (Slot α) := []
  deriving DecidableEq, Repr, Inhabited

namespace ReservationTable

variable {α : Type}

/-- The state of a number; one past the end of the table is free. -/
def slotAt (t : ReservationTable α) (i : Nat) : Slot α := t.slots[i]?.getD .free

/-- The slots without the free ones at their end. -/
def trim : List (Slot α) → List (Slot α)
  | [] => []
  | slot :: rest =>
    match trim rest with
    | [] => if slot.isFree then [] else [slot]
    | kept => slot :: kept

/-- The lowest free number, and the table with it reserved; nothing when all are used. -/
def reserve (t : ReservationTable α) : Option (Nat × ReservationTable α) :=
  match t.slots.findIdx? Slot.isFree with
  | some i => some (i, { t with slots := t.slots.set i .reserved })
  | none =>
    if t.slots.length < t.limit then
      some (t.slots.length, { t with slots := t.slots ++ [.reserved] })
    else none

def isReserved (t : ReservationTable α) (i : Nat) : Bool :=
  match t.slots[i]? with
  | some .reserved => true
  | _ => false

/-- Puts a value into a reserved slot; hands it back if the slot is not reserved. -/
def fill (t : ReservationTable α) (i : Nat) (value : α) : Except α (ReservationTable α) :=
  if t.isReserved i then .ok { t with slots := t.slots.set i (.taken value) }
  else .error value

/-- The value of a taken slot. -/
def get? (t : ReservationTable α) (i : Nat) : Option α := t.slots[i]?.bind Slot.value?

/-- Puts a value at a number, with the value it displaces. Hands the value back if the number is
past the limit, or reserved for someone else. -/
def replace (t : ReservationTable α) (i : Nat) (value : α) :
    Except α (Option α × ReservationTable α) :=
  if t.limit ≤ i ∨ t.isReserved i then .error value
  else
    let grown := t.slots ++ List.replicate (i + 1 - t.slots.length) .free
    .ok (t.get? i, { t with slots := grown.set i (.taken value) })

/-- Frees a number, with the value that was there. -/
def release (t : ReservationTable α) (i : Nat) : Option α × ReservationTable α :=
  if i < t.slots.length then (t.get? i, { t with slots := trim (t.slots.set i .free) })
  else (none, t)

/-- The values in the order of their numbers. -/
def values (t : ReservationTable α) : List α := t.slots.filterMap Slot.value?

/-- How many slots are taken. -/
def occupied (t : ReservationTable α) : Nat := t.values.length

/-- The values in the order of their numbers, and the table left empty. -/
def drain (t : ReservationTable α) : List α × ReservationTable α :=
  (t.values, { t with slots := [] })

end ReservationTable

end VirtualFs
