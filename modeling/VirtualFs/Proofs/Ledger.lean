/-
Who still has to be closed. A file that is open for more than its path is
owed one close; the ledger of a stretch of a run compares what was opened and
closed in it with what is owed before and after. It balances for every choice
of nodes, and for each key by itself: a key that is there before is closed once
if it is owed before and not after, and not at all otherwise.

Stretches add up (`Ledger.trans`), so that what is said of one step is said of
a run.
-/
import Mathlib.Data.Finset.Card
import Mathlib.Order.Interval.Finset.Nat
import VirtualFs.Proofs.Manners

namespace VirtualFs

/-! ## What a trace says -/

/-- Opens a file of a node that passes. -/
def Event.opens (p : NodeId → Bool) : Event → Bool
  | .opened n => p n
  | _ => false

/-- Closes a file of a node that passes. -/
def Event.closes (p : NodeId → Bool) : Event → Bool
  | .used _ (.close n _) => p n
  | _ => false

/-- Closes the file of a key. -/
def Event.closesFile (f : FileId) : Event → Bool
  | .used _ (.close _ (some g)) => g == f
  | _ => false

/-- How many files of nodes that pass were opened. -/
def openings (p : NodeId → Bool) (t : List Event) : Nat := t.countP (Event.opens p)

/-- How many files of nodes that pass were closed. -/
def closings (p : NodeId → Bool) (t : List Event) : Nat := t.countP (Event.closes p)

/-- How often the file of a key was closed. -/
def closingsOf (f : FileId) (t : List Event) : Nat := t.countP (Event.closesFile f)

section

variable {p : NodeId → Bool} {f : FileId} {s t : List Event}

@[simp] theorem openings_append : openings p (s ++ t) = openings p s + openings p t :=
  List.countP_append

@[simp] theorem closings_append : closings p (s ++ t) = closings p s + closings p t :=
  List.countP_append

@[simp] theorem closingsOf_append : closingsOf f (s ++ t) = closingsOf f s + closingsOf f t :=
  List.countP_append

theorem Quiet.openings (h : Quiet t) : openings p t = 0 := by
  refine List.countP_eq_zero.2 fun event hevent hopens => ?_
  have hquiet := h event hevent
  cases event <;> simp [Event.opens, Event.isTurnover] at hopens hquiet

theorem Quiet.closings (h : Quiet t) : closings p t = 0 := by
  refine List.countP_eq_zero.2 fun event hevent hcloses => ?_
  have hquiet := h event hevent
  rcases event with _ | ⟨_, call⟩ | _ | _ <;> try cases hcloses
  cases call <;> simp [Event.closes, Event.isTurnover] at hcloses hquiet

theorem Quiet.closingsOf (h : Quiet t) : closingsOf f t = 0 := by
  refine List.countP_eq_zero.2 fun event hevent hcloses => ?_
  have hquiet := h event hevent
  rcases event with _ | ⟨_, call⟩ | _ | _ <;> try cases hcloses
  cases call <;> simp [Event.closesFile, Event.isTurnover] at hcloses hquiet

/-- Two traces open and close the same. -/
structure SameBooks (s t : List Event) : Prop where
  openings : ∀ p, openings p s = openings p t
  closings : ∀ p, closings p s = closings p t
  closingsOf : ∀ f, closingsOf f s = closingsOf f t

theorem SameBooks.refl (t : List Event) : SameBooks t t :=
  ⟨fun _ => rfl, fun _ => rfl, fun _ => rfl⟩

theorem SameBooks.append {s' t' : List Event} (h : SameBooks s t) (h' : SameBooks s' t') :
    SameBooks (s ++ s') (t ++ t') := by
  refine ⟨fun p => ?_, fun p => ?_, fun f => ?_⟩
  · rw [openings_append, openings_append, h.openings, h'.openings]
  · rw [closings_append, closings_append, h.closings, h'.closings]
  · rw [closingsOf_append, closingsOf_append, h.closingsOf, h'.closingsOf]

/-- What was opened was closed again, and none of it by a key. -/
structure Balanced (t : List Event) : Prop where
  balance : ∀ p, VirtualFs.openings p t = VirtualFs.closings p t
  none : ∀ f, VirtualFs.closingsOf f t = 0

theorem Quiet.balanced (h : Quiet t) : Balanced t :=
  ⟨fun _ => h.openings.trans h.closings.symm, fun _ => h.closingsOf⟩

theorem Balanced.append (hs : Balanced s) (ht : Balanced t) : Balanced (s ++ t) := by
  refine ⟨fun p => ?_, fun f => ?_⟩
  · rw [openings_append, closings_append, hs.balance, ht.balance]
  · rw [closingsOf_append, hs.none, ht.none]

theorem Quiet.sameBooks (h : Quiet t) : SameBooks [] t :=
  ⟨fun _ => h.openings.symm, fun _ => h.closings.symm, fun _ => h.closingsOf.symm⟩

end

namespace World

/-! ## What is owed -/

/-- An open file that has to be closed. -/
def owes (w : World) (f : FileId) : Bool := (w.files.get? f).any fun file => !file.isPath

/-- The files of nodes that pass that have to be closed. -/
def owed (p : NodeId → Bool) (w : World) : Finset FileId :=
  {f ∈ Finset.range w.files.nextKey | (w.owes f && p (w.file f).node) = true}

/-- The files that are open are the same, on the same nodes; only their flags and positions may
differ. -/
structure SameFiles (w w' : World) : Prop where
  next : w'.files.nextKey = w.files.nextKey
  file : ∀ f, (w'.files.get? f).map (fun file => (file.node, file.isPath)) =
    (w.files.get? f).map fun file => (file.node, file.isPath)

/-- A stretch of a run from one world to another, with what was seen on the way. -/
structure Ledger (w : World) (t : List Event) (w' : World) : Prop where
  next : w.files.nextKey ≤ w'.files.nextKey
  /-- A key does not come back, nor does it go over to another node. -/
  stays : ∀ f < w.files.nextKey, ∀ file', w'.files.get? f = some file' →
    ∃ file, w.files.get? f = some file ∧ file'.node = file.node ∧ file'.isPath = file.isPath
  /-- A file that was there is closed once as it goes, and not before. -/
  closed : ∀ f < w.files.nextKey, closingsOf f t + (w'.owes f).toNat = (w.owes f).toNat
  /-- A new key is that of a file that was made, which has been closed if it is gone. -/
  fresh : ∀ f < w'.files.nextKey, w.files.nextKey ≤ f → ∃ made : OpenFile,
    closingsOf f t + (w'.owes f).toNat = (!made.isPath).toNat ∧
      ∀ file, w'.files.get? f = some file → file.node = made.node ∧ file.isPath = made.isPath
  unborn : ∀ f, w'.files.nextKey ≤ f → closingsOf f t = 0
  balance : ∀ p, openings p t + (w.owed p).card = closings p t + (w'.owed p).card

section

variable {w w' w'' : World} {t t' : List Event} {f : FileId}

theorem SameFiles.of_files (h : w'.files = w.files) : w.SameFiles w' :=
  ⟨by rw [h], fun f => by rw [h]⟩

theorem SameFiles.trans (h : w.SameFiles w') (h' : w'.SameFiles w'') : w.SameFiles w'' :=
  ⟨h'.next.trans h.next, fun f => (h'.file f).trans (h.file f)⟩

theorem SameFiles.owes (h : w.SameFiles w') (f : FileId) : w'.owes f = w.owes f := by
  have hfile := h.file f
  rw [World.owes, World.owes]
  cases hget : w.files.get? f <;> cases hget' : w'.files.get? f <;>
    simp_all [Option.any]

theorem SameFiles.owed (h : w.SameFiles w') (p : NodeId → Bool) : w'.owed p = w.owed p := by
  rw [World.owed, World.owed, h.next]
  refine Finset.filter_congr fun f _ => ?_
  rw [h.owes]
  have hfile := h.file f
  rw [World.file, World.file]
  cases hget : w.files.get? f <;> cases hget' : w'.files.get? f <;> simp_all

theorem SameFiles.ledger (h : w.SameFiles w') (ht : Balanced t) : w.Ledger t w' where
  next := Nat.le_of_eq h.next.symm
  stays f _ file' hfile' := by
    have hfile := h.file f
    rw [hfile'] at hfile
    obtain ⟨file, hget, hsame⟩ := Option.map_eq_some_iff.1 hfile.symm
    rw [Prod.mk.injEq] at hsame
    exact ⟨file, hget, hsame.1.symm, hsame.2.symm⟩
  closed f _ := by rw [ht.none, h.owes, Nat.zero_add]
  fresh f hlt hge := absurd hlt (Nat.not_lt.2 (h.next ▸ hge))
  unborn f _ := ht.none f
  balance p := by rw [ht.balance, h.owed]

/-- One more file is open: what it owes is one more debt. -/
theorem owed_push {file : OpenFile} (hfiles : w'.files = w.files.push file) (p : NodeId → Bool) :
    (w'.owed p).card = (w.owed p).card + (!file.isPath && p file.node).toNat := by
  have hget : ∀ f, w'.files.get? f =
      if f = w.files.nextKey then some file else w.files.get? f := by
    intro f
    rw [hfiles, Arena.get?_push]
  have hold : {f ∈ Finset.range w.files.nextKey | (w'.owes f && p (w'.file f).node) = true} =
      w.owed p := by
    refine Finset.filter_congr fun f hf => ?_
    rw [World.owes, World.file, hget, if_neg (Nat.ne_of_lt (Finset.mem_range.1 hf))]
    rfl
  have hnew : (w'.owes w.files.nextKey && p (w'.file w.files.nextKey).node) =
      (!file.isPath && p file.node) := by
    rw [World.owes, World.file, hget, if_pos rfl]
    rfl
  rw [World.owed, hfiles, Arena.nextKey_push, Finset.range_add_one, Finset.filter_insert, hold,
    hnew]
  cases hdebt : (!file.isPath && p file.node) with
  | true =>
    rw [if_pos rfl, Finset.card_insert_of_notMem]
    · rfl
    · intro hmem
      exact absurd (Finset.mem_range.1 (Finset.mem_filter.1 hmem).1) (Nat.lt_irrefl _)
  | false => rw [if_neg Bool.false_ne_true]; rfl

/-- An open file is gone, and with it what it owed. -/
theorem owed_remove {file : OpenFile} (hfile : w.files.get? f = some file)
    (hfiles : w'.files = w.files.remove f) (p : NodeId → Bool) :
    (w.owed p).card = (w'.owed p).card + (!file.isPath && p file.node).toNat := by
  have hlt := Arena.lt_nextKey_of_has (Arena.has_iff.2 ⟨file, hfile⟩)
  have hget : ∀ g, w'.files.get? g = if f = g then none else w.files.get? g := by
    intro g
    rw [hfiles, Arena.get?_remove]
  have herase : w'.owed p = (w.owed p).erase f := by
    ext g
    rw [Finset.mem_erase, World.owed, World.owed, Finset.mem_filter, Finset.mem_filter, hfiles,
      Arena.nextKey_remove, World.owes, World.file, hget]
    by_cases hfg : f = g
    · simp [hfg]
    · rw [if_neg hfg, World.owes, World.file]
      exact ⟨fun h => ⟨fun heq => hfg heq.symm, h⟩, fun h => h.2⟩
  have hmem : f ∈ w.owed p ↔ (!file.isPath && p file.node) = true := by
    rw [World.owed, Finset.mem_filter, Finset.mem_range, World.owes, World.file, hfile]
    exact ⟨fun h => h.2, fun h => ⟨hlt, h⟩⟩
  rw [herase]
  cases hdebt : (!file.isPath && p file.node) with
  | true =>
    rw [hdebt] at hmem
    rw [Bool.toNat_true, Finset.card_erase_add_one (hmem.2 rfl)]
  | false =>
    rw [hdebt] at hmem
    rw [Finset.erase_eq_of_notMem fun h => Bool.false_ne_true (hmem.1 h)]
    rfl

theorem Ledger.trans (h : w.Ledger t w') (h' : w'.Ledger t' w'') : w.Ledger (t ++ t') w'' where
  next := Nat.le_trans h.next h'.next
  stays f hf file'' hfile'' := by
    obtain ⟨file', hfile', hnode', hpath'⟩ :=
      h'.stays f (Nat.lt_of_lt_of_le hf h.next) file'' hfile''
    obtain ⟨file, hfile, hnode, hpath⟩ := h.stays f hf file' hfile'
    exact ⟨file, hfile, hnode'.trans hnode, hpath'.trans hpath⟩
  closed f hf := by
    have hfirst := h.closed f hf
    have hsecond := h'.closed f (Nat.lt_of_lt_of_le hf h.next)
    rw [closingsOf_append]
    omega
  fresh f hlt hge := by
    by_cases hnew : f < w'.files.nextKey
    · obtain ⟨made, hmade, hsame⟩ := h.fresh f hnew hge
      have hsecond := h'.closed f hnew
      refine ⟨made, by rw [closingsOf_append]; omega, fun file'' hfile'' => ?_⟩
      obtain ⟨file', hfile', hnode', hpath'⟩ := h'.stays f hnew file'' hfile''
      obtain ⟨hnode, hpath⟩ := hsame file' hfile'
      exact ⟨hnode'.trans hnode, hpath'.trans hpath⟩
    · obtain ⟨made, hmade, hsame⟩ := h'.fresh f hlt (Nat.not_lt.1 hnew)
      have hfirst := h.unborn f (Nat.not_lt.1 hnew)
      exact ⟨made, by rw [closingsOf_append]; omega, hsame⟩
  unborn f hf := by
    rw [closingsOf_append, h.unborn f (Nat.le_trans h'.next hf), h'.unborn f hf]
  balance p := by
    have hfirst := h.balance p
    have hsecond := h'.balance p
    rw [openings_append, closings_append]
    omega

theorem Ledger.congr (h : w.Ledger t w') (hsame : SameBooks t t') : w.Ledger t' w' where
  next := h.next
  stays := h.stays
  closed f hf := by rw [← hsame.closingsOf]; exact h.closed f hf
  fresh f hlt hge := by rw [← hsame.closingsOf]; exact h.fresh f hlt hge
  unborn f hf := by rw [← hsame.closingsOf]; exact h.unborn f hf
  balance p := by rw [← hsame.openings, ← hsame.closings]; exact h.balance p

instance : Stretch Ledger where
  quiet h := (SameFiles.of_files rfl).ledger h.balanced
  trans := Ledger.trans

end

end World

end VirtualFs
