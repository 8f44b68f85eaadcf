/-
A read-only volume is frozen, whatever is called: its trees stay whole, with
all that their nodes hold, and so does the number its next node gets. This
needs that no open stream on it may be written to begin with, and keeps that.
-/
import VirtualFs.Proofs.ClosedOnce
import VirtualFs.Proofs.SealedFiles
import VirtualFs.Proofs.SystemCalls

namespace VirtualFs

/-- A memory node is its skeleton, its bytes and what is mounted on it. -/
theorem Node.IsRam.eq_of_skeleton {a b : Node} (ha : a.IsRam) (hb : b.IsRam)
    (hskeleton : a.skeleton = b.skeleton) (hbytes : a.bytes? = b.bytes?) :
    { a with mountRoot := none } = { b with mountRoot := none } := by
  have hpayload : a.payload = b.payload := by
    have hsame : Payload.skeleton (.ram a.ram) = Payload.skeleton (.ram b.ram) := by
      rw [← ha.payload, ← hb.payload]
      exact congrArg Node.payload hskeleton
    rw [ha.payload, hb.payload]
    rw [Node.bytes?, Node.bytes?, ha.payload, hb.payload] at hbytes
    generalize a.ram = x at hsame hbytes
    generalize b.ram = y at hsame hbytes
    obtain ⟨parent, content, uid, gid, accessTime, modifyTime, changeTime⟩ := x
    obtain ⟨parent', content', uid', gid', accessTime', modifyTime', changeTime'⟩ := y
    simp only [Payload.skeleton, Payload.ram.injEq, RamNode.mk.injEq] at hsame ⊢
    obtain ⟨rfl, hcontent, rest⟩ := hsame
    refine ⟨rfl, ?_, rest⟩
    -- Files have the same bytes, and other contents are their own skeletons.
    cases content <;> cases content' <;> simp_all [Content.skeleton]
  calc
    { a with mountRoot := none } = { a.skeleton with payload := a.payload } := rfl
    _ = { b.skeleton with payload := b.payload } := by rw [hskeleton, hpayload]
    _ = { b with mountRoot := none } := rfl

namespace World

/-- The volume is as it was, and so are its nodes but for what is mounted on them. None has been
made, and all that names lead to from its root is in its place. -/
structure Frozen (v : VolumeKey) (w w' : World) : Prop where
  volume : w'.volumes.get? v = w.volumes.get? v
  node : ∀ n, w'.Live n → (w'.node n).volume = v →
    w.Live n ∧ { w'.node n with mountRoot := none } = { w.node n with mountRoot := none }
  tree : ∀ n, w.Attached n → (w.node n).volume = v →
    w'.Attached n ∧ { w'.node n with mountRoot := none } = { w.node n with mountRoot := none }

/-- A read-only volume that has been mounted, on which no open stream may be written. -/
structure Sealed (w : World) (v : VolumeKey) : Prop where
  readOnly : w.ReadOnly v
  unwritten : w.Unwritten v

variable {v : VolumeKey} {w w' w'' : World}

theorem Frozen.refl (w : World) : w.Frozen v w :=
  ⟨rfl, fun _ hn _ => ⟨hn, rfl⟩, fun _ hn _ => ⟨hn, rfl⟩⟩

theorem Frozen.trans (h : w.Frozen v w') (h' : w'.Frozen v w'') : w.Frozen v w'' where
  volume := h'.volume.trans h.volume
  node n hn hv := by
    obtain ⟨hn', hsame'⟩ := h'.node n hn hv
    obtain ⟨hn, hsame⟩ := h.node n hn' ((congrArg Node.volume hsame').symm.trans hv)
    exact ⟨hn, hsame'.trans hsame⟩
  tree n hn hv := by
    obtain ⟨hn', hsame⟩ := h.tree n hn hv
    obtain ⟨hn'', hsame'⟩ := h'.tree n hn' ((congrArg Node.volume hsame).trans hv)
    exact ⟨hn'', hsame'.trans hsame⟩

/-- Where trees and files are left alone, all of the volume is. -/
theorem Exempts.frozen (hexempts : w.Exempts v w') (hseals : w.Seals v w') (h : w.WellFormed)
    (h' : w'.WellFormed) : w.Frozen v w' := by
  have hnode : ∀ n, w'.Live n → (w'.node n).volume = v →
      w.Live n ∧ { w'.node n with mountRoot := none } = { w.node n with mountRoot := none } := by
    intro n hn hv
    obtain ⟨hold, hskeleton⟩ := hexempts.node n hn hv
    obtain ⟨-, -, hbytes⟩ := hseals.node n hn hv
    exact ⟨hold, (h'.ram n hn).eq_of_skeleton (h.ram n hold) hskeleton hbytes⟩
  have htree : ∀ n, w.Attached n → (w.node n).volume = v →
      w'.Attached n ∧ (w'.node n).volume = v := by
    intro n hn
    induction hn with
    | @root u hu =>
      intro hv
      obtain rfl : u = v := (h.rooted.volume u hu).symm.trans hv
      have hu' : w'.volumes.has u = true := hexempts.has.trans hu
      rw [← hexempts.volume_eq]
      exact ⟨.root hu', h'.rooted.volume u hu'⟩
    | @entry d name c _ he ih =>
      intro hv
      obtain ⟨hd', hv'⟩ := ih ((h.volume_of_entry he).symm.trans hv)
      have hsame := (hnode d (hd'.live h') hv').2
      have hchildren : w'.children d = w.children d := by
        show ({ w'.node d with mountRoot := none } : Node).payload.children = _
        rw [hsame]
        rfl
      have he' : w'.Entry d name c := by rwa [Entry, hchildren]
      exact ⟨hd'.entry he', (h'.volume_of_entry he').trans hv'⟩
  refine ⟨hexempts.volume, hnode, fun n hn hv => ?_⟩
  obtain ⟨hn', hv'⟩ := htree n hn hv
  exact ⟨hn', (hnode n (hn'.live h') hv').2⟩

/-- Where no stream came to be written there is none now. -/
theorem Seals.unwritten (hseals : w.Seals v w') (h' : w'.WellFormed)
    (hunwritten : w.Unwritten v) : w'.Unwritten v := by
  intro f file' hfile' hv'
  have hlive' := h'.held.file f file' hfile'
  by_contra hwrites
  obtain ⟨file, hfile, heq, hwas⟩ :=
    hseals.writer f file' hfile' hlive' hv' (by simpa using hwrites)
  obtain ⟨-, hv, -⟩ := hseals.node _ hlive' hv'
  rw [← heq] at hv
  rw [hunwritten f file hfile hv] at hwas
  cases hwas

end World

namespace World

/-- What is read off a volume stays as it is if the change leaves it alone. -/
theorem view_setVolume {α : Type} {w : World} {v : VolumeKey} (view : Volume → α)
    {f : Volume → Volume} (hv : w.volumes.has v = true)
    (hview : ∀ volume, view (f volume) = view volume) (u : VolumeKey) :
    view ((w.setVolume v f).volume u) = view (w.volume u) := by
  rw [volume_setVolume hv]
  split
  · next heq => rw [heq, hview]
  · rfl

/-- The flags of a volume are no matter of its trees. -/
theorem WellFormed.flagged {w : World} {v : VolumeKey} (h : w.WellFormed)
    (hv : w.volumes.has v = true) (flags : VolumeFlags) :
    (w.setVolume v fun volume => { volume with flags }).WellFormed := by
  have s : w.Alike (w.setVolume v fun volume => { volume with flags }) :=
    ⟨rfl, fun _ => Iff.rfl, fun _ => rfl, fun _ => rfl, fun _ => rfl, fun _ => rfl,
      fun _ => Iff.rfl, has_setVolume _, view_setVolume Volume.id hv fun _ => rfl,
      view_setVolume Volume.root hv fun _ => rfl, view_setVolume Volume.nextIno hv fun _ => rfl,
      rfl, Nat.le_refl _⟩
  exact ⟨h.ram, h.numbered.of_alike s, h.rooted.of_alike s,
    h.linked.of_alike s (fun _ => rfl) fun _ => rfl,
    h.mounted.of_alike s (fun _ => rfl) (view_setVolume Volume.point hv fun _ => rfl),
    h.held.of_alike s rfl rfl rfl rfl rfl⟩

end World

/-! ## Operations and calls -/

/-- **An operation leaves a read-only volume frozen.** -/
theorem Operation.freezes {w : World} {v : VolumeKey} (h : w.WellFormed) (hsealed : w.Sealed v)
    (op : Operation) : (op.run w).Sealed v ∧ w.Frozen v (op.run w) := by
  have hedits := op.edits h
  have h' := World.Edits.wellFormed hedits h
  have hexempts := op.exempts h hsealed.readOnly
  have hseals := op.seals h hsealed.readOnly hsealed.unwritten
  exact ⟨⟨hsealed.readOnly.congr hexempts hedits.rootVolume,
    hseals.unwritten h' hsealed.unwritten⟩, hexempts.frozen hseals h h'⟩

/-- What a program may call: an operation or a question of the library, or a system call. -/
inductive AnyCall where
  | library (call : Call)
  | system (call : SystemCall)

namespace AnyCall

/-- The world a call leaves. -/
def run : AnyCall → World → World
  | library call => call.act.after
  | system call => call.run

/-- The world that calls leave one after the other. -/
def runAll (calls : List AnyCall) (w : World) : World := calls.foldl (fun w call => call.run w) w

/-- Whatever is called, it does what an operation does, or nothing. -/
theorem run_amounts (call : AnyCall) (w : World) :
    call.run w = w ∨ ∃ op : Operation, call.run w = op.run w := by
  cases call with
  | system call => exact (call.run_amounts w).imp id fun ⟨op, _, hrun⟩ => ⟨op, hrun⟩
  | library call =>
    cases call with
    | operation op => exact .inr ⟨op, (op.run_eq_after w).symm⟩
    | access | flush | sync => exact .inl rfl
    | _ => exact .inl (Action.after_only _ w)

/-- **A read-only volume is frozen**: whatever calls are made, with whatever arguments, they leave
its trees, what its nodes hold and the number its next node gets, and no stream on it comes to be
one that may be written. -/
theorem runAll_freezes {w : World} {v : VolumeKey} (h : w.WellFormed) (hsealed : w.Sealed v)
    (calls : List AnyCall) :
    (runAll calls w).Sealed v ∧ w.Frozen v (runAll calls w) := by
  have hsteps : (runAll calls w).WellFormed ∧ (runAll calls w).Sealed v ∧
      w.Frozen v (runAll calls w) := by
    induction calls generalizing w with
    | nil => exact ⟨h, hsealed, .refl w⟩
    | cons call rest ih =>
      show (runAll rest (call.run w)).WellFormed ∧ (runAll rest (call.run w)).Sealed v ∧
        w.Frozen v (runAll rest (call.run w))
      rcases call.run_amounts w with hsame | ⟨op, hop⟩
      · rw [hsame]
        exact ih h hsealed
      · rw [hop]
        obtain ⟨hsealed', hfrozen⟩ := op.freezes h hsealed
        obtain ⟨h'', hsealed'', hfrozen'⟩ := ih (World.Edits.wellFormed (op.edits h) h) hsealed'
        exact ⟨h'', hsealed'', hfrozen.trans hfrozen'⟩
  exact hsteps.2

/-- A volume that was filled while it could be written, with a file that is still open for
reading. -/
def shelf : World :=
  (Operation.runAll [.addContext false, .addTask 1, .makeDirectory 0 none "/m" 0o755,
    .mount 0 "none" "/m" "tmpfs" ⟨0⟩ "", .makeDirectory 0 none "/m/d" 0o755,
    .openPath 0 none "/m/d/f" ⟨OpenFlags.createBit ||| OpenFlags.writeOnlyMode⟩ 0o644,
    .writev 0 ⟨0⟩ ["text".toUTF8], .close 0 ⟨0⟩, .makeSymlink 0 none "/m/l" "d/f",
    .openPath 0 none "/m/l" ⟨OpenFlags.readOnlyMode⟩ 0] (World.fresh {})).setVolume 1
      fun volume => { volume with flags := ⟨VolumeFlags.readOnlyBit⟩ }

/-- Names, bytes and attributes are to change, by way of a duplicate and of a new stream, too. -/
def attempts : List AnyCall :=
  [.system (.mkdirat 0 Syscall.atCwd "/m/e" 0o755), .system (.unlinkat 0 Syscall.atCwd "/m/l" 0),
    .system (.renameat 0 Syscall.atCwd "/m/d" Syscall.atCwd "/m/e"),
    .library (.operation (.writeStatus 0 ⟨0⟩ {} ⟨0x7f⟩)), .system (.dup 0 0),
    .library (.operation (.setFlags 0 ⟨1⟩ ⟨OpenFlags.readWriteMode⟩)),
    .system (.write 0 1 "more".toUTF8),
    .system (.openat 0 Syscall.atCwd "/m/l" (OpenFlags.readWriteMode ||| OpenFlags.truncateBit) 0),
    .system (.pwrite64 0 2 "more".toUTF8 0)]

theorem wellFormed_shelf : shelf.WellFormed :=
  World.WellFormed.flagged (World.Reachable.wellFormed ⟨{}, World.steps_runAll _ _⟩)
    (by decide +kernel) _

theorem runAll_freezes_shelf : shelf.WellFormed ∧ shelf.Sealed 1 ∧
    (runAll attempts shelf).Sealed 1 ∧ shelf.Frozen 1 (runAll attempts shelf) := by
  have hwrites : ∀ file ∈ shelf.files.toList, (shelf.node file.node).volume = 1 →
      file.writes = false := by decide +kernel
  have hsealed : shelf.Sealed 1 :=
    ⟨⟨by decide +kernel, by decide +kernel, by decide +kernel⟩,
      fun f file hfile => hwrites file (Arena.mem_toList.2 ⟨f, hfile⟩)⟩
  exact ⟨wellFormed_shelf, hsealed, runAll_freezes wellFormed_shelf hsealed attempts⟩

end AnyCall

end VirtualFs
