/-
The path of a task's directory, written into a buffer. The path there would be
if nothing bounded its length is what the buffer gets, with a zero byte after
it, as soon as both have room: not a byte less is enough, not a byte more is
needed.

The climb that rebuilds a path counts its room down from name to name. What
it finds does not depend on the room, so a climb that ends in some room ends
with the same path in any room that holds the path, and in no other
(`climb_room`). Nor does it depend on the limits of the instance, of which the
longest path enters only at its start (`climb_unlimited`).
-/
import VirtualFs.Proofs.SystemCalls
import VirtualFs.Proofs.Whereabouts
import VirtualFs.Proofs.WiderLimits

namespace VirtualFs

open Query (Unlimited)

/-! ## Listing without limits -/

namespace Query.Unlimited

variable {α : Type} {x : Query α}

theorem attempt (hx : x.Unlimited) : (attempt x).Unlimited :=
  fun w limits => congrArg Except.ok (hx w limits)

theorem andFinally {last : Query Unit} (hx : x.Unlimited) (hlast : last.Unlimited) :
    (x.andFinally last).Unlimited :=
  .bind hx.attempt fun _ => .bind hlast fun _ => .ofResult _

end Query.Unlimited

/-- Limits bear on a lookup only through the links it follows. -/
theorem resolveIn_unlimited (t : TaskId) (parent : NodeId) (name : String) {flags : LookupMode}
    (hflags : flags.followLinks = false) : (resolveIn t parent name flags).Unlimited := by
  rw [resolveIn, resolveName_eq_lookIn, hflags]
  refine .bind (lookIn_unlimited parent name _) fun sight => ?_
  cases sight with
  | here n => exact .pure n
  | entry dir n => exact .pure n

theorem openDirectory_unlimited (ops : OpsKind) (v : VolumeKey) (n : NodeId) (flags : OpenFlags) :
    (ops.openDirectory v n flags).Unlimited := by
  refine .bind (.note _) fun _ => .bind ?_ fun _ => .bind (.note _) fun _ => .pure _
  cases ops with
  | ram => exact .pure _
  | bare => exact .pure _
  | scripted meter script => exact .bind (.ofResult _) fun _ => .pure _

theorem close_unlimited (ops : OpsKind) (file : OpenFile) (key : Option FileId) :
    (ops.close file key).Unlimited := by
  refine .bind (.note _) fun _ => ?_
  cases ops with
  | ram => exact .pure _
  | bare => exact .pure _
  | scripted meter script => exact .ofResult _

theorem closeFile_unlimited (key : Option FileId) (file : OpenFile) :
    (closeFile key file).Unlimited := by
  rw [closeFile]
  split
  · exact .pure _
  refine .bind (.look fun _ _ => rfl) fun ops => ?_
  cases ops with
  | none => exact .pure _
  | some ops =>
    refine .bind (close_unlimited ops file key).attempt fun closed => ?_
    cases closed with
    | ok _ => exact .pure _
    | error e => exact .bind (.look fun _ _ => rfl) fun _ => .note _

theorem RamFs.nthEntry_unlimited (dir : NodeId) (index : Nat) :
    (RamFs.nthEntry dir index).Unlimited := by
  refine .world_bind (fun w => ?_) fun _ _ => rfl
  match index with
  | 0 => exact .pure _
  | 1 => exact .bind (RamFs.containerOf_unlimited dir) fun _ => .pure _
  | index + 2 => exact .bind (RamFs.childrenOf_unlimited dir) fun _ => .pure _

theorem entry_unlimited (ops : OpsKind) (v : VolumeKey) (dir : NodeId) (index : Nat) :
    (ops.entry v dir index).Unlimited := by
  cases ops with
  | ram => exact RamFs.nthEntry_unlimited dir index
  | bare => exact .throw _
  | scripted meter script =>
    exact .bind (.ofResult _) fun _ => .bind (Scripted.childrenOf_unlimited dir) fun _ =>
      .world_bind (fun _ => .pure _) fun _ _ => rfl

theorem openListing_unlimited (dir : NodeId) : (openListing dir).Unlimited :=
  .bind (opsOf_unlimited dir) fun ops => .bind (volumeOf_unlimited dir) fun v =>
    .bind (.look fun _ _ => rfl) fun _ => .bind (.demand _ _) fun _ =>
      openDirectory_unlimited ops v dir _

theorem leadsTo_unlimited (t : TaskId) (parent child : NodeId) (entry : DirEntry) :
    (leadsTo t parent child entry).Unlimited := by
  refine .world_bind (fun w => ?_) fun _ _ => rfl
  split
  · exact .pure _
  · exact .bind (resolveIn_unlimited t parent entry.name rfl) fun _ => .look fun _ _ => rfl

theorem findEntry_unlimited (ops : OpsKind) (v : VolumeKey) (dir : NodeId)
    {passes : DirEntry → Query Bool} (hpasses : ∀ entry, (passes entry).Unlimited)
    (rounds index : Nat) : (findEntry ops v dir passes rounds index).Unlimited := by
  induction rounds generalizing index with
  | zero => exact .pure _
  | succ rounds ih =>
    refine .bind (entry_unlimited ops v dir index) fun found => ?_
    cases found with
    | none => exact .pure _
    | some entry =>
      dsimp only
      split
      · exact ih (index + 1)
      · refine .bind (hpasses entry) fun passed => ?_
        cases passed with
        | true => exact .pure _
        | false => exact ih (index + 1)

/-- Under which name a directory lists another is the same under all limits. -/
theorem entryName_unlimited (t : TaskId) (parent child : NodeId) :
    (entryName t parent child).Unlimited := by
  refine .bind (opsOf_unlimited parent) fun ops => .bind (volumeOf_unlimited parent) fun v =>
    .bind (openListing_unlimited parent) fun listing =>
      .andFinally (.bind (.look fun _ _ => rfl) fun bound => .bind
        (findEntry_unlimited ops v parent (leadsTo_unlimited t parent child) bound 0) fun found =>
          ?_) (closeFile_unlimited none listing)
  cases found with
  | none => exact .world_bind (fun _ => .bind (.note _) fun _ => .throw _) fun _ _ => rfl
  | some name => exact .pure _

/-- A climb has the room it is given, whatever the limits are. -/
theorem climb_unlimited (t : TaskId) (room : Nat) (dir : NodeId) (below : String) :
    (climb t room dir below).Unlimited := by
  induction room using Nat.strong_induction_on generalizing dir below with
  | _ room ih =>
    rw [climb]
    refine .bind (resolveIn_unlimited t dir ".." rfl) fun parent =>
      .bind (entryName_unlimited t parent dir) fun name => ?_
    split
    · next hroom =>
      refine .bind (.look fun _ _ => rfl) fun top => ?_
      cases top with
      | true => exact .pure _
      | false => exact ih _ (by omega) parent _
    · exact .throw _

/-! ## A climb in more or in less room -/

section

variable {w : World}

/-- A climb that finishes in some room puts the same text in front in any room that this text fits
in, and fails in any other. -/
theorem climb_room (t : TaskId) {room : Nat} {dir : NodeId} {below path : String}
    (hpath : (climb t room dir below w).result = .ok path) :
    ∃ front : String, 0 < front.utf8ByteSize ∧ path = front ++ below ∧
      ∀ room', (climb t room' dir below w).result =
        if front.utf8ByteSize ≤ room' then .ok path else .error .nameTooLong := by
  -- Every name takes room, so the climb from the parent has less of it.
  induction room using Nat.strong_induction_on generalizing dir below with
  | _ room ih =>
    rw [climb] at hpath
    obtain ⟨parent, hparent, hpath⟩ := Query.result_bind_eq_ok.1 hpath
    obtain ⟨name, hname, hpath⟩ := Query.result_bind_eq_ok.1 hpath
    -- In any room the step finds the same parent and the same name.
    have hstep (room' : Nat) : (climb t room' dir below w).result =
        if name.utf8ByteSize + 1 ≤ room' then
          if w.sameIdentity parent w.rootNode then .ok ("/" ++ name ++ below)
          else (climb t (room' - (name.utf8ByteSize + 1)) parent ("/" ++ name ++ below) w).result
        else .error .nameTooLong := by
      rw [climb, Query.result_bind, hparent, Except.bind, Query.result_bind, hname, Except.bind]
      split
      · rw [Query.look_bind]
        split <;> rfl
      · rfl
    split at hpath
    · next hroom =>
      rw [Query.look_bind] at hpath
      split at hpath
      · next htop =>
        cases hpath
        refine ⟨"/" ++ name, ?_, rfl, fun room' => ?_⟩
        · rw [utf8ByteSize_slash_append]
          omega
        · rw [hstep, if_pos htop, utf8ByteSize_slash_append]
      · next htop =>
        obtain ⟨front, -, rfl, hfront⟩ := ih _ (by omega) hpath
        have hsize : (front ++ ("/" ++ name)).utf8ByteSize =
            front.utf8ByteSize + (name.utf8ByteSize + 1) := by
          rw [String.utf8ByteSize_append, utf8ByteSize_slash_append]
        refine ⟨front ++ ("/" ++ name), by omega, (String.append_assoc ..).symm, fun room' => ?_⟩
        rw [hstep, if_neg htop, hfront, hsize]
        by_cases hfits : front.utf8ByteSize + (name.utf8ByteSize + 1) ≤ room'
        · rw [if_pos (by omega), if_pos (by omega), if_pos hfits]
        · rw [if_neg hfits]
          by_cases hname : name.utf8ByteSize + 1 ≤ room'
          · rw [if_pos hname, if_neg (by omega)]
          · rw [if_neg hname]
    · cases hpath

/-! ## The path that nothing bounds -/

/-- The world with another bound on the length of paths. -/
def World.withPathLength (w : World) (limit : Nat) : World :=
  { w with limits := { w.limits with pathLength := limit } }

/-- The path there is for a task's directory as soon as both the capacity and the limit of the
instance are large enough. -/
def World.FullPath (w : World) (t : TaskId) (path : String) : Prop :=
  ∃ enough, ∀ capacity limit, enough ≤ capacity → enough ≤ limit →
    (workingDirectory t capacity (w.withPathLength limit)).result = .ok path

theorem workingDirectory_withPathLength (t : TaskId) (capacity limit : Nat) :
    (workingDirectory t capacity (w.withPathLength limit)).result =
      if w.sameIdentity (w.cwd t) w.rootNode then
        if 1 ≤ min capacity limit then .ok "/" else .error .nameTooLong
      else (climb t (min capacity limit) (w.cwd t) "" w).result := by
  rw [workingDirectory, Query.look_bind, absolutePath, Query.world_bind]
  by_cases htop : w.sameIdentity (w.cwd t) w.rootNode = true
  · have hhere : (w.withPathLength limit).sameIdentity ((w.withPathLength limit).cwd t)
        (w.withPathLength limit).rootNode = true := htop
    rw [if_pos htop, if_pos hhere, Query.result_bind, Query.result_demand]
    show Except.bind (if 1 ≤ min capacity limit then _ else _) _ = _
    split
    · rfl
    · rfl
  · have hhere : ¬(w.withPathLength limit).sameIdentity ((w.withPathLength limit).cwd t)
        (w.withPathLength limit).rootNode = true := htop
    rw [if_neg htop, if_neg hhere]
    exact climb_unlimited t (min capacity limit) (w.cwd t) "" w _

/-- A path that is rebuilt once is rebuilt wherever it fits, and is too long anywhere else. It is
never empty. -/
theorem workingDirectory_room {t : TaskId} {capacity limit : Nat} {path : String}
    (hpath : (workingDirectory t capacity (w.withPathLength limit)).result = .ok path) :
    0 < path.utf8ByteSize ∧ ∀ capacity' limit',
      (workingDirectory t capacity' (w.withPathLength limit')).result =
        if path.utf8ByteSize ≤ min capacity' limit' then .ok path else .error .nameTooLong := by
  rw [workingDirectory_withPathLength] at hpath
  split at hpath
  · next htop =>
    split at hpath
    · cases hpath
      refine ⟨by decide, fun capacity' limit' => ?_⟩
      rw [workingDirectory_withPathLength, if_pos htop]
      rfl
    · cases hpath
  · next htop =>
    obtain ⟨front, hfront, rfl, hroom⟩ := climb_room t hpath
    rw [String.append_empty] at hroom ⊢
    refine ⟨hfront, fun capacity' limit' => ?_⟩
    rw [workingDirectory_withPathLength, if_neg htop, hroom]

theorem fullPath_iff {t : TaskId} {path : String} :
    w.FullPath t path ↔ ∃ capacity limit,
      (workingDirectory t capacity (w.withPathLength limit)).result = .ok path := by
  constructor
  · rintro ⟨enough, hpath⟩
    exact ⟨enough, enough, hpath enough enough (Nat.le_refl _) (Nat.le_refl _)⟩
  · rintro ⟨capacity, limit, hpath⟩
    refine ⟨path.utf8ByteSize, fun capacity' limit' hcapacity hlimit => ?_⟩
    rw [(workingDirectory_room hpath).2, if_pos (by omega)]

/-- A path that is rebuilt is the one that nothing bounds, and fits. -/
theorem fullPath_of_workingDirectory {t : TaskId} {capacity : Nat} {path : String}
    (hpath : (workingDirectory t capacity w).result = .ok path) :
    w.FullPath t path ∧ path.utf8ByteSize ≤ min capacity w.limits.pathLength := by
  have hown : (workingDirectory t capacity (w.withPathLength w.limits.pathLength)).result =
      .ok path := hpath
  have hroom := (workingDirectory_room hown).2 capacity w.limits.pathLength
  refine ⟨fullPath_iff.2 ⟨capacity, w.limits.pathLength, hpath⟩, ?_⟩
  by_contra hlong
  rw [if_neg hlong] at hroom
  cases hpath.symm.trans hroom

namespace World.FullPath

variable {t : TaskId} {path path' : String} (hpath : w.FullPath t path)

include hpath

theorem ne_empty : 0 < path.utf8ByteSize := by
  obtain ⟨capacity, limit, hpath⟩ := fullPath_iff.1 hpath
  exact (workingDirectory_room hpath).1

/-- Of the path that nothing bounds there is all or nothing. -/
theorem workingDirectory_result (capacity : Nat) : (workingDirectory t capacity w).result =
    if path.utf8ByteSize ≤ min capacity w.limits.pathLength then .ok path
    else .error .nameTooLong := by
  obtain ⟨enough, limit, hpath⟩ := fullPath_iff.1 hpath
  exact (workingDirectory_room hpath).2 capacity w.limits.pathLength

end World.FullPath

/-- A directory that names lead to has the path of those names. -/
theorem World.Visible.fullPath (h : w.WellFormed) {t : TaskId} {names : List String}
    (hcwd : w.isDirectory (w.cwd t) = true) (hv : w.Visible names (w.cwd t)) :
    w.FullPath t (absoluteText names) := by
  have hsame := h.sameIdentity_iff (hv.live h) h.live_root
  have hroom := workingDirectory_withPathLength (w := w) t (absoluteText names).utf8ByteSize
    (absoluteText names).utf8ByteSize
  rw [Nat.min_self] at hroom
  refine fullPath_iff.2 ⟨_, _, hroom.trans ?_⟩
  by_cases hnames : names = []
  · subst hnames
    rw [if_pos (hsame.2 hv.eq_rootNode)]
    rfl
  · rw [if_neg fun htop => hnames (Visible.eq_nil h (hsame.1 htop ▸ hv)),
      climb_visible h t hv hcwd hnames, absoluteText, if_neg hnames, if_pos (Nat.le_refl _),
      String.append_empty]

/-! ## Filling the buffer -/

/-- Bytes that fit go to the front of a buffer and leave the rest of it. -/
theorem Bytes.scatter_singleton {data buffer : ByteArray} (h : data.size ≤ buffer.size) :
    Bytes.scatter data [buffer] = [data ++ buffer.extract data.size buffer.size] := by
  have hall : data.extract 0 buffer.size = data := by
    apply ByteArray.ext
    rw [ByteArray.data_extract]
    exact Array.extract_eq_self_of_le h
  rw [Bytes.scatter, Bytes.scatter, hall]

namespace Syscall

@[simp] theorem size_terminated (path : String) :
    (terminated path).size = path.utf8ByteSize + 1 := by
  rw [terminated, ByteArray.size_push]
  rfl

/-- The call ends as the search for the path did, and changes nothing. -/
theorem ended_getcwd (t : TaskId) (buffer : ByteArray) : (getcwd t buffer).ended w =
    (match (workingDirectory t (buffer.size - 1) w).result with
      | .ok path => .ok
        { count := (terminated path).size, buffers := Bytes.scatter (terminated path) [buffer] }
      | .error .nameTooLong => .error erange
      | .error cause => .error cause.errno, w) := by
  rw [getcwd, Action.ended_bind, perform, Action.ended_bind, Action.ended_attempt,
    ended_receiveCwd]
  cases (workingDirectory t (buffer.size - 1) w).result with
  | ok path => rfl
  | error e => cases e <;> rfl

theorem getcwd_of_ok {t : TaskId} {buffer : ByteArray} {path : String}
    (hpath : (workingDirectory t (buffer.size - 1) w).result = .ok path) :
    (getcwd t buffer w).result = .ok
      { count := (terminated path).size, buffers := Bytes.scatter (terminated path) [buffer] } := by
  have hended := congrArg Prod.fst (ended_getcwd (w := w) t buffer)
  rwa [hpath] at hended

theorem getcwd_of_nameTooLong {t : TaskId} {buffer : ByteArray}
    (hlong : (workingDirectory t (buffer.size - 1) w).result = .error .nameTooLong) :
    (getcwd t buffer w).result = .error erange := by
  have hended := congrArg Prod.fst (ended_getcwd (w := w) t buffer)
  rwa [hlong] at hended

theorem workingDirectory_of_getcwd {t : TaskId} {buffer : ByteArray} {filled : Filled}
    (hok : (getcwd t buffer w).result = .ok filled) :
    ∃ path, (workingDirectory t (buffer.size - 1) w).result = .ok path := by
  have hended := congrArg Prod.fst (ended_getcwd (w := w) t buffer)
  rw [show ((getcwd t buffer).ended w).1 = _ from hok] at hended
  cases hfound : (workingDirectory t (buffer.size - 1) w).result with
  | ok path => exact ⟨path, rfl⟩
  | error e =>
    rw [hfound] at hended
    cases e <;> cases hended

/-- The call answers with its buffer in any case: with the one it returns if it succeeds, and with
the one it was given if it fails. -/
theorem receiveCwd_answers (t : TaskId) (buffer : ByteArray) :
    ∃ received : Received Nat, (receiveCwd t buffer w).result = .ok received ∧
      (∀ filled, (getcwd t buffer w).result = .ok filled → received.buffers = filled.buffers) ∧
      ∀ e, (getcwd t buffer w).result = .error e → received.buffers = [buffer] := by
  have hended := congrArg Prod.fst (ended_receiveCwd t buffer w)
  cases hfound : (workingDirectory t (buffer.size - 1) w).result with
  | ok path =>
    rw [hfound] at hended
    refine ⟨_, hended, fun filled hok => ?_, fun e herror => ?_⟩
    · cases (getcwd_of_ok hfound).symm.trans hok
      rfl
    · cases (getcwd_of_ok hfound).symm.trans herror
  | error cause =>
    rw [hfound] at hended
    refine ⟨_, hended, fun filled hok => ?_, fun _ _ => rfl⟩
    obtain ⟨path, hpath⟩ := workingDirectory_of_getcwd hok
    cases hfound.symm.trans hpath

/-- A path that is found for a buffer leaves a byte of it for the zero. A path is never empty, so a
buffer without bytes is none for any path. -/
theorem size_terminated_le {t : TaskId} {buffer : ByteArray} {path : String}
    (hpath : (workingDirectory t (buffer.size - 1) w).result = .ok path) :
    (terminated path).size ≤ buffer.size := by
  obtain ⟨hfull, hfits⟩ := fullPath_of_workingDirectory hpath
  have hsome := hfull.ne_empty
  rw [size_terminated]
  omega

/-- **A buffer gets the whole path or nothing.** Of the path that nothing would bound, every buffer
that has a byte more than the path gets all of it with a zero byte after it, if the limit of the
instance allows for it; what is behind that in the buffer stays. Any other buffer stays as it is.
What is written never goes past the end of the buffer, however short the buffer is. -/
theorem getcwd_fills_or_leaves (w : World) (t : TaskId) (buffer : ByteArray) :
    (∀ filled, (getcwd t buffer w).result = .ok filled ↔ ∃ path, w.FullPath t path ∧
      path.utf8ByteSize ≤ w.limits.pathLength ∧ path.utf8ByteSize + 1 ≤ buffer.size ∧
      filled =
        { count := path.utf8ByteSize + 1
          buffers := [terminated path ++ buffer.extract (path.utf8ByteSize + 1) buffer.size] }) ∧
    (∀ path, w.FullPath t path →
      ¬(path.utf8ByteSize ≤ w.limits.pathLength ∧ path.utf8ByteSize + 1 ≤ buffer.size) →
      (getcwd t buffer w).result = .error erange) ∧
    (∃ received : Received Nat, (receiveCwd t buffer w).result = .ok received ∧
      (∀ filled, (getcwd t buffer w).result = .ok filled → received.buffers = filled.buffers) ∧
      ∀ e, (getcwd t buffer w).result = .error e → received.buffers = [buffer]) ∧
    ∀ path, (workingDirectory t (buffer.size - 1) w).result = .ok path →
      (terminated path).size ≤ buffer.size := by
  have hfilled {path : String} (hpath : (workingDirectory t (buffer.size - 1) w).result = .ok path) :
      (getcwd t buffer w).result = .ok
        { count := path.utf8ByteSize + 1
          buffers := [terminated path ++ buffer.extract (path.utf8ByteSize + 1) buffer.size] } := by
    have hroom := size_terminated_le hpath
    rw [getcwd_of_ok hpath, Bytes.scatter_singleton hroom, size_terminated]
    rfl
  refine ⟨fun filled => ⟨fun hok => ?_, ?_⟩, fun path hfull hlong => ?_,
    receiveCwd_answers t buffer, fun path => size_terminated_le⟩
  · obtain ⟨path, hpath⟩ := workingDirectory_of_getcwd hok
    obtain ⟨hfull, hfits⟩ := fullPath_of_workingDirectory hpath
    have hroom := size_terminated_le hpath
    rw [size_terminated] at hroom
    rw [hfilled hpath] at hok
    exact ⟨path, hfull, by omega, hroom, (Except.ok.inj hok).symm⟩
  · rintro ⟨path, hfull, hlimit, hroom, rfl⟩
    have hpath := hfull.workingDirectory_result (buffer.size - 1)
    rw [if_pos (by omega)] at hpath
    exact hfilled hpath
  · have hpath := hfull.workingDirectory_result (buffer.size - 1)
    have hsome := hfull.ne_empty
    rw [if_neg (by omega)] at hpath
    exact getcwd_of_nameTooLong hpath

/-- A path of eight bytes needs nine. Of more than nine the rest stays, and of fewer all. -/
theorem getcwd_fills_or_leaves_of_stacked :
    World.stacked.FullPath 0 "/z/b/c/d" ∧
    (∀ buffer : ByteArray, 9 ≤ buffer.size → (getcwd 0 buffer World.stacked).result = .ok
      { count := 9, buffers := [terminated "/z/b/c/d" ++ buffer.extract 9 buffer.size] }) ∧
    ∀ buffer : ByteArray, buffer.size < 9 →
      (getcwd 0 buffer World.stacked).result = .error erange ∧
      ∃ received : Received Nat, (receiveCwd 0 buffer World.stacked).result = .ok received ∧
        received.buffers = [buffer] := by
  have hfound : (workingDirectory 0 64 World.stacked).result = .ok "/z/b/c/d" := by decide +kernel
  have hsize : "/z/b/c/d".utf8ByteSize = 8 := by decide
  have hlimit : World.stacked.limits.pathLength = 4096 := by decide +kernel
  have hfull := (fullPath_of_workingDirectory hfound).1
  refine ⟨hfull, fun buffer hroom => ?_, fun buffer hroom => ?_⟩
  · refine ((getcwd_fills_or_leaves World.stacked 0 buffer).1 _).2 ⟨_, hfull, ?_, ?_, ?_⟩
    · rw [hsize, hlimit]
      omega
    · rw [hsize]
      exact hroom
    · rw [hsize]
      rfl
  · obtain ⟨-, hlong, ⟨received, hreceived, -, hleft⟩, -⟩ :=
      getcwd_fills_or_leaves World.stacked 0 buffer
    have herror := hlong _ hfull (by rw [hsize]; omega)
    exact ⟨herror, received, hreceived, hleft _ herror⟩

end Syscall

end

end VirtualFs
