/-
A device is known by its number, and a number is all that is looked at when a
device is moved or withdrawn: not that it is the number of a device. Whatever
is listed below the device directory is moved and, unless it is a directory,
withdrawn like a device. Where nothing has the number, nothing is touched.
-/
import VirtualFs.Proofs.DeviceCalls

namespace VirtualFs

open VirtualFs.Action (ended_ask_bind ended_query_bind ended_query_bind_error)

section

variable {w : World} (h : w.WellFormed) {d c : NodeId} {name : String}

include h

namespace RamFs

/-- What is no directory can be taken away. -/
theorem result_unlink (hentry : w.Entry d name c) :
    (unlink (w.node d).volume d name w).result =
      if w.isDirectory c then .error .isADirectory else .ok () := by
  have hlive := hentry.live
  obtain ⟨ino, hnext⟩ := nextInoOf_result h hlive
  have hget : (w.children d).get? name = some c := hentry
  rw [unlink, Action.result_query_bind, hnext, Except.bind, Action.result_query_bind,
    childrenOf_result h (h.isDirectory_of_entry hentry), Except.bind,
    Action.result_query_bind, Query.result_expect, hget, Option.elim_some, Except.bind,
    Action.result_query_bind, Query.result_look, Except.bind, Action.result_query_bind,
    Query.result_demand]
  cases w.isDirectory c <;> rfl

/-- What has no entry below the device directory is not found there. -/
theorem findDevice_error {ino : Nat} (hnone : ∀ d name c, ¬w.DeviceEntry ino d name c) :
    ∃ e, (findDevice w.rootVolume ino w).result = .error e := by
  cases hfound : (findDevice w.rootVolume ino w).result with
  | error e => exact ⟨e, rfl⟩
  | ok found =>
    obtain ⟨c, hentry⟩ := (findDevice_result h ino).1 hfound
    exact absurd hentry (hnone _ _ _)

end RamFs

/-! ## Withdrawing -/

theorem withdrawDevice_of_entry (htidy : w.Tidy) {ino : Nat}
    (hdevice : w.DeviceEntry ino d name c) :
    (w.isDirectory c = true ∧ (withdrawDevice ino).ended w = (.error .isADirectory, w)) ∨
      w.isDirectory c = false ∧
        ∃ w', (withdrawDevice ino).ended w = (.ok (), w') ∧ w.Loses w' d name c := by
  obtain ⟨⟨path, hd⟩, hentry, -⟩ := id hdevice
  have hlive := hentry.live
  have hfound := (RamFs.findDevice_result h ino).2 ⟨c, hdevice⟩
  have hended : (withdrawDevice ino).ended w =
      (RamFs.unlink (w.node d).volume d name).ended w := by
    rw [withdrawDevice, ended_ask_bind, RamFs.withdrawDevice, ended_query_bind hfound,
      World.volume_of_deviceWalk h hd]
  have hresult := RamFs.result_unlink h hentry
  have hremoves := (RamFs.unlink_removes h (w.node d).volume hlive name).and
    (RamFs.unlink_checks h (w.node d).volume hlive name)
  rw [hended]
  rcases hremoves.ended_cases with ⟨e, hended⟩ | ⟨u, w', hended, hremoved, hchecked⟩
  · have herror := (congrArg Prod.fst hended).symm.trans hresult
    split at herror
    · next hdir =>
      cases herror
      exact .inl ⟨hdir, hended⟩
    · cases herror
  · obtain ⟨c', -, hloses⟩ := hremoved.loses h htidy fun c hc =>
      h.mountRoot_of_not_isDirectory (hchecked c hc)
    obtain rfl : c' = c := Option.some.inj (hloses.entry.symm.trans hentry)
    exact .inr ⟨hchecked c' hentry, w', hended, hloses⟩

/-! ## Moving -/

omit h in
/-- Directories on the way are all that a move that fails may leave, and they take no entry away. -/
theorem World.Transfers.kept {w' : World} {ino : Nat} {names : List String} {e : Error}
    (htransfers : w.Transfers w' ino names (.error e)) : w.entries ⊆ w'.entries := by
  rcases htransfers with rfl | ⟨-, dev, -, hpaves⟩
  · exact subset_rfl
  · exact hpaves.kept

/-- A move takes its entry away, and what stood in its new place. -/
theorem World.Transfers.moved {w' : World} {ino : Nat} {names : List String}
    (htransfers : w.Transfers w' ino names (.ok ())) (hdevice : w.DeviceEntry ino d name c) :
    ∃ d' name', w'.Entry d' name' c ∧ ∀ e ∈ w.entries,
      e ∈ w'.entries ∨ e = (d, name, c) ∨ e.1 = d' ∧ e.2.1 = name' := by
  obtain ⟨dev, front, name', d', oldDir, oldName, c', w₁, -, rfl, hpaves, hd', hdevice', hc',
    hmoved⟩ := htransfers
  obtain ⟨rfl, rfl, rfl⟩ := hdevice.unique h hdevice'
  rcases hmoved with rfl | hshifts
  · exact ⟨d, name, hdevice.2.1, fun e he => .inl he⟩
  · refine ⟨d', name', hshifts.entry_new, fun e he => ?_⟩
    rw [hshifts.entries, Set.mem_insert_iff, Set.mem_sdiff, Set.mem_ofPred_eq]
    have he₁ := hpaves.kept he
    tauto

end

/-- **Devices are taken by their numbers.** Let an entry somewhere below the device directory be
that of a node with the number, in a world that operations lead to. If the node is no directory,
withdrawing takes that entry away and no other; moving, if it succeeds, takes it to another place.
If there is no such entry, both fail and change nothing. A move that fails takes no entry away. -/
theorem device_calls_go_by_number {w : World} (hw : w.Reachable) (ino : Nat) (path : String) :
    (∀ d name c, w.DeviceEntry ino d name c →
      ((w.isDirectory c = true ∧ (withdrawDevice ino).ended w = (.error .isADirectory, w)) ∨
        w.isDirectory c = false ∧
          ∃ w', (withdrawDevice ino).ended w = (.ok (), w') ∧ w.Loses w' d name c) ∧
      ∀ w', (moveDevice ino path).ended w = (.ok (), w') → ∃ d' name', w'.Entry d' name' c ∧
        ∀ e ∈ w.entries, e ∈ w'.entries ∨ e = (d, name, c) ∨ e.1 = d' ∧ e.2.1 = name') ∧
    ((∀ d name c, ¬w.DeviceEntry ino d name c) →
      ∃ e, (withdrawDevice ino).ended w = (.error e, w) ∧
        (moveDevice ino path).ended w = (.error e, w)) ∧
    ∀ e w', (moveDevice ino path).ended w = (.error e, w') → w.entries ⊆ w'.entries := by
  have h := hw.wellFormed
  have hcall : (moveDevice ino path).ended w =
      (RamFs.moveDevice w.rootVolume ino path).ended w := ended_ask_bind _ _
  have htransfers := RamFs.moveDevice_transfers h hw.tidy ino path
  rw [← hcall] at htransfers
  refine ⟨fun d name c hdevice => ⟨withdrawDevice_of_entry h hw.tidy hdevice, fun w' hmoved => ?_⟩,
    fun hnone => ?_, fun e w' hfailed => ?_⟩
  · rw [hmoved] at htransfers
    exact htransfers.moved h hdevice
  · obtain ⟨e, herror⟩ := RamFs.findDevice_error h hnone
    refine ⟨e, ?_, ?_⟩
    · rw [withdrawDevice, ended_ask_bind, RamFs.withdrawDevice, ended_query_bind_error herror]
    · rw [hcall, RamFs.moveDevice, ended_query_bind_error herror]
  · rw [hfailed] at htransfers
    exact htransfers.kept

/-- An instance with a file and a directory below the device directory. -/
def strayFiles : World :=
  Operation.runAll
    [.addTask 0, .openPath 0 none "/dev/f" ⟨0x41⟩ 0o644, .makeDirectory 0 none "/dev/d" 0o755]
    (World.fresh {})

theorem device_calls_go_by_number_of_strayFiles :
    let w := strayFiles
    (w.Reachable ∧ w.DeviceEntry 3 1 "f" 2) ∧ w.isDirectory 2 = false ∧
      ∃ w', (withdrawDevice 3).ended w = (.ok (), w') ∧ w.Loses w' 1 "f" 2 := by
  intro w
  have hw : w.Reachable := ⟨_, World.steps_runAll _ _⟩
  have hentry : w.DeviceEntry 3 1 "f" 2 :=
    ⟨⟨[], by decide +kernel⟩, by decide +kernel, by decide +kernel⟩
  have hplain : w.isDirectory 2 = false := by decide +kernel
  obtain ⟨hdir, -⟩ | hwithdrawn :=
    ((device_calls_go_by_number hw 3 "").1 1 "f" 2 hentry).1
  · cases hplain.symm.trans hdir
  · exact ⟨⟨hw, hentry⟩, hwithdrawn⟩

/-- A file is withdrawn and a directory moved like a device, and neither is one. -/
theorem files_are_taken_for_devices :
    let w := strayFiles
    w.Reachable ∧ w.DeviceEntry 3 1 "f" 2 ∧ Mode.typeBits (w.node 2).mode = Mode.regular ∧
      (withdrawDevice 3 w).result = .ok () ∧ ¬((withdrawDevice 3).after w).Entry 1 "f" 2 ∧
      w.DeviceEntry 4 1 "d" 3 ∧ Mode.typeBits (w.node 3).mode = Mode.directory ∧
      (moveDevice 4 "e" w).result = .ok () ∧ ¬((moveDevice 4 "e").after w).Entry 1 "d" 3 := by
  refine ⟨⟨_, World.steps_runAll _ _⟩, ⟨⟨[], ?_⟩, ?_, ?_⟩, ?_, ?_, ?_, ⟨⟨[], ?_⟩, ?_, ?_⟩, ?_, ?_,
    ?_⟩ <;> decide +kernel

end VirtualFs
