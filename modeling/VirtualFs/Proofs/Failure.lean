/-
What operations are made of, and what it leaves when it fails: reserving and
binding numbers, letting files go, and what drivers are asked for. A number
that was reserved can be freed again so that nothing has changed, and nothing
stands in the way of binding it; the memory filesystem checks before it
changes anything.
-/
import VirtualFs.Handle.Lemmas
import VirtualFs.Proofs.Atomic
import VirtualFs.Proofs.Reachable

namespace VirtualFs

open VirtualFs.Action (fails_pure fails_throw fails_change fails_bind fails_query_bind
  fails_demand_bind fails_sure_bind fails_look_bind fails_note_bind fails_change_bind fails_when
  fails_orUndo)

/-! ## Reserved numbers -/

namespace World

/-- The number that a table gives next stays below the bit that selects the kernel's table. -/
def Numberable (w : World) (c : ContextId) : Prop :=
  ∀ slot files, (w.context c).files.reserve = some (slot, files) → slot < Handle.slotLimit

/-- A handle names a number that is reserved in a context. -/
structure Reserved (w : World) (c : ContextId) (h : Handle) : Prop where
  kernel : h.isKernel = (w.context c).kernel
  reserved : (w.context c).files.isReserved h.slot = true

variable {w w' : World} {c : ContextId} {handle : Handle}

theorem Reserved.congr (h : w.Reserved c handle) (hcontexts : w'.contexts = w.contexts) :
    w'.Reserved c handle := by
  have hcontext : w'.context c = w.context c := by rw [World.context, hcontexts, World.context]
  exact ⟨hcontext ▸ h.kernel, hcontext ▸ h.reserved⟩

theorem getElem?_setContext {context : Context} (hget : w.contexts[c]? = some context)
    (g : Context → Context) : (w.setContext c g).contexts[c]? = some (g context) := by
  rw [setContext, Array.getElem?_modify, if_pos rfl, hget, Option.map_some]

/-- A change to a context may be taken back. -/
theorem setContext_setContext {f g : Context → Context}
    (hback : ∀ context, w.contexts[c]? = some context → g (f context) = context) :
    (w.setContext c f).setContext c g = w := by
  have hcontexts : (w.contexts.modify c f).modify c g = w.contexts := by
    refine Array.ext_getElem? fun i => ?_
    rw [Array.getElem?_modify, Array.getElem?_modify]
    by_cases hi : c = i
    · subst hi
      rw [if_pos rfl, if_pos rfl]
      cases hget : w.contexts[c]? with
      | none => rfl
      | some context => rw [Option.map_some, Option.map_some, hback context hget]
    · rw [if_neg hi, if_neg hi]
  rw [setContext, setContext, hcontexts]

end World

variable {w start : World} {c : ContextId} {handle : Handle} {n : NodeId}

/-- A number that was reserved can be freed again, and then nothing has changed. -/
theorem allocateHandle_fails (htabled : w.Tabled) (hnumbers : w.Numberable c) :
    (allocateHandle c).FailsTo w w fun handle w' => w'.Reserved c handle ∧
      w'.nodes = w.nodes ∧ (giveBack c handle).after w' = w := by
  refine fails_look_bind ?_
  split
  · exact fails_throw
  next slot files hreserve =>
  refine fails_change_bind (fails_pure ?_)
  have hslot := hnumbers slot files hreserve
  have hneat := htabled.neat_of_reserve hreserve
  obtain ⟨context, hget⟩ := World.exists_context_of_reserve hreserve
  have hcontext := World.context_of_getElem? hget
  have hget' := World.getElem?_setContext hget fun context => { context with files }
  have hcontext' := World.context_of_getElem? hget'
  rw [hcontext] at hneat hreserve ⊢
  refine ⟨⟨?_, ?_⟩, rfl, ?_⟩
  · rw [hcontext', Handle.isKernel_ofSlot hslot]
  · rw [hcontext', Handle.slot_ofSlot hslot, ReservationTable.isReserved_iff,
      (ReservationTable.slotAt_reserve hreserve).2.2, if_pos rfl]
  · have hnone : (files.release slot).1 = none := by
      rw [ReservationTable.release_fst, ReservationTable.get?_eq,
        (ReservationTable.slotAt_reserve hreserve).2.2, if_pos rfl]
      rfl
    rw [Action.after, giveBack, freeHandle, Action.bind_assoc_action,
      Action.bind_ok (Action.look_apply _ _), hcontext',
      if_pos (Handle.isKernel_ofSlot hslot _), Handle.slot_ofSlot hslot]
    change (dropDisplaced (files.release slot).1 _).world = w
    rw [hnone]
    refine World.setContext_setContext fun old hold => ?_
    obtain rfl : context = old := Option.some.inj (hget.symm.trans hold)
    change ({ context with files := (files.release slot).2 } : Context) = context
    rw [hneat.release_reserve hreserve]

/-- Work that changes nothing when it fails may be done with a reserved number. -/
theorem withReserved_fails (h : w.WellFormed) (hnumbers : w.Numberable c)
    {work : Handle → Act Handle}
    (hwork : ∀ handle w', w'.WellFormed → w'.Reserved c handle → w'.nodes = w.nodes →
      (work handle).Atomic w') : (withReserved c work).Atomic w := by
  have hmoves : (allocateHandle c).Leads (World.Move .all) w fun _ w' =>
      w'.nodes = w.nodes ∧ w'.volumes = w.volumes := (allocateHandle_turns h.steady c).moves
  have h' : ((allocateHandle c).after w).WellFormed :=
    World.Edits.wellFormed (h.edits_of_moves hmoves.1) h
  obtain ⟨hfail, hok⟩ := allocateHandle_fails h.held.table hnumbers
  refine fails_bind (P := fun handle w' => w'.WellFormed ∧ w'.Reserved c handle ∧
    w'.nodes = w.nodes ∧ (giveBack c handle).after w' = w) ⟨hfail, fun a ha => ⟨h', hok a ha⟩⟩ ?_
  rintro handle w' ⟨hw', hreserved, hnodes, hback⟩
  exact fails_orUndo (hwork handle w' hw' hreserved hnodes) hback

theorem bindable_result (h : w.Reserved c handle) : (bindable c handle w).result = .ok () := by
  have hbelongs : (belongs c handle w).result = .ok () := by
    rw [belongs, Query.look_bind, Query.result_demand_eq_ok]
    exact h.kernel
  rw [bindable, Query.result_bind, hbelongs, Except.bind, Query.look_bind,
    Query.result_demand_eq_ok]
  exact h.reserved

/-- Nothing stands in the way of binding a number that is reserved. -/
theorem bindHandle_fails (h : w.Reserved c handle) (f : FileId) :
    (bindHandle c handle f).FailsTo start w fun _ _ => True := by
  refine fails_sure_bind (bindable_result h) (fails_look_bind ?_)
  rw [ReservationTable.fill, if_pos h.reserved]
  exact fails_change trivial

theorem commitFile_fails (h : w.Reserved c handle) (file : OpenFile) :
    (commitFile c handle file).FailsTo start w fun _ _ => True := by
  have hbindable : (Query.attempt (bindable c handle) w).result = .ok (.ok ()) := by
    rw [Query.result_attempt, bindable_result h]
  refine fails_sure_bind hbindable ?_
  refine fails_bind (P := fun _ w' => w'.contexts = w.contexts)
    (fails_look_bind (fails_change_bind (fails_pure rfl))) fun f w' hcontexts => ?_
  exact fails_bind (bindHandle_fails (h.congr hcontexts) f) fun _ _ _ => fails_pure trivial

/-! ## Letting go -/

theorem dropFile_fails (f : FileId) : (dropFile f).FailsTo start w fun _ _ => True := by
  refine fails_look_bind ?_
  split
  · exact fails_pure trivial
  · exact fails_look_bind (fails_sure_bind (closeFile_result _ _) (fails_change trivial))

theorem dropFiles_fails (files : List FileId) :
    (dropFiles files).FailsTo start w fun _ _ => True := by
  induction files generalizing w with
  | nil => exact fails_pure trivial
  | cons f rest ih =>
    rw [dropFiles]
    split
    · exact ih
    · exact fails_bind (dropFile_fails f) fun _ _ _ => ih

theorem dropDisplaced_fails (displaced : Option FileId) :
    (dropDisplaced displaced).FailsTo start w fun _ _ => True := by
  cases displaced with
  | none => exact fails_pure trivial
  | some f => exact dropFile_fails f

theorem freeHandle_fails (c : ContextId) (handle : Handle) :
    (freeHandle c handle).FailsTo start w fun _ _ => True := by
  refine fails_look_bind ?_
  split
  · exact fails_change_bind (fails_pure trivial)
  · exact fails_pure trivial

theorem giveBack_fails (c : ContextId) (handle : Handle) :
    (giveBack c handle).FailsTo start w fun _ _ => True :=
  fails_bind (freeHandle_fails c handle) fun displaced _ _ => dropDisplaced_fails displaced

theorem emptyTable_fails (c : ContextId) :
    (emptyTable c).FailsTo start w fun _ _ => True :=
  fails_look_bind (fails_change_bind (dropFiles_fails _))

/-! ## The memory filesystem -/

namespace RamFs

theorem truncate_fails (n : NodeId) :
    (truncate n).FailsTo w w fun _ w' => w'.contexts = w.contexts := by
  refine fails_query_bind fun _ _ => ?_
  split
  · exact fails_change rfl
  · exact fails_pure rfl

theorem openFile_fails (n : NodeId) (flags : OpenFlags) :
    (openFile n flags).FailsTo w w fun _ w' => w'.contexts = w.contexts :=
  fails_bind (fails_when (fun _ => truncate_fails n) fun _ => rfl) fun _ _ hcontexts =>
    fails_pure hcontexts

/-- What was written has its end within the largest file, so the position after it is one. -/
theorem write_fails (n : NodeId) (position : Nat) (data : ByteArray) :
    (write n position data).FailsTo w w fun count w' =>
      w' = w ∨ position + count ≤ fileSizeMax := by
  refine fails_query_bind fun _ _ => ?_
  split
  · split
    · exact fails_pure (.inl rfl)
    · exact fails_demand_bind fun hsize => fails_change_bind (fails_pure (.inr hsize))
  · exact fails_query_bind fun _ _ => fails_demand_bind fun _ => fails_throw

theorem setSize_fails (n : NodeId) (size : Nat) : (setSize n size).Atomic w := by
  refine fails_demand_bind fun _ => fails_query_bind fun _ _ => ?_
  split
  · exact fails_change trivial
  · exact fails_throw
  · exact fails_throw
  · exact fails_throw

/-- Only the size can be refused, and it comes first. -/
theorem writeStatus_fails (n : NodeId) (status : Status) (mask : StatusMask) :
    (writeStatus n status mask).Atomic w :=
  fails_query_bind fun _ _ =>
    fails_bind (fails_when (fun _ => setSize_fails n _) fun _ => trivial) fun _ _ _ =>
      fails_bind (P := fun _ _ => True)
        (fails_when (fun _ => fails_change trivial) fun _ => trivial) fun _ _ _ =>
          fails_change trivial

end RamFs

/-! ## Requests -/

section

variable {v : VolumeKey}

theorem OpsKind.openFile_fails (ops : OpsKind) (n : NodeId) (flags : OpenFlags) :
    (ops.openFile v n flags).FailsTo w w fun _ w' => w'.contexts = w.contexts := by
  have hopened : ((Backends.ops ops).openFile v n flags).FailsTo w w fun _ w' =>
      w'.contexts = w.contexts := by
    cases ops with
    | ram => exact RamFs.openFile_fails n flags
    | bare => exact fails_pure rfl
    | scripted meter script => exact fails_query_bind fun _ _ => fails_pure rfl
  exact fails_note_bind (fails_bind hopened fun _ _ hcontexts =>
    fails_note_bind (fails_pure hcontexts))

theorem OpsKind.write_fails (ops : OpsKind) (file : OpenFile) (position : Nat) (data : ByteArray) :
    (ops.write file position data).FailsTo w w fun count w' =>
      w' = w ∨ position + count ≤ RamFs.fileSizeMax := by
  refine fails_note_bind ?_
  cases ops with
  | ram => exact RamFs.write_fails file.node position data
  | bare => exact fails_throw
  | scripted meter script => exact fails_query_bind fun _ _ => fails_pure (.inl rfl)

theorem OpsKind.writeStatus_fails (ops : OpsKind) (n : NodeId) (status : Status)
    (mask : StatusMask) : (ops.writeStatus v n status mask).Atomic w := by
  cases ops with
  | ram => exact RamFs.writeStatus_fails n status mask
  | bare => exact fails_throw
  | scripted meter script => exact fails_throw

end

end VirtualFs
