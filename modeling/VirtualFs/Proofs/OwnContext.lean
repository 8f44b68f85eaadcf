/-
What a task does by handles of its own table stays in its own context. Other
contexts, with their tables and working directories, are as they were, and so is
every open file that was there and that no number of the task's context is bound
to (`World.SameBeyond`). Files that are opened on the way are the context's own.
-/
import VirtualFs.Proofs.SystemCalls
import VirtualFs.Proofs.TouchedFiles
import VirtualFs.Proofs.Turnover

namespace VirtualFs

open Relation (ReflTransGen)
open World (OnlyOpen Sparing)
open VirtualFs.Action (leads_pure leads_throw leads_change leads_bind leads_query_bind
  leads_demand_bind leads_ask_bind leads_look_bind leads_note_bind leads_change_bind leads_orUndo
  does_bind does_note)

namespace World

/-- A number of the context is bound to the file. -/
def Holds (w : World) (c : ContextId) (f : FileId) : Prop := ∃ i, w.numbering.slot c i = .taken f

/-- A context's own files: what it holds, and what is yet to be opened. -/
def Owns (w : World) (c : ContextId) (f : FileId) : Prop := w.Holds c f ∨ w.files.nextKey ≤ f

/-- Beyond a context nothing has changed: other contexts are the same, other files are as they were,
and none of them is bound in the context. -/
structure SameBeyond (c : ContextId) (start w : World) : Prop where
  tasks : w.tasks = start.tasks
  contexts : ∀ c' ≠ c, w.contexts[c']? = start.contexts[c']?
  kernel : (w.context c).kernel = (start.context c).kernel
  nextKey : start.files.nextKey ≤ w.files.nextKey
  held : ∀ f, w.Holds c f → start.Owns c f
  file : ∀ f, ¬start.Owns c f → w.files.get? f = start.files.get? f

/-- A step to a world in which nothing has changed beyond a context since the start. -/
abbrev Within (c : ContextId) (start : World) (_ w' : World) : Prop := SameBeyond c start w'

namespace SameBeyond

variable {c : ContextId} {start w w' : World} {f : FileId}

theorem refl (c : ContextId) (w : World) : SameBeyond c w w where
  tasks := rfl
  contexts _ _ := rfl
  kernel := rfl
  nextKey := Nat.le_refl _
  held _ hf := .inl hf
  file _ _ := rfl

variable (h : SameBeyond c start w)

include h

theorem owns (hf : w.Owns c f) : start.Owns c f :=
  hf.elim (h.held f) fun hle => .inr (Nat.le_trans h.nextKey hle)

theorem trans (h' : SameBeyond c w w') : SameBeyond c start w' where
  tasks := h'.tasks.trans h.tasks
  contexts c' hc := (h'.contexts c' hc).trans (h.contexts c' hc)
  kernel := h'.kernel.trans h.kernel
  nextKey := Nat.le_trans h.nextKey h'.nextKey
  held f hf := h.owns (h'.held f hf)
  file f hf := (h'.file f (mt h.owns hf)).trans (h.file f hf)

theorem of_steps (hsteps : ReflTransGen (Within c start) w w') : SameBeyond c start w' := by
  cases hsteps with
  | refl => exact h
  | tail _ hlast => exact hlast

/-! ### Changes -/

theorem congr (hcontexts : w'.contexts = w.contexts) (htasks : w'.tasks = w.tasks)
    (hfiles : w'.files = w.files) : SameBeyond c start w' := by
  have hslot : w'.numbering.slot = w.numbering.slot :=
    congrArg Numbering.slot (numbering_congr hcontexts htasks (by rw [hfiles]))
  refine ⟨htasks.trans h.tasks, fun c' hc => ?_, ?_, ?_, fun f ⟨i, hi⟩ => ?_, fun f hf => ?_⟩
  · rw [hcontexts]
    exact h.contexts c' hc
  · rw [World.context, hcontexts]
    exact h.kernel
  · rw [hfiles]
    exact h.nextKey
  · exact h.held f ⟨i, by rw [← hslot]; exact hi⟩
  · rw [hfiles]
    exact h.file f hf

theorem spared (hspares : w.Spares w') : SameBeyond c start w' :=
  h.congr hspares.contexts hspares.tasks hspares.files

/-- The context's own open files may be moved and given other flags. -/
theorem onlyOpen (honly : OnlyOpen (start.Owns c) w w') : SameBeyond c start w' where
  tasks := honly.tasks.trans h.tasks
  contexts c' hc := by
    rw [honly.contexts]
    exact h.contexts c' hc
  kernel := by
    rw [World.context, honly.contexts]
    exact h.kernel
  nextKey := Nat.le_trans h.nextKey (Nat.le_of_eq honly.nextKey.symm)
  held f hf := by
    rw [Holds, honly.numbering_eq] at hf
    exact h.held f hf
  file f hf := (honly.file f hf).trans (h.file f hf)

theorem settled : SameBeyond c start w.settle := h.spared w.spares_settle

/-- The context itself may change, as long as its numbers are bound to its own files. -/
theorem setContext {g : Context → Context}
    (hkernel : ∀ context, (g context).kernel = context.kernel)
    (hg : ∀ i f, (g (w.context c)).files.slotAt i = .taken f → start.Owns c f) :
    SameBeyond c start (w.setContext c g) where
  tasks := h.tasks
  contexts c' hc := by
    rw [World.setContext, Array.getElem?_modify, if_neg fun heq => hc heq.symm]
    exact h.contexts c' hc
  kernel := by
    cases hget : w.contexts[c]? with
    | none =>
      rw [World.context, contexts_setContext_of_none hget]
      exact h.kernel
    | some context =>
      rw [context_setContext hget, if_pos rfl, hkernel]
      exact h.kernel
  nextKey := h.nextKey
  held f := by
    rintro ⟨i, hi⟩
    cases hget : w.contexts[c]? with
    | none =>
      refine h.held f ⟨i, ?_⟩
      rwa [numbering_slot, World.context, contexts_setContext_of_none hget] at hi
    | some context =>
      rw [numbering_slot, context_setContext hget, if_pos rfl] at hi
      exact hg i f hi
  file := h.file

theorem removeFile (hf : start.Owns c f) :
    SameBeyond c start { w with files := w.files.remove f } where
  tasks := h.tasks
  contexts := h.contexts
  kernel := h.kernel
  nextKey := Nat.le_trans h.nextKey (Nat.le_of_eq (Arena.nextKey_remove _ _).symm)
  held := h.held
  file g hg := by
    rw [Arena.get?_remove, if_neg (by rintro rfl; exact hg hf)]
    exact h.file g hg

theorem pushFile (file : OpenFile) : SameBeyond c start { w with files := w.files.push file } where
  tasks := h.tasks
  contexts := h.contexts
  kernel := h.kernel
  nextKey := Nat.le_trans h.nextKey (by simp)
  held := h.held
  file g hg := by
    have hlt : g < start.files.nextKey := Nat.not_le.1 fun hle => hg (.inr hle)
    rw [w.get?_pushed file (Nat.lt_of_lt_of_le hlt h.nextKey)]
    exact h.file g hg

end SameBeyond

end World

open World (SameBeyond Within)

/-! ## Tables -/

section

variable {c : ContextId} {start w : World} {f : FileId} (h : SameBeyond c start w)

include h

/-- What leaves tables and open files alone stays within any context. -/
theorem Action.Does.within {α : Type} {full : Prop} {x : Act α} (hx : x.Does Sparing full) :
    x.LeadsOnly (Within c start) w :=
  ⟨.single (h.spared (hx w).1), fun _ _ => trivial⟩

theorem allocateHandle_within : (allocateHandle c).LeadsOnly (Within c start) w := by
  refine leads_look_bind ?_
  split
  · exact leads_throw
  · next slot files hreserve =>
    refine leads_change_bind (.single (h.setContext (fun _ => rfl) fun i f hf => ?_))
      (leads_pure trivial)
    have hslot : files.slotAt i = .taken f := hf
    rw [(ReservationTable.slotAt_reserve hreserve).2.2] at hslot
    split at hslot
    · cases hslot
    · exact h.held f ⟨i, hslot⟩

theorem freeHandle_within (handle : Handle) : (freeHandle c handle).Leads (Within c start) w
    fun displaced _ => ∀ f ∈ displaced, start.Owns c f := by
  refine leads_look_bind ?_
  split
  · refine leads_change_bind (.single (h.setContext (fun _ => rfl) fun i f hf => ?_))
      (leads_pure fun f hf => ?_)
    · have hslot : ((w.context c).files.release handle.slot).2.slotAt i = .taken f := hf
      rw [ReservationTable.slotAt_release] at hslot
      split at hslot
      · cases hslot
      · exact h.held f ⟨i, hslot⟩
    · have hvalue : ((w.context c).files.release handle.slot).1 = some f := hf
      rw [ReservationTable.release_fst, ReservationTable.get?_eq, Slot.value?_eq_some] at hvalue
      exact h.held f ⟨handle.slot, hvalue⟩
  · exact leads_pure nofun

theorem bindHandle_within (handle : Handle) (hf : start.Owns c f) :
    (bindHandle c handle f).LeadsOnly (Within c start) w := by
  refine leads_query_bind fun _ _ => leads_look_bind ?_
  split
  · exact leads_throw
  · next files hfill =>
    refine leads_change (.single (h.setContext (fun _ => rfl) fun i g hg => ?_)) trivial
    have hslot : files.slotAt i = .taken g := hg
    rw [ReservationTable.slotAt_fill hfill] at hslot
    split at hslot
    · cases hslot
      exact hf
    · exact h.held g ⟨i, hslot⟩

theorem installHandle_within (handle : Handle) (hf : start.Owns c f) :
    (installHandle c handle f).Leads (Within c start) w
      fun displaced _ => ∀ g ∈ displaced, start.Owns c g := by
  refine leads_query_bind fun _ hinstallable => leads_look_bind ?_
  rw [result_installable] at hinstallable
  obtain ⟨-, hlt, hreserved⟩ := Numbering.placeable_eq_ok.1 hinstallable
  obtain ⟨files, hreplace⟩ := ReservationTable.exists_replace hlt hreserved f
  rw [hreplace]
  refine leads_change_bind (.single (h.setContext (fun _ => rfl) fun i g hg => ?_))
    (leads_pure fun g hg => ?_)
  · have hslot : files.slotAt i = .taken g := hg
    rw [ReservationTable.slotAt_replace hreplace] at hslot
    split at hslot
    · cases hslot
      exact hf
    · exact h.held g ⟨i, hslot⟩
  · have hvalue : ((w.context c).files.slotAt handle.slot).value? = some g := hg
    exact h.held g ⟨handle.slot, Slot.value?_eq_some.1 hvalue⟩

variable [Backends]

theorem dropFile_within (hf : start.Owns c f) : (dropFile f).LeadsOnly (Within c start) w := by
  refine leads_look_bind ?_
  split
  · exact leads_pure trivial
  · exact leads_look_bind (leads_query_bind fun _ _ =>
      leads_change (.single (h.removeFile hf).settled) trivial)

theorem dropDisplaced_within {displaced : Option FileId} (hf : ∀ f ∈ displaced, start.Owns c f) :
    (dropDisplaced displaced).LeadsOnly (Within c start) w := by
  cases displaced with
  | none => exact leads_pure trivial
  | some f => exact dropFile_within h (hf f rfl)

theorem giveBack_within (handle : Handle) : (giveBack c handle).LeadsOnly (Within c start) w :=
  leads_bind (freeHandle_within h handle) fun _ _ hsteps hdisplaced =>
    dropDisplaced_within (h.of_steps hsteps) hdisplaced

theorem withReserved_within {work : Handle → Act Handle}
    (hwork : ∀ handle w', SameBeyond c start w' → (work handle).LeadsOnly (Within c start) w') :
    (withReserved c work).LeadsOnly (Within c start) w :=
  leads_bind (allocateHandle_within h) fun handle w₁ hsteps _ =>
    have h₁ := h.of_steps hsteps
    leads_orUndo (hwork handle w₁ h₁) fun _ hsteps₁ => giveBack_within (h₁.of_steps hsteps₁) handle

theorem commitFile_within (handle : Handle) (file : OpenFile) :
    (commitFile c handle file).LeadsOnly (Within c start) w := by
  refine leads_query_bind fun bindable _ => ?_
  split
  · exact leads_query_bind fun _ _ => leads_throw
  · have hadded : (addFile file).Leads (Within c start) w fun f _ => start.Owns c f :=
      leads_look_bind (leads_change_bind (.single (h.pushFile file)) (leads_pure (.inr h.nextKey)))
    exact leads_bind hadded fun f w₁ hsteps hf =>
      leads_bind (bindHandle_within (h.of_steps hsteps) handle hf) fun _ _ _ _ => leads_pure trivial

end

/-! ## Operations -/

section

variable {c : ContextId} {start w : World} {t : TaskId} {handle : Handle} {f : FileId}

/-- A handle of a task's own table stands for a file of its own context. -/
theorem owns_of_fileOf (hown : handle.isKernel = false)
    (hf : (fileOf t handle w).result = .ok f) : w.Owns (w.task t).context f := by
  rw [result_fileOf, Numbering.fileOf, hown] at hf
  exact .inl ⟨handle.slot, Numbering.slot_of_found hf⟩

/-- What touches a context's own open files only stays within the context. -/
theorem Action.LeadsOnly.within {α : Type} {x : Act α}
    (hx : x.LeadsOnly (OnlyOpen (w.Owns c)) w) : x.LeadsOnly (Within c w) w :=
  ⟨.single ((SameBeyond.refl c w).onlyOpen (.of_steps hx.1)), hx.2⟩

/-- A directory that a task goes to is its context's. -/
theorem enterDirectory_within (n : NodeId) :
    (enterDirectory t n).LeadsOnly (Within (w.task t).context w) w := by
  refine leads_ask_bind (leads_demand_bind fun _ =>
    leads_ask_bind (leads_change (.single (SameBeyond.settled ?_)) trivial))
  exact (SameBeyond.refl _ w).setContext (fun _ => rfl) fun i f hf => .inl ⟨i, hf⟩

theorem changeDirectory_within [Backends] (path : String) :
    (changeDirectory t path).LeadsOnly (Within (w.task t).context w) w :=
  leads_query_bind fun n _ => enterDirectory_within n

theorem changeDirectoryTo_within (handle : Handle) :
    (changeDirectoryTo t handle).LeadsOnly (Within (w.task t).context w) w :=
  leads_query_bind fun file _ => enterDirectory_within file.node

section

variable (hown : handle.isKernel = false)

include hown

theorem setFlags_within (flags : OpenFlags) :
    (setFlags t handle flags).LeadsOnly (Within (w.task t).context w) w :=
  (setFlags_onlyOpen (fun _ hf => owns_of_fileOf hown hf) flags).within

variable [Backends]

theorem close_within : (close t handle).LeadsOnly (Within (w.task t).context w) w := by
  refine leads_ask_bind (leads_query_bind fun _ _ => ?_)
  rw [hown]
  exact giveBack_within (.refl _ w) handle

theorem duplicate_within : (duplicate t handle).LeadsOnly (Within (w.task t).context w) w := by
  refine leads_query_bind fun f hf => leads_ask_bind ?_
  rw [hown]
  exact withReserved_within (.refl _ w) fun copy w₁ h₁ =>
    leads_bind (bindHandle_within h₁ copy (owns_of_fileOf hown hf))
      fun _ _ _ _ => leads_pure trivial

theorem duplicateTo_within {target : Handle} (htarget : target.isKernel = false) :
    (duplicateTo t handle target).LeadsOnly (Within (w.task t).context w) w := by
  refine leads_query_bind fun f hf => ?_
  split
  · exact leads_pure trivial
  refine leads_ask_bind ?_
  rw [htarget]
  have h : SameBeyond (w.task t).context w w := .refl _ w
  exact leads_bind (installHandle_within h target (owns_of_fileOf hown hf))
    fun _ w₁ hsteps hdisplaced =>
      leads_bind (dropDisplaced_within (h.of_steps hsteps) hdisplaced) fun _ _ _ _ =>
        leads_pure trivial

theorem readv_within (buffers : List ByteArray) :
    (readv t handle buffers).LeadsOnly (Within (w.task t).context w) w :=
  (readv_onlyOpen (fun _ hf => owns_of_fileOf hown hf) buffers).within

theorem seek_within (offset : Int) (origin : SeekOrigin) :
    (seek t handle offset origin).LeadsOnly (Within (w.task t).context w) w :=
  (seek_onlyOpen (fun _ hf => owns_of_fileOf hown hf) offset origin).within

theorem nextEntry_within : (nextEntry t handle).LeadsOnly (Within (w.task t).context w) w :=
  (nextEntry_onlyOpen fun _ hf => owns_of_fileOf hown hf).within

end

section

variable [Backends] {full : Prop} (hlaws : Backends.Discreet full)

include hlaws

theorem openPath_within (base : Option Handle) (path : String) {flags : OpenFlags}
    (hflags : flags.forKernel = false) (mode : UInt32) :
    (openPath t base path flags mode).LeadsOnly (Within (w.task t).context w) w := by
  have hcontext : w.contextOf t flags.forKernel = (w.task t).context := by
    rw [hflags]
    rfl
  rw [openPath_eq]
  refine leads_ask_bind ?_
  rw [hcontext]
  refine withReserved_within (.refl _ w) fun handle w₁ h₁ => ?_
  exact leads_bind ((pathOpening_spares hlaws t base path flags mode).within h₁)
    fun file w₂ hsteps _ =>
      leads_bind (commitFile_within (h₁.of_steps hsteps) handle file) fun _ _ _ _ =>
        leads_note_bind (leads_pure trivial)

theorem writev_within (hown : handle.isKernel = false) (segments : List ByteArray) :
    (writev t handle segments).LeadsOnly (Within (w.task t).context w) w :=
  (writev_onlyOpen (fun _ hf => owns_of_fileOf hown hf) hlaws segments).within

theorem mount_within (device dir fs : String) (flags : VolumeFlags) (args : String)
    (c : ContextId) :
    (mount t device dir fs flags args).LeadsOnly (Within c w) w := by
  refine leads_query_bind fun point _ => leads_ask_bind (leads_query_bind fun driver _ => ?_)
  have h : SameBeyond c w { w with nextVolumeId := w.nextVolumeId + 1 } :=
    (SameBeyond.refl c w).congr rfl rfl rfl
  have hmount : ∀ id, (driver.mount id device flags args).Does Sparing True := fun id =>
    does_bind (does_note rfl) fun _ =>
      (hlaws.names (R := Sparing) fun _ _ _ haside => haside.1).mount driver id device flags args
  refine leads_bind (P := fun _ w' => w' = { w with nextVolumeId := w.nextVolumeId + 1 })
    (leads_look_bind (leads_change_bind (.single h) (leads_pure rfl))) fun id w₁ _ heq => ?_
  subst heq
  refine leads_bind ((hmount id).within h) fun v w₂ hsteps _ => ?_
  have h₂ := h.of_steps hsteps
  exact leads_ask_bind (leads_demand_bind fun _ =>
    leads_change_bind (.single (h₂.congr rfl rfl rfl)) (leads_note_bind (leads_pure trivial)))

/-- **What a task does by handles of its own table stays in its context.** -/
theorem Operation.Own.within {op : Operation} (hop : op.Own t) :
    op.act.LeadsOnly (Within (w.task t).context w) w := by
  have hnames : Backends.Names Sparing := hlaws.names fun _ _ _ haside => haside.1
  have hwrites : Backends.Writes Sparing := hlaws.writes fun _ _ _ haside => haside.1
  have h : SameBeyond (w.task t).context w w := .refl _ w
  cases op with
  | openPath s base path flags mode =>
    obtain ⟨rfl, -, hflags⟩ := hop
    exact (openPath_within hlaws base path hflags mode).only
  | close s handle =>
    obtain ⟨rfl, hown⟩ := hop
    exact (close_within hown).only
  | duplicate s handle =>
    obtain ⟨rfl, hown⟩ := hop
    exact (duplicate_within hown).only
  | duplicateTo s handle target =>
    obtain ⟨rfl, hown, htarget⟩ := hop
    exact (duplicateTo_within hown htarget).only
  | setFlags s handle flags =>
    obtain ⟨rfl, hown⟩ := hop
    exact (setFlags_within hown flags).only
  | readv s handle buffers =>
    obtain ⟨rfl, hown⟩ := hop
    exact (readv_within hown buffers).filling
  | writev s handle segments =>
    obtain ⟨rfl, hown⟩ := hop
    exact (writev_within hlaws hown segments).only
  | seek s handle offset origin =>
    obtain ⟨rfl, hown⟩ := hop
    exact (seek_within hown offset origin).only
  | nextEntry s handle =>
    obtain ⟨rfl, hown⟩ := hop
    exact (nextEntry_within hown).only
  | changeDirectory s path =>
    obtain rfl : s = t := hop
    exact (changeDirectory_within path).only
  | changeDirectoryTo s handle =>
    obtain ⟨rfl, -⟩ := hop
    exact (changeDirectoryTo_within handle).only
  | mount s device dir fs flags args =>
    exact (mount_within hlaws device dir fs flags args _).only
  | preadv s handle position buffers =>
    exact ((preadv_does hlaws s handle position buffers).within h).filling
  | pwritev s handle position segments =>
    exact ((pwritev_does hwrites s handle position segments).within h).only
  | control s handle request input buffer =>
    exact ((control_does hlaws s handle request input buffer).within h).filling
  | makeDirectory s base path mode =>
    exact ((makeDirectory_does hlaws hnames s base path mode).within h).only
  | removeDirectory s base path =>
    exact ((removeDirectory_does hlaws hnames s base path).within h).only
  | unlink s base path => exact ((unlink_does hlaws hnames s base path).within h).only
  | makeSymlink s base path text =>
    exact ((makeSymlink_does hlaws hnames s base path text).within h).only
  | rename s oldBase oldPath newBase newPath =>
    exact ((rename_does hlaws hnames s oldBase oldPath newBase newPath).within h).only
  | _ => exact hop.elim

end

end

/-- **Nothing changes beyond the context of a task** that works with handles of its own table. -/
theorem Operation.Own.sameBeyond {op : Operation} {t : TaskId} (hop : op.Own t) (w : World) :
    SameBeyond (w.task t).context w (op.run w) := by
  rw [op.run_eq_after]
  exact SameBeyond.of_steps (.refl _ w) (Operation.Own.within standard_discreet hop).1

end VirtualFs
