/-
The handle tables are the maps of `Numbering`. Read off the world, each call
answers what the map says and leaves the map it says (`Renders`), over any
drivers that leave the tables alone. Where a number is reserved first, it must
stay below the bit that selects the kernel's table (`Numbering.InReach`), so
that the handle names the number it was made for.
-/
import VirtualFs.Proofs.Numbering
import VirtualFs.Proofs.Operating
import VirtualFs.Proofs.StandardManners

namespace VirtualFs

open Query (look)

namespace World

/-- What the tables amount to. -/
def numbering (w : World) : Numbering where
  limit c := (w.context c).files.limit
  kernel c := (w.context c).kernel
  contextOf t kernel := w.contextOf t kernel
  slot c i := (w.context c).files.slotAt i
  next := w.files.nextKey

/-- The tables are in order: none has loose ends, and what is bound is open. -/
structure Orderly (w : World) : Prop where
  neat : ∀ (c : ContextId) (context : Context), w.contexts[c]? = some context →
    context.files.Neat context.files.limit
  bound : ∀ c i f, w.numbering.slot c i = .taken f → w.files.has f = true

/-- Files that are open stay as they are or go, and keys are not given again. -/
structure Retains (w w' : World) : Prop where
  next : w.files.nextKey ≤ w'.files.nextKey
  file : ∀ f < w.files.nextKey, w'.files.get? f = w.files.get? f ∨ w'.files.get? f = none

theorem Retains.refl (w : World) : w.Retains w := ⟨Nat.le_refl _, fun _ _ => .inl rfl⟩

theorem Retains.trans {w w' w'' : World} (h : w.Retains w') (h' : w'.Retains w'') :
    w.Retains w'' := by
  refine ⟨Nat.le_trans h.next h'.next, fun f hf => ?_⟩
  rcases h'.file f (Nat.lt_of_lt_of_le hf h.next) with heq | hnone
  · rw [heq]
    exact h.file f hf
  · exact .inr hnone

theorem Retains.of_files {w w' : World} (h : w'.files = w.files) : w.Retains w' :=
  ⟨by rw [h], fun f _ => .inl (by rw [h])⟩

/-! ## Reading the tables -/

section

variable {w w' : World} {c : ContextId}

theorem context_setContext {context : Context} (hget : w.contexts[c]? = some context)
    (g : Context → Context) (c' : ContextId) :
    (w.setContext c g).context c' = if c' = c then g (w.context c) else w.context c' := by
  rw [World.context, World.context, World.context, setContext, Array.getD_eq_getD_getElem?,
    Array.getD_eq_getD_getElem?, Array.getD_eq_getD_getElem?, Array.getElem?_modify]
  by_cases hc : c' = c
  · subst hc
    rw [if_pos rfl, if_pos rfl, hget]
    rfl
  · rw [if_neg hc, if_neg fun heq => hc heq.symm]

theorem contexts_setContext_of_none (hget : w.contexts[c]? = none) (g : Context → Context) :
    (w.setContext c g).contexts = w.contexts := by
  refine Array.ext_getElem? fun c' => ?_
  rw [setContext, Array.getElem?_modify]
  split
  · next hc => rw [← hc, hget]; rfl
  · rfl

theorem numbering_congr (hcontexts : w'.contexts = w.contexts) (htasks : w'.tasks = w.tasks)
    (hnext : w'.files.nextKey = w.files.nextKey) : w'.numbering = w.numbering := by
  have hcontext : w'.context = w.context := funext fun c => by
    rw [World.context, World.context, hcontexts]
  refine Numbering.ext ?_ ?_ ?_ ?_ hnext
  · exact congrArg (fun context c => (context c).files.limit) hcontext
  · exact congrArg (fun context c => (context c).kernel) hcontext
  · refine funext fun t => funext fun kernel => ?_
    show w'.contextOf t kernel = w.contextOf t kernel
    rw [contextOf, contextOf, task, task, htasks]
  · exact congrArg (fun context c i => (context c).files.slotAt i) hcontext

theorem numbering_limit : w.numbering.limit c = (w.context c).files.limit := rfl

theorem numbering_slot {i : Nat} : w.numbering.slot c i = (w.context c).files.slotAt i := rfl

/-- A context gets another table of the same size. A context that is not there has free numbers
only. -/
theorem numbering_setFiles {files : ReservationTable FileId}
    (hget : w.contexts[c]? = none → ∀ i, files.slotAt i = .free)
    (hlimit : files.limit = (w.context c).files.limit) :
    (w.setContext c fun context => { context with files }).numbering =
      { w.numbering with
        slot := fun c' i => if c' = c then files.slotAt i else w.numbering.slot c' i } := by
  cases hcontext : w.contexts[c]? with
  | none =>
    rw [numbering_congr (contexts_setContext_of_none hcontext _) rfl rfl]
    refine Numbering.ext rfl rfl rfl (funext fun c' => funext fun i => ?_) rfl
    show w.numbering.slot c' i = if c' = c then files.slotAt i else w.numbering.slot c' i
    split
    · next hc =>
      rw [hget hcontext, hc, numbering_slot, context_of_getElem?_none hcontext]
      rfl
    · rfl
  | some context =>
    have hcontext := context_setContext hcontext fun context => { context with files }
    refine Numbering.ext ?_ ?_ rfl ?_ rfl
    · refine funext fun c' => ?_
      show ((w.setContext c _).context c').files.limit = (w.context c').files.limit
      rw [hcontext]
      split
      · next hc => rw [hc, hlimit]
      · rfl
    · refine funext fun c' => ?_
      show ((w.setContext c _).context c').kernel = (w.context c').kernel
      rw [hcontext]
      split
      · next hc => rw [hc]
      · rfl
    · refine funext fun c' => funext fun i => ?_
      show ((w.setContext c _).context c').files.slotAt i =
        if c' = c then files.slotAt i else (w.context c').files.slotAt i
      rw [hcontext]
      split <;> rfl

/-- One number of a table changes. -/
theorem numbering_setTable {files : ReservationTable FileId} {i : Nat} {s : Slot FileId}
    (hget : w.contexts[c]? = none → s = .free)
    (hlimit : files.limit = (w.context c).files.limit)
    (hslot : ∀ j, files.slotAt j = if j = i then s else (w.context c).files.slotAt j) :
    (w.setContext c fun context => { context with files }).numbering = w.numbering.set c i s := by
  have hfree : w.contexts[c]? = none → ∀ j, files.slotAt j = .free := by
    intro hnone j
    rw [hslot, hget hnone, context_of_getElem?_none hnone]
    split <;> rfl
  rw [numbering_setFiles hfree hlimit]
  refine Numbering.ext rfl rfl rfl (funext fun c' => funext fun j => ?_) rfl
  rw [Numbering.set_slot]
  by_cases hc : c' = c
  · subst hc
    simp only [if_true, true_and, hslot, numbering_slot]
  · simp only [hc, if_false, false_and]

theorem Orderly.neat_context (h : w.Orderly) (c : ContextId) :
    (w.context c).files.Neat (w.context c).files.limit := by
  cases hget : w.contexts[c]? with
  | none =>
    rw [context_of_getElem?_none hget]
    exact .empty 0
  | some context =>
    rw [context_of_getElem? hget]
    exact h.neat c context hget

/-- The number a table reserves next is the least that is free. -/
theorem Orderly.least_eq (h : w.Orderly) (c : ContextId) :
    w.numbering.least c = (w.context c).files.reserve.map Prod.fst := by
  have hneat := h.neat_context c
  cases hreserve : (w.context c).files.reserve with
  | some reserved =>
    obtain ⟨hfree, hlow, -⟩ := ReservationTable.slotAt_reserve hreserve
    exact Numbering.least_eq_some_iff.2 ⟨hneat.lt_of_reserve hreserve, hfree, hlow⟩
  | none =>
    exact Numbering.least_eq_none_iff.2 (ReservationTable.slotAt_ne_free_of_reserve hreserve)

/-- A file is held exactly if some number is bound to it. -/
theorem holdsFile_iff {f : FileId} : w.holdsFile f = true ↔ w.numbering.Bound f := by
  rw [holdsFile, Array.any_eq_true']
  constructor
  · rintro ⟨context, hcontext, hmem⟩
    obtain ⟨c, hc⟩ := Array.mem_iff_getElem?.1 hcontext
    obtain ⟨i, hi⟩ := ReservationTable.mem_values_iff.1 (List.contains_iff_mem.1 hmem)
    refine ⟨c, i, ?_⟩
    rw [numbering_slot, context_of_getElem? hc, hi]
  · rintro ⟨c, i, hslot⟩
    rw [numbering_slot] at hslot
    cases hget : w.contexts[c]? with
    | none =>
      rw [context_of_getElem?_none hget] at hslot
      cases hslot
    | some context =>
      rw [context_of_getElem? hget] at hslot
      exact ⟨context, Array.mem_of_getElem? hget,
        List.contains_iff_mem.2 (ReservationTable.mem_values_iff.2 ⟨i, hslot⟩)⟩

/-- A table may be replaced, as long as what is bound there is open. -/
theorem Orderly.setFiles (h : w.Orderly) {files : ReservationTable FileId}
    (hneat : files.Neat (w.context c).files.limit)
    (hbound : ∀ i f, files.slotAt i = .taken f → w.files.has f = true) :
    (w.setContext c fun context => { context with files }).Orderly := by
  cases hget : w.contexts[c]? with
  | none =>
    have hsame := contexts_setContext_of_none hget fun context => { context with files }
    have hnumbering := numbering_congr hsame rfl rfl
    exact ⟨fun c' context hc' => h.neat c' context (hsame ▸ hc'),
      fun c' j f hbound => h.bound c' j f (hnumbering ▸ hbound)⟩
  | some old =>
    have hcases : ∀ (c' : ContextId) (context : Context),
        (w.setContext c fun context => { context with files }).contexts[c']? = some context →
          w.contexts[c']? = some context ∨ context = { old with files } := by
      intro c' context hc'
      rw [setContext, Array.getElem?_modify] at hc'
      split at hc'
      · next hc =>
        rw [← hc, hget, Option.map_some, Option.some.injEq] at hc'
        exact .inr hc'.symm
      · exact .inl hc'
    refine ⟨fun c' context hc' => ?_, fun c' i f hslot => ?_⟩
    · rcases hcases c' context hc' with hc' | rfl
      · exact h.neat c' context hc'
      · show files.Neat files.limit
        rw [hneat.limit_eq]
        exact hneat
    · rw [numbering_setFiles (fun hnone => nomatch hget.symm.trans hnone) hneat.limit_eq] at hslot
      dsimp only at hslot
      split at hslot
      · exact hbound i f hslot
      · exact h.bound c' i f hslot

/-- A table may be changed in one number. -/
theorem Orderly.setTable (h : w.Orderly) {files : ReservationTable FileId} {i : Nat}
    {s : Slot FileId} (hneat : files.Neat (w.context c).files.limit)
    (hslot : ∀ j, files.slotAt j = if j = i then s else (w.context c).files.slotAt j)
    (hs : ∀ f, s = .taken f → w.files.has f = true) :
    (w.setContext c fun context => { context with files }).Orderly := by
  refine h.setFiles hneat fun j f hbound => ?_
  rw [hslot] at hbound
  split at hbound
  · exact hs f hbound
  · exact h.bound c j f hbound

/-- A drained table has free numbers only. -/
theorem numbering_drain (w : World) (c : ContextId) :
    (w.setContext c fun context =>
      { context with files := (w.context c).files.drain.2 }).numbering = w.numbering.clear c :=
  numbering_setFiles (fun _ _ => rfl) rfl

theorem Orderly.drain (h : w.Orderly) (c : ContextId) :
    (w.setContext c fun context =>
      { context with files := (w.context c).files.drain.2 }).Orderly :=
  h.setFiles (h.neat_context c).drain nofun

/-- Nothing the tables know has changed. -/
theorem Orderly.congr (h : w.Orderly) (hcontexts : w'.contexts = w.contexts)
    (htasks : w'.tasks = w.tasks) (hfiles : w'.files = w.files) : w'.Orderly := by
  have hnumbering := numbering_congr hcontexts htasks (by rw [hfiles])
  refine ⟨fun c context hc => h.neat c context (hcontexts ▸ hc),
    fun c i f hbound => ?_⟩
  rw [hfiles]
  exact h.bound c i f (hnumbering ▸ hbound)

end

end World

/-! ## What a call renders -/

/-- Run in `w`, the action answers what `a` says and leaves the numbering it says, or `start` if it
fails. The tables stay in order, and so do the files that stay open. -/
structure Action.Renders {α : Type} (start : Numbering) (x : Act α) (w : World)
    (a : Except Error (α × Numbering)) : Prop where
  result : (x w).result = a.map Prod.fst
  numbering : (x w).world.numbering = start.after a
  orderly : (x w).world.Orderly
  retains : w.Retains (x w).world

namespace Action

variable {α β : Type} {start : Numbering} {w : World}

theorem renders_pure {n : Numbering} (hw : w.Orderly) (hn : w.numbering = n) (v : α) :
    (pure v : Act α).Renders start w (.ok (v, n)) :=
  ⟨rfl, hn, hw, .refl w⟩

theorem renders_throw (hw : w.Orderly) (e : Error) :
    (throw e : Act α).Renders w.numbering w (.error e) :=
  ⟨rfl, rfl, hw, .refl w⟩

theorem Renders.of_run {x : Act α} {a : Except Error (α × Numbering)} {r : Except Error α}
    {w' : World} {t : List Event} (hrun : x w = ⟨r, w', t⟩) (hresult : r = a.map Prod.fst)
    (hnumbering : w'.numbering = start.after a) (horderly : w'.Orderly)
    (hretains : w.Retains w') : x.Renders start w a :=
  ⟨by rw [hrun, hresult], by rw [hrun, hnumbering], by rw [hrun]; exact horderly,
    by rw [hrun]; exact hretains⟩

/-- Where nothing fails there is nothing to fall back to. -/
theorem Renders.of_success {start' : Numbering} {x : Act α} {v : α × Numbering}
    (h : x.Renders start' w (.ok v)) : x.Renders start w (.ok v) :=
  ⟨h.result, h.numbering, h.orderly, h.retains⟩

/-- A query that finds what `r` says, before anything has changed. -/
theorem renders_query_bind (hw : w.Orderly) {q : Query α} {f : α → Act β} {r : Except Error α}
    {k : α → Except Error (β × Numbering)} (hq : (q w).result = r)
    (hf : ∀ a, r = .ok a → (f a).Renders w.numbering w (k a)) :
    ((liftM q : Act α) >>= f).Renders w.numbering w (r >>= k) := by
  cases r with
  | error e => exact .of_run (liftM_bind_error hq) rfl rfl hw (.refl w)
  | ok a =>
    have hrest := hf a rfl
    exact .of_run (liftM_bind_ok hq) hrest.result hrest.numbering hrest.orderly hrest.retains

theorem renders_look_bind {g : World → α} {f : α → Act β} {a : Except Error (β × Numbering)}
    (hf : (f (g w)).Renders start w a) : ((look g : Act α) >>= f).Renders start w a :=
  .of_run (bind_ok (look_apply g w)) hf.result hf.numbering hf.orderly hf.retains

theorem renders_ask_bind {g : World → α} {f : α → Act β} {a : Except Error (β × Numbering)}
    (hf : (f (g w)).Renders start w a) :
    ((liftM (Query.look g) : Act α) >>= f).Renders start w a :=
  renders_look_bind hf

/-- What follows a success runs in a world with the numbering that the success leaves. -/
theorem renders_bind {x : Act α} {f : α → Act β} {v : α} {n : Numbering}
    {b : Except Error (β × Numbering)} (hx : x.Renders start w (.ok (v, n)))
    (hf : ∀ w', w'.numbering = n → w'.Orderly → w.Retains w' → (f v).Renders start w' b) :
    (x >>= f).Renders start w b := by
  obtain ⟨hresult, hnumbering, horderly, hretains⟩ := hx
  rcases hrun : x w with ⟨_ | a, w', t⟩ <;>
    rw [hrun] at hresult hnumbering horderly hretains <;> cases hresult
  have hrest := hf w' hnumbering horderly hretains
  exact .of_run (bind_ok hrun) hrest.result hrest.numbering hrest.orderly
    (hretains.trans hrest.retains)

theorem renders_bind_error {x : Act α} {f : α → Act β} {e : Error}
    (hx : x.Renders start w (.error e)) : (x >>= f).Renders start w (.error e) := by
  obtain ⟨hresult, hnumbering, horderly, hretains⟩ := hx
  rcases hrun : x w with ⟨_ | a, w', t⟩ <;>
    rw [hrun] at hresult hnumbering horderly hretains <;> cases hresult
  exact .of_run (bind_error hrun) rfl hnumbering horderly hretains

theorem renders_map {x : Act α} {g : α → β}
    {a : Except Error (α × Numbering)} (hx : x.Renders start w a) :
    (g <$> x).Renders start w (do
      let (v, after) ← a
      pure (g v, after)) := by
  rw [← bind_pure_comp]
  cases a with
  | error e => exact renders_bind_error hx
  | ok found =>
    exact renders_bind hx fun w' hnumbering hw' _ => renders_pure hw' hnumbering (g found.1)

/-- A failure is undone back to the numbering before it. -/
theorem renders_orUndo {x : Act α} {undo : Act Unit} {n : Numbering}
    {a : Except Error (α × Numbering)} (hx : x.Renders n w a)
    (hundo : ∀ w', w'.numbering = n → w'.Orderly → undo.Renders start w' (.ok ((), start))) :
    (x.orUndo undo).Renders start w a := by
  obtain ⟨hresult, hnumbering, horderly, hretains⟩ := hx
  rcases hrun : x w with ⟨r, w', t⟩
  rw [hrun] at hresult hnumbering horderly hretains
  cases a with
  | error e =>
    cases hresult
    have hundone := hundo w' hnumbering horderly
    have hboth : x.orUndo undo w = ⟨.error e, (undo w').world, t ++ (undo w').trace⟩ := by
      rw [orUndo, hrun]
    exact .of_run hboth rfl hundone.numbering hundone.orderly (hretains.trans hundone.retains)
  | ok found =>
    cases hresult
    have hboth : x.orUndo undo w = ⟨.ok found.1, w', t⟩ := by
      rw [orUndo, hrun]
    exact .of_run hboth rfl hnumbering horderly hretains

end Action

open VirtualFs.Action (renders_pure renders_throw renders_query_bind renders_look_bind
  renders_ask_bind renders_bind renders_bind_error renders_orUndo)

variable {w : World} {start : Numbering} {c : ContextId} {handle : Handle} {f : FileId}

/-! ## Single tables -/

theorem result_belongs (c : ContextId) (handle : Handle) : (belongs c handle w).result =
    if handle.isKernel = w.numbering.kernel c then .ok () else .error .badHandle := by
  rw [belongs, Query.look_bind, Query.result_demand]
  rfl

theorem result_lookupHandle (c : ContextId) (handle : Handle) :
    (lookupHandle c handle w).result = w.numbering.found c handle := by
  rw [lookupHandle, Query.result_bind, result_belongs, Numbering.found, Numbering.find]
  by_cases hkernel : handle.isKernel = w.numbering.kernel c
  · rw [if_pos hkernel, if_pos hkernel, Except.bind, Query.look_bind, Query.result_expect,
      ReservationTable.get?_eq, ← World.numbering_slot]
    cases (w.numbering.slot c handle.slot).value? <;> rfl
  · rw [if_neg hkernel, if_neg hkernel]
    rfl

theorem result_bindable (c : ContextId) (handle : Handle) :
    (bindable c handle w).result = w.numbering.fillable c handle := by
  rw [bindable, Query.result_bind, result_belongs, Numbering.fillable]
  by_cases hkernel : handle.isKernel = w.numbering.kernel c
  · rw [if_pos hkernel, Except.bind, Query.look_bind, Query.result_demand]
    simp only [ReservationTable.isReserved_iff, hkernel, true_and]
    rfl
  · rw [if_neg hkernel, if_neg fun hboth => hkernel hboth.1]
    rfl

theorem result_installable (c : ContextId) (handle : Handle) :
    (installable c handle w).result = w.numbering.placeable c handle := by
  rw [installable, Query.result_bind, result_belongs, Numbering.placeable]
  by_cases hkernel : handle.isKernel = w.numbering.kernel c
  · rw [if_pos hkernel, Except.bind, Query.look_bind, Query.result_bind, Query.result_demand,
      World.numbering_limit]
    by_cases hlt : handle.slot < (w.context c).files.limit
    · rw [if_pos hlt, if_pos ⟨hkernel, hlt⟩, Except.bind, Query.result_demand]
      by_cases hreserved : w.numbering.slot c handle.slot = .reserved
      · rw [if_pos hreserved, ReservationTable.isReserved_iff.2 hreserved]
        rfl
      · rw [if_neg hreserved,
          Bool.eq_false_iff.2 (mt ReservationTable.isReserved_iff.1 hreserved)]
        rfl
    · rw [if_neg hlt, if_neg fun hboth => hlt hboth.2]
      rfl
  · rw [if_neg hkernel, if_neg fun hboth => hkernel hboth.1]
    rfl

theorem result_fileOf (t : TaskId) (handle : Handle) :
    (fileOf t handle w).result = w.numbering.fileOf handle t := by
  rw [fileOf, Query.look_bind]
  exact result_lookupHandle _ handle

/-- What is found is bound. -/
theorem Numbering.slot_of_found {n : Numbering} (h : n.found c handle = .ok f) :
    n.slot c handle.slot = .taken f := by
  rw [found, find] at h
  split at h
  · next found hfound =>
    cases h
    split at hfound
    · exact Slot.value?_eq_some.1 hfound
    · cases hfound
  · cases h

theorem World.Orderly.has_of_found (hw : w.Orderly) (h : w.numbering.found c handle = .ok f) :
    w.files.has f = true :=
  hw.bound c handle.slot f (Numbering.slot_of_found h)

section

variable (hw : w.Orderly)

include hw

theorem allocateHandle_renders (c : ContextId) :
    (allocateHandle c).Renders w.numbering w (w.numbering.give c .reserved) := by
  refine renders_look_bind ?_
  rw [Numbering.give, hw.least_eq c]
  cases hreserve : (w.context c).files.reserve with
  | none => exact renders_throw hw _
  | some reserved =>
    obtain ⟨i, files⟩ := reserved
    have hneat := (hw.neat_context c).reserve hreserve
    have hslot := (ReservationTable.slotAt_reserve hreserve).2.2
    have hget : w.contexts[c]? = none → (.reserved : Slot FileId) = .free := by
      intro hnone
      rw [World.context_of_getElem?_none hnone] at hreserve
      cases hreserve
    refine .of_run rfl rfl ?_ ?_ (.of_files rfl)
    · exact World.numbering_setTable hget hneat.limit_eq hslot
    · exact hw.setTable hneat hslot fun _ hf => by cases hf

theorem freeHandle_renders (c : ContextId) (handle : Handle) :
    (freeHandle c handle).Renders start w
      (.ok ((w.numbering.release c handle).1, (w.numbering.release c handle).2)) := by
  refine renders_look_bind ?_
  rw [Numbering.release]
  by_cases hkernel : handle.isKernel = (w.context c).kernel
  · have hkernel' : handle.isKernel = w.numbering.kernel c := hkernel
    rw [if_pos hkernel, if_pos hkernel']
    have hneat := (hw.neat_context c).release handle.slot
    have hslot := ReservationTable.slotAt_release (w.context c).files handle.slot
    have hvalue : ((w.context c).files.release handle.slot).1 =
        (w.numbering.slot c handle.slot).value? := by
      rw [ReservationTable.release_fst, ReservationTable.get?_eq]
      rfl
    refine .of_run rfl (congrArg _ hvalue) ?_ (hw.setTable hneat hslot fun _ hf => by cases hf)
      (.of_files rfl)
    exact World.numbering_setTable (fun _ => rfl) hneat.limit_eq hslot
  · have hkernel' : ¬handle.isKernel = w.numbering.kernel c := hkernel
    rw [if_neg hkernel, if_neg hkernel']
    exact renders_pure hw rfl none

theorem bindHandle_renders (c : ContextId) (handle : Handle) (hf : w.files.has f = true) :
    (bindHandle c handle f).Renders w.numbering w (do
      let after ← w.numbering.fill c handle f
      pure ((), after)) := by
  rw [Numbering.fill, bind_assoc]
  refine renders_query_bind hw (result_bindable c handle) fun _ hfillable => renders_look_bind ?_
  obtain ⟨-, hreserved⟩ := Numbering.fillable_eq_ok.1 hfillable
  obtain ⟨files, hfill⟩ := ReservationTable.exists_fill hreserved f
  rw [hfill]
  have hneat := (hw.neat_context c).fill hfill
  have hget : w.contexts[c]? = none → (.taken f : Slot FileId) = .free := by
    intro hnone
    rw [World.numbering_slot, World.context_of_getElem?_none hnone] at hreserved
    cases hreserved
  refine .of_run rfl rfl
    (World.numbering_setTable hget hneat.limit_eq (ReservationTable.slotAt_fill hfill))
    (hw.setTable hneat (ReservationTable.slotAt_fill hfill) ?_) (.of_files rfl)
  intro g hg
  cases hg
  exact hf

theorem installHandle_renders (c : ContextId) (handle : Handle) (hf : w.files.has f = true) :
    (installHandle c handle f).Renders w.numbering w (w.numbering.place c handle f) := by
  refine renders_query_bind hw (result_installable c handle) fun _ hplaceable =>
    renders_look_bind ?_
  obtain ⟨-, hlt, hreserved⟩ := Numbering.placeable_eq_ok.1 hplaceable
  obtain ⟨files, hreplace⟩ := ReservationTable.exists_replace hlt hreserved f
  rw [hreplace]
  have hneat := (hw.neat_context c).replace hreplace
  have hget : w.contexts[c]? = none → (.taken f : Slot FileId) = .free := by
    intro hnone
    rw [World.numbering_limit, World.context_of_getElem?_none hnone] at hlt
    exact absurd hlt (Nat.not_lt_zero _)
  refine .of_run rfl rfl
    (World.numbering_setTable hget hneat.limit_eq (ReservationTable.slotAt_replace hreplace))
    (hw.setTable hneat (ReservationTable.slotAt_replace hreplace) ?_) (.of_files rfl)
  intro g hg
  cases hg
  exact hf

end

/-- One more file is open. -/
theorem World.numbering_push (w : World) (file : OpenFile) :
    ({ w with files := w.files.push file } : World).numbering = w.numbering.made :=
  Numbering.ext rfl rfl rfl rfl (Arena.nextKey_push _ _)

theorem World.get?_pushed (w : World) (file : OpenFile) {f : FileId} (hlt : f < w.files.nextKey) :
    (w.files.push file).get? f = w.files.get? f := by
  rw [Arena.get?_push, if_neg (Nat.ne_of_lt hlt)]

theorem World.Orderly.push (hw : w.Orderly) (file : OpenFile) :
    ({ w with files := w.files.push file } : World).Orderly := by
  refine ⟨hw.neat, fun c i f hbound => ?_⟩
  have hhas := hw.bound c i f hbound
  rw [Arena.has, w.get?_pushed file (Arena.lt_nextKey_of_has hhas)]
  exact hhas

theorem World.has_pushed (w : World) (file : OpenFile) :
    (w.files.push file).has w.files.nextKey = true := by
  rw [Arena.has, Arena.get?_push, if_pos rfl]
  rfl

/-- What follows runs in a world in which the new file is open and bound nowhere. -/
theorem renders_addFile_bind {α : Type} (hw : w.Orderly) {file : OpenFile} {g : FileId → Act α}
    {a : Except Error (α × Numbering)}
    (hg : ∀ w', w'.numbering = w.numbering.made → w'.Orderly →
      w'.files.has w.numbering.next = true → (g w.numbering.next).Renders start w' a) :
    (addFile file >>= g).Renders start w a := by
  have hretains : w.Retains { w with files := w.files.push file } := by
    refine ⟨?_, fun f hlt => .inl (w.get?_pushed file hlt)⟩
    rw [Arena.nextKey_push]
    exact Nat.le_succ _
  have hrest := hg _ (w.numbering_push file) (hw.push file) (w.has_pushed file)
  exact .of_run (Action.bind_ok rfl) hrest.result hrest.numbering hrest.orderly
    (hretains.trans hrest.retains)

/-- The world once a context has reserved its least free number. -/
def World.reserving (w : World) (c : ContextId) : World := (allocateHandle c w).world

theorem World.reserving_files (w : World) (c : ContextId) : (w.reserving c).files = w.files := by
  show ((allocateHandle c) w).world.files = w.files
  rw [allocateHandle, Action.bind_ok (Action.look_apply _ w)]
  cases (w.context c).files.reserve <;> rfl

/-! ## Letting go -/

section

variable [Backends]

theorem dropFile_renders (hw : w.Orderly) (f : FileId) :
    (dropFile f).Renders start w (.ok ((), w.numbering)) := by
  refine renders_look_bind ?_
  split
  · exact renders_pure hw rfl ()
  next hgone =>
  rw [Bool.or_eq_true, not_or] at hgone
  refine renders_look_bind ?_
  obtain ⟨hcontexts, htasks, hfiles, -⟩ :=
    World.spares_settle { w with files := w.files.remove f }
  have hnumbering : ({ w with files := w.files.remove f } : World).settle.numbering =
      w.numbering :=
    World.numbering_congr hcontexts htasks (by rw [hfiles]; exact Arena.nextKey_remove _ _)
  have horderly : ({ w with files := w.files.remove f } : World).settle.Orderly := by
    refine ⟨fun c context hc => hw.neat c context (hcontexts ▸ hc),
      fun c i g hbound => ?_⟩
    rw [hnumbering] at hbound
    have hne : f ≠ g := by
      rintro rfl
      exact hgone.1 (World.holdsFile_iff.2 ⟨c, i, hbound⟩)
    rw [hfiles, Arena.has, Arena.get?_remove, if_neg hne]
    exact hw.bound c i g hbound
  have hretains : w.Retains ({ w with files := w.files.remove f } : World).settle := by
    refine ⟨?_, fun g _ => ?_⟩
    · rw [hfiles, Arena.nextKey_remove]
    · rw [hfiles, Arena.get?_remove]
      split
      · exact .inr rfl
      · exact .inl rfl
  exact .of_run (Action.liftM_bind_ok (closeFile_result _ _)) rfl hnumbering horderly hretains

theorem dropDisplaced_renders (hw : w.Orderly) (displaced : Option FileId) :
    (dropDisplaced displaced).Renders start w (.ok ((), w.numbering)) := by
  cases displaced with
  | none => exact renders_pure hw rfl ()
  | some f => exact dropFile_renders hw f

theorem giveBack_renders (hw : w.Orderly) (c : ContextId) (handle : Handle) :
    (giveBack c handle).Renders start w (.ok ((), (w.numbering.release c handle).2)) := by
  refine renders_bind (freeHandle_renders hw c handle) fun w' hnumbering hw' _ => ?_
  rw [← hnumbering]
  exact dropDisplaced_renders hw' _

theorem dropFiles_renders (hw : w.Orderly) (files : List FileId) :
    (dropFiles files).Renders start w (.ok ((), w.numbering)) := by
  induction files generalizing w with
  | nil => exact renders_pure hw rfl ()
  | cons f rest ih =>
    rw [dropFiles]
    split
    · exact ih hw
    · refine renders_bind (dropFile_renders hw f) fun w' hnumbering hw' _ => ?_
      rw [← hnumbering]
      exact ih hw'

theorem emptyTable_renders (hw : w.Orderly) (c : ContextId) :
    (emptyTable c).Renders start w (.ok ((), w.numbering.clear c)) := by
  refine renders_look_bind (renders_bind (n := w.numbering.clear c)
    (.of_run rfl rfl (w.numbering_drain c) (hw.drain c) (.of_files rfl)) fun w' hnumbering hw' _ =>
      ?_)
  rw [← hnumbering]
  exact dropFiles_renders hw' _

/-! ## Reserved numbers -/

theorem withReserved_exhausted (hw : w.Orderly) (work : Handle → Act Handle)
    (hfull : w.numbering.least c = none) :
    (withReserved c work).Renders w.numbering w (.error .tooManyOpenFiles) := by
  have hallocate := allocateHandle_renders hw c
  rw [Numbering.give, hfull] at hallocate
  exact renders_bind_error hallocate

/-- The number is free again if the work fails, so the map is what it was. -/
theorem withReserved_renders (hw : w.Orderly) (hreach : w.numbering.InReach c)
    {work : Handle → Act Handle} {i : Nat} {a : Except Error (Handle × Numbering)}
    (hleast : w.numbering.least c = some i)
    (hwork : (w.reserving c).numbering = w.numbering.set c i .reserved →
      (w.reserving c).Orderly →
        (work (.ofSlot i (w.numbering.kernel c))).Renders (w.numbering.set c i .reserved)
          (w.reserving c) a) :
    (withReserved c work).Renders w.numbering w a := by
  obtain ⟨hkernel, hslot⟩ := hreach.names_least hleast
  have hallocate := allocateHandle_renders hw c
  rw [Numbering.give, hleast] at hallocate
  obtain ⟨hresult, hnumbering, horderly, hretains⟩ := hallocate
  rcases hrun : allocateHandle c w with ⟨_ | reserved, w', t⟩ <;>
    rw [hrun] at hresult hnumbering horderly hretains <;> cases hresult
  have hreserving : w.reserving c = w' := by rw [World.reserving, hrun]
  rw [hreserving] at hwork
  have hundone : ∀ w', w'.numbering = w.numbering.set c i .reserved → w'.Orderly →
      (giveBack c (.ofSlot i (w.numbering.kernel c))).Renders w.numbering w'
        (.ok ((), w.numbering)) := by
    intro w' hnumbering hw'
    have hgiven : (giveBack c (.ofSlot i (w.numbering.kernel c))).Renders w.numbering w' _ :=
      giveBack_renders hw' c (.ofSlot i (w.numbering.kernel c))
    have hback := Numbering.release_reserved (c := c) hkernel
      (hslot.symm ▸ (Numbering.least_eq_some_iff.1 hleast).2.1)
    rw [hslot] at hback
    rwa [hnumbering, hback] at hgiven
  have hdone := renders_orUndo (hwork hnumbering horderly) hundone
  exact .of_run (Action.bind_ok hrun) hdone.result hdone.numbering hdone.orderly
    (hretains.trans hdone.retains)

/-- A new file goes to the number that is reserved for it. -/
theorem commitFile_renders (hw : w.Orderly) (c : ContextId) (handle : Handle) (file : OpenFile) :
    (commitFile c handle file).Renders w.numbering w (do
      let after ← w.numbering.made.fill c handle w.numbering.next
      pure (handle, after)) := by
  have hattempt : (Query.attempt (bindable c handle) w).result =
      .ok (w.numbering.fillable c handle) := by
    rw [Query.result_attempt, result_bindable]
  refine renders_query_bind (k := fun _ => _) hw hattempt fun found hfound => ?_
  obtain rfl := Except.ok.inj hfound
  have hfill : w.numbering.made.fill c handle w.numbering.next =
      (w.numbering.fillable c handle).map fun _ =>
        w.numbering.made.set c handle.slot (.taken w.numbering.next) := rfl
  cases hfillable : w.numbering.fillable c handle with
  | error e =>
    rw [hfill, hfillable]
    exact renders_query_bind (k := fun _ => .error e) hw (closeFile_result none file)
      fun _ _ => renders_throw hw _
  | ok =>
    refine renders_addFile_bind hw fun w' hnumbering hw' hadded => ?_
    have hbind := bindHandle_renders hw' c handle hadded
    rw [hnumbering, hfill, hfillable] at hbind
    rw [hfill, hfillable]
    exact renders_bind hbind.of_success fun w'' hnumbering hw'' _ =>
      renders_pure hw'' hnumbering handle

end

end VirtualFs
