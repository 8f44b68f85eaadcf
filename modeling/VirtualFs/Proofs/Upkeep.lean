/-
Tables that hold what is open. Between operations an open file is bound to
some number, and what has to be closed still can be (`World.Kept`). On the way
a file may be loose: its number is gone and it has yet to be dropped, or it has
just been made and has yet to be bound. `Action.Keeps` says of an action which
files it leaves loose, and that the ledger of what it did is in order.
-/
import VirtualFs.Proofs.Ledger
import VirtualFs.Proofs.TableState

namespace VirtualFs


namespace World

/-- What is bound is open, and what is open is bound, but for some files that are loose. What has to
be closed belongs to a node with operations. -/
structure Kept (loose : List FileId) (w : World) : Prop where
  orderly : w.Orderly
  held : ∀ f, w.files.has f = true → w.numbering.Bound f ∨ f ∈ loose
  ops : ∀ f file, w.files.get? f = some file → file.isPath = false →
    (w.node file.node).ops.isSome = true

variable {w w' : World} {loose loose' : List FileId}

theorem Kept.mono (h : w.Kept loose) (hsub : ∀ f ∈ loose, f ∈ loose') : w.Kept loose' :=
  ⟨h.orderly, fun f hf => (h.held f hf).imp_right (hsub f), h.ops⟩

end World

/-! ## Actions -/

namespace Action

variable {α β : Type} {w : World} {left : α → List FileId}

/-- Keeps the ledger in order, and leaves loose what is said; nothing if it fails. -/
structure Keeps (x : Act α) (w : World) (left : α → List FileId) : Prop where
  ledger : w.Ledger (x w).trace (x w).world
  ok : ∀ a, (x w).result = .ok a → (x w).world.Kept (left a)
  error : ∀ e, (x w).result = .error e → (x w).world.Kept []

theorem Keeps.of_run {x : Act α} {r : Except Error α} {w' : World} {t : List Event}
    (hrun : x w = ⟨r, w', t⟩) (hledger : w.Ledger t w') (hok : ∀ a, r = .ok a → w'.Kept (left a))
    (herror : ∀ e, r = .error e → w'.Kept []) : x.Keeps w left :=
  ⟨by rw [hrun]; exact hledger, by rw [hrun]; exact hok, by rw [hrun]; exact herror⟩

theorem keeps_pure {a : α} (hw : w.Kept (left a)) : (pure a : Act α).Keeps w left := by
  refine ⟨Stretch.quiet quiet_nil, fun b hb => ?_, nofun⟩
  cases hb
  exact hw

theorem keeps_throw (hw : w.Kept []) (e : Error) : (throw e : Act α).Keeps w left :=
  ⟨Stretch.quiet quiet_nil, nofun, fun _ _ => hw⟩

theorem keeps_bind {x : Act α} {f : α → Act β} {left' : β → List FileId} (hx : x.Keeps w left)
    (hf : ∀ a w', (x w).result = .ok a → (x w).world = w' → w'.Kept (left a) →
      (f a).Keeps w' left') : (x >>= f).Keeps w left' := by
  obtain ⟨hledger, hok, herror⟩ := hx
  rcases hrun : x w with ⟨e | a, w', t⟩ <;> rw [hrun] at hledger hok herror
  · exact .of_run (bind_error hrun) hledger nofun fun _ _ => herror e rfl
  · obtain ⟨hledger', hok', herror'⟩ := hf a w' (by rw [hrun]) (by rw [hrun]) (hok a rfl)
    exact .of_run (bind_ok hrun) (hledger.trans hledger') hok' herror'

theorem keeps_query_bind {q : Query α} {f : α → Act β} {left' : β → List FileId}
    (hq : Quiet (q w).trace) (hw : w.Kept [])
    (hf : ∀ a, (q w).result = .ok a → (f a).Keeps w left') :
    ((liftM q : Act α) >>= f).Keeps w left' := by
  have hkeeps : (liftM q : Act α).Keeps w fun _ => [] :=
    ⟨Stretch.quiet hq, fun _ _ => hw, fun _ _ => hw⟩
  refine keeps_bind hkeeps ?_
  rintro a _ ha rfl -
  exact hf a ha

theorem keeps_look_bind {g : World → α} {f : α → Act β} {left' : β → List FileId}
    (hf : (f (g w)).Keeps w left') : ((Action.look g : Act α) >>= f).Keeps w left' := by
  have hdone := bind_ok (f := f) (look_apply g w)
  exact ⟨by rw [hdone]; exact hf.ledger, by rw [hdone]; exact hf.ok,
    by rw [hdone]; exact hf.error⟩

theorem keeps_ask_bind {g : World → α} {f : α → Act β} {left' : β → List FileId}
    (hf : (f (g w)).Keeps w left') : ((liftM (Query.look g) : Act α) >>= f).Keeps w left' :=
  keeps_look_bind hf

/-- What is run because of a failure finds everything in order. -/
theorem keeps_orUndo {x : Act α} {undo : Act Unit} (hx : x.Keeps w left)
    (hundo : ∀ w', w'.Kept [] → undo.Keeps w' fun _ => []) : (x.orUndo undo).Keeps w left := by
  obtain ⟨hledger, hok, herror⟩ := hx
  rcases hrun : x w with ⟨e | a, w', t⟩ <;> rw [hrun] at hledger hok herror
  · have hdone : x.orUndo undo w = ⟨.error e, (undo w').world, t ++ (undo w').trace⟩ := by
      rw [orUndo, hrun]
    have hundone := hundo w' (herror e rfl)
    refine .of_run hdone (hledger.trans hundone.ledger) (fun _ ha => by cases ha) fun _ _ => ?_
    cases hresult : (undo w').result with
    | ok u => exact hundone.ok u hresult
    | error e' => exact hundone.error e' hresult
  · have hdone : x.orUndo undo w = ⟨.ok a, w', t⟩ := by rw [orUndo, hrun]
    exact .of_run hdone hledger hok fun _ he => by cases he

end Action

open VirtualFs.Action (keeps_pure keeps_throw keeps_bind keeps_query_bind keeps_look_bind
  keeps_ask_bind keeps_orUndo)

variable {w : World} {c : ContextId} {handle : Handle} {f : FileId}

/-! ## Single tables -/

/-- Sees nothing and changes nothing but the tables. -/
def Action.Tabling {α : Type} (x : Act α) (w : World) : Prop :=
  Quiet (x w).trace ∧ ∃ contexts, (x w).world = { w with contexts }

/-- What changes the tables alone keeps everything in order if it leaves loose what it unbinds. -/
theorem Action.Tabling.keeps {α : Type} {x : Act α} {left : α → List FileId} {loose : List FileId}
    (h : x.Tabling w) (hw : w.Kept loose) (horderly : (x w).world.Orderly)
    (hok : ∀ a, (x w).result = .ok a → ∀ f, w.numbering.Bound f ∨ f ∈ loose →
      (x w).world.numbering.Bound f ∨ f ∈ left a)
    (herror : ∀ e, (x w).result = .error e → ∀ f, w.numbering.Bound f ∨ f ∈ loose →
      (x w).world.numbering.Bound f) : x.Keeps w left := by
  obtain ⟨hquiet, contexts, hworld⟩ := h
  rw [hworld] at horderly hok herror
  refine ⟨?_, fun a ha => ?_, fun e he => ?_⟩ <;> rw [hworld]
  · exact World.SameFiles.ledger (w := w) (.of_files rfl) hquiet.balanced
  · exact ⟨horderly, fun f hf => hok a ha f (hw.held f hf), hw.ops⟩
  · exact ⟨horderly, fun f hf => .inl (herror e he f (hw.held f hf)), hw.ops⟩

theorem allocateHandle_keeps (hw : w.Kept []) (c : ContextId) :
    (allocateHandle c).Keeps w fun _ => [] := by
  have htabling : (allocateHandle c).Tabling w := by
    rw [Action.Tabling, allocateHandle, Action.bind_ok (Action.look_apply _ w)]
    cases (w.context c).files.reserve with
    | none => exact ⟨quiet_nil, w.contexts, rfl⟩
    | some reserved => exact ⟨quiet_nil, _, rfl⟩
  obtain ⟨hresult, hnumbering, horderly, -⟩ := allocateHandle_renders hw.orderly c
  have hbound : ∀ f, w.numbering.Bound f ∨ f ∈ [] →
      (allocateHandle c w).world.numbering.Bound f := by
    intro f hf
    rw [hnumbering]
    have hf := hf.resolve_right List.not_mem_nil
    cases hleast : w.numbering.least c with
    | none =>
      rw [Numbering.give_full hleast]
      exact hf
    | some i =>
      rw [Numbering.give_least hleast]
      refine hf.set ?_ _
      rw [(Numbering.least_eq_some_iff.1 hleast).2.1]
      intro hfree
      cases hfree
  exact htabling.keeps hw horderly (fun _ _ f hf => .inl (hbound f hf)) fun _ _ f hf => hbound f hf

theorem freeHandle_keeps (hw : w.Kept []) (c : ContextId) (handle : Handle) :
    (freeHandle c handle).Keeps w Option.toList := by
  have htabling : (freeHandle c handle).Tabling w := by
    rw [Action.Tabling, freeHandle, Action.bind_ok (Action.look_apply _ w)]
    split
    · exact ⟨quiet_nil, _, rfl⟩
    · exact ⟨quiet_nil, w.contexts, rfl⟩
  have hrenders : (freeHandle c handle).Renders w.numbering w _ :=
    freeHandle_renders hw.orderly c handle
  obtain ⟨hresult, hnumbering, horderly, -⟩ := hrenders
  refine htabling.keeps hw horderly (fun displaced hok f hf => ?_) fun e he => ?_
  · rw [hresult] at hok
    obtain rfl : (w.numbering.release c handle).1 = displaced := Except.ok.inj hok
    have hf := hf.resolve_right List.not_mem_nil
    rw [hnumbering]
    show (w.numbering.release c handle).2.Bound f ∨ _
    rw [Numbering.release]
    split
    · by_cases hslot : w.numbering.slot c handle.slot = .taken f
      · rw [hslot]
        exact .inr List.mem_cons_self
      · exact .inl (hf.set hslot _)
    · exact .inl hf
  · rw [hresult] at he
    cases he

theorem bindHandle_tabling (c : ContextId) (handle : Handle) (f : FileId) :
    (bindHandle c handle f).Tabling w := by
  have hquiet : Quiet (bindable c handle w).trace := (bindable_discreet (F := False) c handle w).1
  rw [Action.Tabling, bindHandle]
  cases hbindable : (bindable c handle w).result with
  | error e =>
    rw [Action.liftM_bind_error hbindable]
    exact ⟨hquiet, w.contexts, rfl⟩
  | ok =>
    rw [Action.liftM_bind_ok hbindable, Action.bind_ok (Action.look_apply _ w)]
    cases (w.context c).files.fill handle.slot f with
    | error e => exact ⟨hquiet.append quiet_nil, w.contexts, rfl⟩
    | ok files => exact ⟨hquiet.append quiet_nil, _, rfl⟩

/-- Binding a file leaves it loose no longer; it was not, if it cannot be bound. -/
theorem bindHandle_keeps (c : ContextId) (handle : Handle) (hf : w.files.has f = true)
    (hw : w.Kept [f])
    (hbound : w.numbering.Bound f ∨ w.numbering.fillable c handle = .ok ()) :
    (bindHandle c handle f).Keeps w fun _ => [] := by
  obtain ⟨hresult, hnumbering, horderly, -⟩ := bindHandle_renders hw.orderly c handle hf
  have hfill : w.numbering.fill c handle f = (w.numbering.fillable c handle).map fun _ =>
      w.numbering.set c handle.slot (.taken f) := rfl
  rw [hfill] at hresult hnumbering
  cases hfillable : w.numbering.fillable c handle with
  | error e =>
    rw [hfillable] at hresult hnumbering
    have hbound := hbound.resolve_right fun hok => by rw [hfillable] at hok; cases hok
    refine (bindHandle_tabling c handle f).keeps hw horderly (fun a ha => ?_) fun e he g hg => ?_
    · rw [hresult] at ha
      cases ha
    · rw [hnumbering]
      refine hg.elim id fun hmem => ?_
      rw [List.mem_singleton.1 hmem]
      exact hbound
  | ok =>
    rw [hfillable] at hresult hnumbering
    refine (bindHandle_tabling c handle f).keeps hw horderly (fun a ha g hg => .inl ?_)
      fun e he => ?_
    · rw [hnumbering]
      rcases hg with hg | hmem
      · refine hg.set ?_ _
        rw [(Numbering.fillable_eq_ok.1 hfillable).2]
        nofun
      · rw [List.mem_singleton.1 hmem]
        exact Numbering.bound_set f
    · rw [hresult] at he
      cases he

theorem installHandle_tabling (c : ContextId) (handle : Handle) (f : FileId) :
    (installHandle c handle f).Tabling w := by
  have hquiet : Quiet (installable c handle w).trace :=
    (installable_discreet (F := False) c handle w).1
  rw [Action.Tabling, installHandle]
  cases hinstallable : (installable c handle w).result with
  | error e =>
    rw [Action.liftM_bind_error hinstallable]
    exact ⟨hquiet, w.contexts, rfl⟩
  | ok =>
    rw [Action.liftM_bind_ok hinstallable, Action.bind_ok (Action.look_apply _ w)]
    cases (w.context c).files.replace handle.slot f with
    | error e => exact ⟨hquiet.append quiet_nil, w.contexts, rfl⟩
    | ok replaced => exact ⟨hquiet.append quiet_nil, _, rfl⟩

/-- What a number was bound to before is loose. -/
theorem installHandle_keeps (c : ContextId) (handle : Handle) (hw : w.Kept [])
    (hf : w.files.has f = true) : (installHandle c handle f).Keeps w Option.toList := by
  obtain ⟨hresult, hnumbering, horderly, -⟩ := installHandle_renders hw.orderly c handle hf
  have hplace : w.numbering.place c handle f = (w.numbering.placeable c handle).map fun _ =>
      ((w.numbering.slot c handle.slot).value?, w.numbering.set c handle.slot (.taken f)) := rfl
  rw [hplace] at hresult hnumbering
  cases hplaceable : w.numbering.placeable c handle with
  | error e =>
    rw [hplaceable] at hresult hnumbering
    refine (installHandle_tabling c handle f).keeps hw horderly (fun a ha => ?_) fun e he g hg => ?_
    · rw [hresult] at ha
      cases ha
    · rw [hnumbering]
      exact hg.resolve_right List.not_mem_nil
  | ok =>
    rw [hplaceable] at hresult hnumbering
    refine (installHandle_tabling c handle f).keeps hw horderly (fun displaced hok g hg => ?_)
      fun e he => ?_
    · rw [hresult] at hok
      obtain rfl : (w.numbering.slot c handle.slot).value? = displaced := Except.ok.inj hok
      have hg := hg.resolve_right List.not_mem_nil
      rw [hnumbering]
      by_cases hslot : w.numbering.slot c handle.slot = .taken g
      · rw [hslot]
        exact .inr List.mem_cons_self
      · exact .inl (hg.set hslot _)
    · rw [hresult] at he
      cases he

/-! ## Closing -/

section

variable [Backends] {full : Prop} (hlaws : Backends.Discreet full)

include hlaws

/-- The operations of the node are asked once to close it; what they do is nobody's business. -/
theorem closeFile_trace (key : Option FileId) {file : OpenFile} {ops : OpsKind}
    (hpath : file.isPath = false) (hops : (w.node file.node).ops = some ops) :
    ∃ rest, Quiet rest ∧
      (closeFile key file w).trace = .used ops (.close file.node key) :: rest := by
  have hclose : (ops.close file key w).trace =
      .used ops (.close file.node key) :: ((Backends.ops ops).close file w).trace := by
    rw [OpsKind.close, Query.trace_bind_ok (Query.result_note _ _)]
    rfl
  have hquiet := ((hlaws.ops ops).close file w).1
  have hattempt : (Query.attempt (ops.close file key) w).result =
      .ok (ops.close file key w).result := rfl
  rw [closeFile, if_neg (by rw [hpath]; exact Bool.false_ne_true), Query.look_bind, hops]
  dsimp only
  rw [Query.trace_bind_ok hattempt]
  show ∃ rest, Quiet rest ∧ (ops.close file key w).trace ++ _ = _
  rw [hclose]
  cases (ops.close file key w).result with
  | ok => exact ⟨_, hquiet.append quiet_nil, rfl⟩
  | error cause =>
    exact ⟨_, hquiet.append (quiet_singleton rfl), rfl⟩

/-- What closing a file puts on the books: nothing if it was open for its path alone. -/
theorem closeFile_counts (key : Option FileId) (file : OpenFile)
    (hops : file.isPath = false → (w.node file.node).ops.isSome = true) :
    (∀ p, openings p (closeFile key file w).trace = 0) ∧
      (∀ p, closings p (closeFile key file w).trace = (!file.isPath && p file.node).toNat) ∧
        ∀ f, closingsOf f (closeFile key file w).trace = (!file.isPath && key == some f).toNat := by
  cases hpath : file.isPath with
  | true =>
    rw [closeFile, if_pos hpath]
    exact ⟨fun _ => rfl, fun _ => rfl, fun _ => rfl⟩
  | false =>
    obtain ⟨ops, hsome⟩ := Option.isSome_iff_exists.1 (hops hpath)
    obtain ⟨rest, hquiet, htrace⟩ := closeFile_trace hlaws key hpath hsome
    rw [htrace]
    refine ⟨fun p => ?_, fun p => ?_, fun f => ?_⟩
    · have hrest := hquiet.openings (p := p)
      rw [openings] at hrest ⊢
      rw [List.countP_cons, hrest]
      rfl
    · have hrest := hquiet.closings (p := p)
      rw [closings] at hrest ⊢
      rw [List.countP_cons, hrest]
      cases hp : p file.node <;> simp [Event.closes, hp]
    · have hrest := hquiet.closingsOf (f := f)
      rw [closingsOf] at hrest ⊢
      rw [List.countP_cons, hrest]
      cases key with
      | none => rfl
      | some g =>
        show 0 + (if (g == f) = true then 1 else 0) = (g == f).toNat
        cases g == f <;> rfl

/-- The world once an open file that no number is bound to is taken away. -/
theorem ledger_removed {file : OpenFile} (hfile : w.files.get? f = some file)
    (hops : file.isPath = false → (w.node file.node).ops.isSome = true) :
    w.Ledger (closeFile (some f) file w).trace
      ({ w with files := w.files.remove f } : World).settle := by
  obtain ⟨hopenings, hclosings, hclosingsOf⟩ := closeFile_counts hlaws (some f) file hops
  have hfiles := (World.spares_settle { w with files := w.files.remove f }).files
  have howes : ∀ g, ({ w with files := w.files.remove f } : World).settle.owes g =
      (!(f == g) && w.owes g) := by
    intro g
    rw [World.owes, World.owes, hfiles, Arena.get?_remove]
    by_cases hfg : f = g <;> simp [hfg]
  have hself : w.owes f = !file.isPath := by
    rw [World.owes, hfile]
    rfl
  refine ⟨?_, fun g hg file' hfile' => ?_, fun g hg => ?_, fun g hlt hge => ?_, fun g hg => ?_,
    fun p => ?_⟩
  · rw [hfiles, Arena.nextKey_remove]
  · rw [hfiles] at hfile'
    exact ⟨file', Arena.get?_of_remove hfile', rfl, rfl⟩
  · rw [hclosingsOf, howes]
    by_cases hfg : f = g
    · subst hfg
      rw [hself]
      cases file.isPath <;> simp
    · have hbeq : (f == g) = false := beq_false_of_ne hfg
      simp [hbeq]
  · rw [hfiles, Arena.nextKey_remove] at hlt
    exact absurd hlt (Nat.not_lt.2 hge)
  · rw [hfiles, Arena.nextKey_remove] at hg
    have hne : f ≠ g := by
      rintro rfl
      exact absurd (Arena.lt_nextKey_of_has (Arena.has_iff.2 ⟨file, hfile⟩)) (Nat.not_lt.2 hg)
    rw [hclosingsOf]
    simp [hne]
  · rw [hopenings, hclosings, World.owed_remove hfile hfiles p]
    omega

theorem dropFile_keeps {rest : List FileId} (hw : w.Kept (f :: rest)) :
    (dropFile f).Keeps w fun _ => rest := by
  have hrenders : (dropFile f).Renders w.numbering w _ := dropFile_renders hw.orderly f
  by_cases hstays : (w.holdsFile f || !w.files.has f) = true
  · have hrun : dropFile f w = ⟨.ok (), w, []⟩ := by
      rw [dropFile, Action.bind_ok (Action.look_apply _ w), if_pos hstays]
      rfl
    rw [Bool.or_eq_true, World.holdsFile_iff, Bool.not_eq_true'] at hstays
    refine .of_run hrun (Stretch.quiet quiet_nil) (fun _ _ => ⟨hw.orderly, fun g hg => ?_,
      hw.ops⟩) nofun
    refine (hw.held g hg).elim .inl fun hmem => (List.mem_cons.1 hmem).imp_left fun hself => ?_
    subst hself
    refine hstays.resolve_right fun hgone => ?_
    rw [hg] at hgone
    cases hgone
  · have hgone : w.files.has f = true := by
      rw [Bool.or_eq_true, not_or] at hstays
      simpa using hstays.2
    obtain ⟨file, hfile⟩ := Arena.has_iff.1 hgone
    have hself : w.file f = file := by rw [World.file, hfile, Option.getD_some]
    have hrun : dropFile f w = ⟨.ok (), ({ w with files := w.files.remove f } : World).settle,
        (closeFile (some f) file w).trace⟩ := by
      rw [dropFile, Action.bind_ok (Action.look_apply _ w), if_neg hstays,
        Action.bind_ok (Action.look_apply _ w), hself,
        Action.liftM_bind_ok (closeFile_result (some f) file)]
      simp
    obtain ⟨-, hnumbering, horderly, -⟩ := hrenders
    rw [hrun] at hnumbering horderly
    obtain ⟨-, -, hfiles, hkeeps⟩ := World.spares_settle { w with files := w.files.remove f }
    refine .of_run hrun (ledger_removed hlaws hfile (hw.ops f file hfile))
      (fun _ _ => ⟨horderly, fun g hg => ?_, fun g file' hfile' hpath' => ?_⟩) nofun
    · rw [hfiles, Arena.has, Arena.get?_remove] at hg
      split at hg
      · cases hg
      · next hne =>
        rw [hnumbering]
        exact (hw.held g hg).imp_right fun hmem =>
          (List.mem_cons.1 hmem).resolve_left fun heq => hne heq.symm
    · rw [hfiles] at hfile'
      have hold := Arena.get?_of_remove hfile'
      obtain ⟨ops, hops⟩ := Option.isSome_iff_exists.1 (hw.ops g file' hold hpath')
      rw [hkeeps g file' ops hfile' hops]
      rfl

theorem dropDisplaced_keeps {displaced : Option FileId} (hw : w.Kept displaced.toList) :
    (dropDisplaced displaced).Keeps w fun _ => [] := by
  cases displaced with
  | none => exact keeps_pure hw
  | some f => exact dropFile_keeps hlaws hw

theorem giveBack_keeps (hw : w.Kept []) (c : ContextId) (handle : Handle) :
    (giveBack c handle).Keeps w fun _ => [] :=
  keeps_bind (freeHandle_keeps hw c handle) fun _ _ _ _ hw' => dropDisplaced_keeps hlaws hw'

/-- Of several files each goes at its last occurrence. -/
theorem dropFiles_keeps {files : List FileId} (hw : w.Kept files) :
    (dropFiles files).Keeps w fun _ => [] := by
  induction files generalizing w with
  | nil => exact keeps_pure hw
  | cons f rest ih =>
    rw [dropFiles]
    split
    · next hagain =>
      rw [List.contains_iff_mem] at hagain
      refine ih (hw.mono fun g hg => ?_)
      rcases List.mem_cons.1 hg with rfl | hg
      · exact hagain
      · exact hg
    · exact keeps_bind (dropFile_keeps hlaws hw) fun _ _ _ _ hw' => ih hw'

theorem emptyTable_keeps (hw : w.Kept []) (c : ContextId) :
    (emptyTable c).Keeps w fun _ => [] := by
  have hemptied : (w.setContext c fun context =>
      { context with files := (w.context c).files.drain.2 }).Kept
        (w.context c).files.drain.1 := by
    refine ⟨hw.orderly.drain c, fun f hf => ?_, hw.ops⟩
    obtain ⟨c', i, hslot⟩ := (hw.held f hf).resolve_right List.not_mem_nil
    by_cases hc : c' = c
    · subst hc
      exact .inr (ReservationTable.mem_values_iff.2 ⟨i, hslot⟩)
    · refine .inl ⟨c', i, ?_⟩
      rw [World.numbering_drain]
      exact (if_neg hc).trans hslot
  refine keeps_look_bind (keeps_bind ?_ fun _ w' _ _ hw' => dropFiles_keeps hlaws hw')
  exact .of_run (Action.change_apply _ w)
    (World.SameFiles.ledger (.of_files rfl) quiet_nil.balanced) (fun _ _ => hemptied) nofun

theorem withReserved_keeps (hw : w.Kept []) (c : ContextId) {work : Handle → Act Handle}
    (hwork : ∀ handle w', (allocateHandle c w).world = w' → w'.Kept [] →
      (work handle).Keeps w' fun _ => []) : (withReserved c work).Keeps w fun _ => [] :=
  keeps_bind (allocateHandle_keeps hw c) fun handle w' _ hworld hw' =>
    keeps_orUndo (hwork handle w' hworld hw') fun _ hw'' => giveBack_keeps hlaws hw'' c handle

end

end VirtualFs
