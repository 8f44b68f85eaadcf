/-
The way down to a device. Where a directory is missing on it, it is made, and
what has been made is not taken back. So the trees have at most grown by empty
directories on the way (`World.Paves`), each the only thing the one before it
lists. From the first missing directory on everything is made anew, and then
only a name that may not be listed can stop it.
-/
import VirtualFs.Proofs.NodeOpens
import VirtualFs.Proofs.NumberSearch
import VirtualFs.Proofs.Relocation

namespace VirtualFs

open VirtualFs.Action (ended_bind ended_query_bind ended_query_bind_error)

namespace World

variable {w w₁ w' : World} {d e c : NodeId} {name : String} {names : List String}

theorem CarriesOver.refl (w : World) (lost : NodeId → Prop) : w.CarriesOver w lost :=
  ⟨fun _ hn => .inl hn, fun _ _ _ => rfl⟩

theorem CarriesOver.trans (h : w.CarriesOver w₁ fun _ => False)
    (h' : w₁.CarriesOver w' fun _ => False) : w.CarriesOver w' fun _ => False where
  live n hn := h'.live n ((h.live n hn).resolve_right id)
  apart n hn hn' := by
    have hn₁ := (h.live n hn).resolve_right id
    rw [h'.apart n hn₁ hn', h.apart n hn hn₁]

/-- A directory that lists nothing. -/
def Vacant (w : World) (d : NodeId) : Prop := w.isDirectory d = true ∧ ∀ a x, ¬w.Entry d a x

/-- Directories that were missing on the way down some names have been made, and the trees have
changed in nothing else. -/
structure Paves (w w' : World) (d : NodeId) (names : List String) : Prop where
  kept : w.entries ⊆ w'.entries
  nodes : w.CarriesOver w' fun _ => False
  added : ∀ e a c, (e, a, c) ∈ w'.entries → (e, a, c) ∉ w.entries →
    ∃ front, front ++ [a] <+: names ∧ w'.descend d front = .ok e ∧
      w.descend d (front ++ [a]) = .error .notFound ∧ ¬w.Live c ∧
      (w'.node c).mode = Mode.make Mode.directory 0o755

theorem Paves.refl (w : World) (d : NodeId) (names : List String) : w.Paves w d names :=
  ⟨fun _ he => he, .refl w _, fun _ _ _ he hnot => absurd he hnot⟩

theorem Paves.entry (hpaves : w.Paves w' d names) {e c : NodeId} {a : String}
    (he : w.Entry e a c) : w'.Entry e a c :=
  mem_entries.1 (hpaves.kept (mem_entries.2 he))

/-- As long as no entry goes, names lead where they led. -/
theorem descend_kept (h : w.WellFormed) (h' : w'.WellFormed) (hkept : w.entries ⊆ w'.entries)
    (hd : w.descend d names = .ok e) : w'.descend d names = .ok e := by
  induction names generalizing d with
  | nil => exact hd
  | cons a names ih =>
    obtain ⟨m, hentry, hm⟩ := (descend_cons_eq_ok h).1 hd
    exact (descend_cons_eq_ok h').2 ⟨m, mem_entries.1 (hkept (mem_entries.2 hentry)), ih hm⟩

theorem Gains.entry_new {mode : UInt32} {content : Content}
    (hgains : w.Gains w' d name c mode content) : w'.Entry d name c :=
  mem_entries.1 (hgains.entries ▸ Set.mem_insert _ _)

/-! ## One directory further up -/

section

variable (h : w.WellFormed) (h' : w'.WellFormed)

include h h'

theorem Paves.there (hentry : w.Entry d name c) (hpaves : w.Paves w' c names) :
    w.Paves w' d (name :: names) where
  kept := hpaves.kept
  nodes := hpaves.nodes
  added e a x he hnot := by
    obtain ⟨front, hprefix, hfront, hmissing, hnew⟩ := hpaves.added e a x he hnot
    refine ⟨name :: front, List.cons_prefix_cons.2 ⟨rfl, hprefix⟩,
      (descend_cons_eq_ok h').2 ⟨c, hpaves.entry hentry, hfront⟩, ?_, hnew⟩
    rw [List.cons_append, descend_cons, (child_eq_ok h).2 hentry]
    exact hmissing

omit h in
theorem Paves.made (hdir : w.isDirectory d = true)
    (hgains : w.Gains w₁ d name c (Mode.make Mode.directory 0o755) (.directory .empty))
    (hpaves : w₁.Paves w' c names) : w.Paves w' d (name :: names) where
  kept := fun _ he => hpaves.kept (hgains.entries ▸ Set.mem_insert_of_mem _ he)
  nodes := hgains.nodes.trans hpaves.nodes
  added e a x he hnot := by
    have hmissing : w.child d name = .error .notFound := child_of_free hdir hgains.free
    by_cases he₁ : (e, a, x) ∈ w₁.entries
    · -- It is the directory that was made first.
      have hfirst : (e, a, x) = (d, name, c) :=
        (Set.mem_insert_iff.1 (hgains.entries ▸ he₁)).resolve_right hnot
      cases hfirst
      have hlive := (hpaves.nodes.live c hgains.live).resolve_right id
      have hmode := congrArg Node.mode (hpaves.nodes.apart c hgains.live hlive)
      refine ⟨[], List.cons_prefix_cons.2 ⟨rfl, List.nil_prefix⟩, rfl, ?_, hgains.fresh, ?_⟩
      · rw [List.nil_append, descend_cons, hmissing]
        rfl
      · rw [← hgains.mode, ← Node.mode_apart, hmode, Node.mode_apart]
    · obtain ⟨front, hprefix, hfront, -, hnew, hmode⟩ := hpaves.added e a x he he₁
      refine ⟨name :: front, List.cons_prefix_cons.2 ⟨rfl, hprefix⟩,
        (descend_cons_eq_ok h').2 ⟨c, hpaves.entry hgains.entry_new, hfront⟩, ?_,
        fun hx => hnew ((hgains.nodes.live x hx).resolve_right id), hmode⟩
      rw [List.cons_append, descend_cons, hmissing]
      rfl

end

/-! ## The whole way -/

/-- What going down names comes to: the directory of the last name, or a failure. -/
structure Placed (w w' : World) (d : NodeId) (names : List String)
    (r : Except Error (NodeId × String)) : Prop where
  wellFormed : w'.WellFormed
  tidy : w'.Tidy
  paves : w.Paves w' d names.dropLast
  place : ∀ e name, r = .ok (e, name) →
    ∃ front, names = front ++ [name] ∧ w'.descend d front = .ok e ∧ IsEntryName name
  /-- The last of the directories that were made is empty. -/
  vacant : ∀ e name, r = .ok (e, name) → w' = w ∨ w'.Vacant e
  /-- If all names may be listed, it fails only where a directory is in the way, and before anything
  is made. -/
  undone : ∀ e, r = .error e → (∀ name ∈ names, checkName name = .ok ()) →
    w' = w ∧ (names ≠ [] → ¬w.Vacant d)

theorem Gains.vacant (h₁ : w₁.WellFormed)
    (hgains : w.Gains w₁ d name c (Mode.make Mode.directory 0o755) (.directory .empty)) :
    w₁.Vacant c := by
  constructor
  · rw [isDirectory, hgains.mode]
    decide
  · intro a x he
    have hcontent : (w₁.node c).ram.content = .directory .empty := hgains.content
    rw [Entry, children, (h₁.ram c hgains.live).children, hcontent] at he
    cases he

section

variable {next : String} {rest : List String} {r : Except Error (NodeId × String)}
  (h : w.WellFormed)

include h

/-- A world that has stayed as it was is what every failure on the way leaves, if a name is to
blame or the directory. -/
theorem placed_error (htidy : w.Tidy) {error : Error}
    (hblame : (∀ name ∈ names, checkName name = .ok ()) → names ≠ [] → ¬w.Vacant d) :
    w.Placed w d names (.error error) where
  wellFormed := h
  tidy := htidy
  paves := .refl w d _
  place := nofun
  vacant := nofun
  undone _ _ hvalid := ⟨rfl, hblame hvalid⟩

theorem Placed.there (hentry : w.Entry d name c) (hplaced : w.Placed w' c (next :: rest) r) :
    w.Placed w' d (name :: next :: rest) r where
  wellFormed := hplaced.wellFormed
  tidy := hplaced.tidy
  paves := hplaced.paves.there h hplaced.wellFormed hentry
  place e last hr := by
    obtain ⟨front, hnames, hfront, hlast⟩ := hplaced.place e last hr
    exact ⟨name :: front, by rw [hnames, List.cons_append],
      (descend_cons_eq_ok hplaced.wellFormed).2 ⟨c, hplaced.paves.entry hentry, hfront⟩, hlast⟩
  vacant := hplaced.vacant
  undone e hr hvalid :=
    ⟨(hplaced.undone e hr fun a ha => hvalid a (List.mem_cons_of_mem _ ha)).1,
      fun _ hvacant => hvacant.2 name c hentry⟩

omit h in
theorem Placed.made (h₁ : w₁.WellFormed) (hdir : w.isDirectory d = true)
    (hgains : w.Gains w₁ d name c (Mode.make Mode.directory 0o755) (.directory .empty))
    (hplaced : w₁.Placed w' c (next :: rest) r) : w.Placed w' d (name :: next :: rest) r where
  wellFormed := hplaced.wellFormed
  tidy := hplaced.tidy
  paves := hplaced.paves.made hplaced.wellFormed hdir hgains
  place e last hr := by
    obtain ⟨front, hnames, hfront, hlast⟩ := hplaced.place e last hr
    exact ⟨name :: front, by rw [hnames, List.cons_append],
      (descend_cons_eq_ok hplaced.wellFormed).2
        ⟨c, hplaced.paves.entry hgains.entry_new, hfront⟩, hlast⟩
  vacant e last hr := by
    refine .inr ((hplaced.vacant e last hr).elim (fun heq => ?_) id)
    obtain ⟨front, -, hfront, -⟩ := hplaced.place e last hr
    subst heq
    obtain rfl := eq_of_descend_bare h₁ (hgains.vacant h₁).2 hfront
    exact hgains.vacant h₁
  undone e hr hvalid := by
    obtain ⟨-, hnot⟩ := hplaced.undone e hr fun a ha => hvalid a (List.mem_cons_of_mem _ ha)
    exact absurd (hgains.vacant h₁) (hnot (List.cons_ne_nil _ _))

end

end World

namespace RamFs

variable {w : World} (h : w.WellFormed) {d : NodeId} {v : VolumeKey}

include h

/-- A node that is made is the one new entry. -/
theorem insert_gains (hd : w.Live d) (hv : (w.node d).volume = v) (name : String) (mode : UInt32)
    (content : Content) (ops : Option OpsKind) (hmode : Mode.typeBits mode = content.type)
    (hcontent : content.children = .empty)
    (hops : w.isDirectory d = true → ops = some .ram ∨ content = .device) :
    (insert v d name mode content ops).FailsTo w w fun n w' =>
      w.Inserted d name n w' ∧ w.Gains w' d name n mode content :=
  ((insert_inserts h hd hv.symm hmode hcontent hops).and (insert_makes hd)).imp
    fun _ _ ⟨hinserted, hmade, hheld⟩ => ⟨hinserted, hinserted.gains h hmade hheld⟩

/-- A directory on the way is there, or is made, or cannot be there. -/
theorem ensureDirectory_ends (hd : w.Live d) (hv : (w.node d).volume = v) {name : String}
    (hname : IsEntryName name) :
    (∃ c, w.Entry d name c ∧ (ensureDirectory v d name).ended w = (.ok c, w)) ∨
      (∃ c w₁, w.isDirectory d = true ∧ w.Inserted d name c w₁ ∧
        w.Gains w₁ d name c (Mode.make Mode.directory 0o755) (.directory .empty) ∧
        (ensureDirectory v d name).ended w = (.ok c, w₁)) ∨
      ¬w.isDirectory d = true ∧
        (ensureDirectory v d name).ended w = (.error .notADirectory, w) := by
  have hattempt := Query.result_attempt (lookup d name) w
  rw [lookup_result h hd hname.ne_dot hname.ne_dots] at hattempt
  rw [ensureDirectory, ended_query_bind hattempt]
  by_cases hdir : w.isDirectory d = true
  swap
  · rw [World.child, if_neg hdir]
    exact .inr (.inr ⟨hdir, rfl⟩)
  cases hfound : (w.children d).get? name with
  | some c =>
    rw [(World.child_eq_ok h).2 hfound]
    exact .inl ⟨c, hfound, rfl⟩
  | none =>
    have hfree : ∀ c, ¬w.Entry d name c := Option.eq_none_iff_forall_ne_some.1 hfound
    rw [World.child_of_free hdir hfree]
    refine .inr (.inl ?_)
    have hmakes := insert_gains h hd hv name (Mode.make Mode.directory 0o755) (.directory .empty)
      (w.node d).ops (Mode.typeBits_make _ _) rfl
      fun _ => .inl ((h.ram d hd).ops_of_isDirectory hdir)
    have hresult := result_insert h hd name (Mode.make Mode.directory 0o755)
      (.directory .empty) (w.node d).ops
    rw [if_pos hdir, NameMap.contains, hfound, hv] at hresult
    obtain ⟨hinserted, hgains⟩ := hmakes.2 _ hresult
    exact ⟨_, _, hdir, hinserted, hgains, congrArg (·, _) hresult⟩

/-- The induction is on the names, the directory changing with the world. -/
theorem descend_placed (htidy : w.Tidy) (hd : w.Live d) (hv : (w.node d).volume = v)
    {names : List String} (hwhole : ∀ name ∈ names, '/' ∉ name.toList) :
    w.Placed ((descend v d names).ended w).2 d names ((descend v d names).ended w).1 := by
  induction names generalizing w d with
  | nil => exact World.placed_error h htidy fun _ hne => absurd rfl hne
  | cons name rest ih =>
    cases hchecked : checkName name with
    | error refusal =>
      have hended : (descend v d (name :: rest)).ended w = (.error refusal, w) := by
        cases rest <;>
          exact ended_query_bind_error ((Query.result_ofResult _ w).trans hchecked)
      rw [hended]
      refine World.placed_error h htidy fun hvalid => ?_
      rw [hvalid name List.mem_cons_self] at hchecked
      cases hchecked
    | ok u =>
      have hname : IsEntryName name := ⟨hchecked, hwhole name List.mem_cons_self⟩
      have hgo := (Query.result_ofResult (checkName name) w).trans hchecked
      cases rest with
      | nil =>
        have hended : (descend v d [name]).ended w = (.ok (d, name), w) := ended_query_bind hgo
        rw [hended]
        refine ⟨h, htidy, .refl w d _, ?_, fun _ _ _ => .inl rfl, nofun⟩
        rintro _ _ ⟨⟩
        exact ⟨[], rfl, rfl, hname⟩
      | cons next rest =>
        have hrest : ∀ a ∈ next :: rest, '/' ∉ a.toList := fun a ha =>
          hwhole a (List.mem_cons_of_mem _ ha)
        rw [descend, ended_query_bind hgo, ended_bind]
        rcases ensureDirectory_ends h hd hv hname with
          ⟨c, hentry, hended⟩ | ⟨c, w₁, hdir, hinserted, hgains, hended⟩ | ⟨hdir, hended⟩ <;>
          rw [hended]
        · exact (ih h htidy (h.linked.live _ _ _ hentry) ((h.volume_of_entry hentry).trans hv)
            hrest).there h hentry
        · have h₁ : w₁.WellFormed := (hinserted.edits h hname).wellFormed h
          exact (ih h₁ (hinserted.tidy h htidy) hgains.live ((hinserted.volume_eq h).trans hv)
            hrest).made h₁ hdir hgains
        · exact World.placed_error h htidy fun _ _ hvacant => hdir hvacant.1
        · nofun

end RamFs

end VirtualFs
