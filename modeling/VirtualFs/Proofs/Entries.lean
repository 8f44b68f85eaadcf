/-
The entries of all directories as one set, and what a change to one name makes
of it: an entry is added, taken away, or moved to another name. Nodes apart from
their places in the trees (`Node.apart`) are no concern of such a change.

An entry is taken away together with a sweep. That sweep takes no other entry,
because the node that is let go of lists nothing, and everything else is still
referred to (`World.Tidy`).
-/
import VirtualFs.Proofs.Stranding
import Mathlib.Data.Set.Insert

namespace VirtualFs

/-! ## Nodes apart from the trees -/

/-- A content without what it lists. -/
def Content.apart : Content → Content
  | .directory _ => .directory .empty
  | content => content

/-- A node without what it lists and without the place it hangs in. -/
def Node.apart (node : Node) : Node :=
  node.mapRam fun ram => { ram with parent := none, content := ram.content.apart }

theorem Node.IsRam.apart_mapRam {node : Node} (h : node.IsRam) {f : RamNode → RamNode}
    (hf : { f node.ram with parent := none, content := (f node.ram).content.apart } =
      { node.ram with parent := none, content := node.ram.content.apart }) :
    (node.mapRam f).apart = node.apart := by
  rw [h.mapRam, Node.apart, Node.apart, h.mapRam]
  simp only [Node.mapRam, hf]

namespace World

variable {w w' : World} {n d c : NodeId} {name : String}

/-- What a directory lists is no part of it. -/
theorem apart_setChildren (h : w.WellFormed) (hdir : w.isDirectory d = true)
    (children : NameMap NodeId) (m : NodeId) :
    ((w.setChildren d children).node m).apart = (w.node m).apart := by
  have hlive := live_of_isDirectory hdir
  have hram := h.ram d hlive
  obtain ⟨old, hold⟩ := Content.type_eq_directory.1 (hram.type.symm.trans (beq_iff_eq.1 hdir))
  refine view_setNode Node.apart hlive (hram.apart_mapRam ?_) m
  simp only [hold, Content.apart]

/-- Nor is the place it hangs in. -/
theorem apart_setParent (n d m : NodeId) : ((w.setParent n d).node m).apart = (w.node m).apart := by
  refine view_setNode_of Node.apart (fun node => ?_) m
  obtain ⟨ino, volumeId, volume, driver, ops, mode, mountRoot, _ | _⟩ := node <;> rfl

/-! ## Entries -/

/-- The entries of all directories. -/
def entries (w : World) : Set (NodeId × String × NodeId) := {e | w.Entry e.1 e.2.1 e.2.2}

theorem mem_entries : (d, name, c) ∈ w.entries ↔ w.Entry d name c := Iff.rfl

/-- Every node that was there is there still, one apart that may be gone, and is what it was apart
from its place in the trees. -/
structure CarriesOver (w w' : World) (lost : NodeId → Prop) : Prop where
  live : ∀ n, w.Live n → w'.Live n ∨ lost n
  apart : ∀ n, w.Live n → w'.Live n → (w'.node n).apart = (w.node n).apart

/-- A directory lists a new node under a name that was free, of some mode and with some content. -/
structure Gains (w w' : World) (d : NodeId) (name : String) (c : NodeId) (mode : UInt32)
    (content : Content) : Prop where
  free : ∀ x, (d, name, x) ∉ w.entries
  fresh : ¬w.Live c
  live : w'.Live c
  mode : (w'.node c).mode = mode
  content : w'.content c = content
  entries : w'.entries = insert (d, name, c) w.entries
  nodes : w.CarriesOver w' fun _ => False

/-- A directory lists a node no more. -/
structure Loses (w w' : World) (d : NodeId) (name : String) (c : NodeId) : Prop where
  entry : (d, name, c) ∈ w.entries
  entries : w'.entries = w.entries \ {(d, name, c)}
  nodes : w.CarriesOver w' (· = c)

/-- The entry of a node has become another one, in the place of what gave way to it. -/
structure Shifts (w w' : World) (oldDir : NodeId) (oldName : String) (d : NodeId) (name : String)
    (c : NodeId) : Prop where
  entry : (oldDir, oldName, c) ∈ w.entries
  plain : (w.node c).mountRoot = none
  gives : ∀ t, (d, name, t) ∈ w.entries → w.GivesWay t c
  entries : w'.entries = insert (d, name, c)
    (w.entries \ {e | e = (oldDir, oldName, c) ∨ e.1 = d ∧ e.2.1 = name})
  nodes : w.CarriesOver w' fun t => (d, name, t) ∈ w.entries

/-! ## Worlds with the same nodes -/

theorem entries_congr (hnodes : w'.nodes = w.nodes) : w'.entries = w.entries := by
  ext ⟨e, a, x⟩
  rw [mem_entries, mem_entries, Entry, Entry, World.children, World.children, World.node,
    World.node, hnodes]

theorem CarriesOver.congr {v v' : World} {lost : NodeId → Prop} (h : w.CarriesOver w' lost)
    (hnodes : v.nodes = w.nodes) (hnodes' : v'.nodes = w'.nodes) : v.CarriesOver v' lost where
  live n hn := by
    rw [Live, hnodes] at hn
    rw [Live, hnodes']
    exact h.live n hn
  apart n hn hn' := by
    rw [Live, hnodes] at hn
    rw [Live, hnodes'] at hn'
    rw [World.node, World.node, hnodes, hnodes']
    exact h.apart n hn hn'

theorem Gains.congr {v v' : World} {mode : UInt32} {content : Content}
    (h : w.Gains w' d name c mode content) (hnodes : v.nodes = w.nodes)
    (hnodes' : v'.nodes = w'.nodes) : v.Gains v' d name c mode content where
  free x := by
    rw [entries_congr hnodes]
    exact h.free x
  fresh := by
    rw [Live, hnodes]
    exact h.fresh
  live := by
    rw [Live, hnodes']
    exact h.live
  mode := by
    rw [World.node, hnodes']
    exact h.mode
  content := by
    rw [World.content, World.node, hnodes']
    exact h.content
  entries := by rw [entries_congr hnodes, entries_congr hnodes', h.entries]
  nodes := h.nodes.congr hnodes hnodes'

/-! ## Making nodes -/

variable (h : w.WellFormed)

include h

theorem Inserted.gains {mode : UInt32} {content : Content} (hinserted : w.Inserted d name n w')
    (hmode : (w'.node w.nodes.nextKey).mode = mode)
    (hcontent : w'.content w.nodes.nextKey = content) : w.Gains w' d name n mode content where
  free x := hinserted.free x
  fresh := fun hlive => Nat.lt_irrefl _ (hinserted.eq_nextKey ▸ hlive.lt)
  live := hinserted.live h
  mode := hinserted.eq_nextKey ▸ hmode
  content := hinserted.eq_nextKey ▸ hcontent
  entries := by
    ext ⟨e, a, x⟩
    rw [mem_entries, hinserted.entry_iff h, Set.mem_insert_iff, Prod.mk.injEq, Prod.mk.injEq,
      or_comm, mem_entries]
  nodes :=
    { live := fun m hm => .inl ((hinserted.live_iff h).2 (.inl hm))
      apart := fun m hm _ => by
        have hdir := hinserted.isDirectory
        have hsame := apart_setChildren h hdir ((w.children d).insert name n) m
        rw [World.setChildren, node_setNode (live_of_isDirectory hdir)] at hsame
        rw [hinserted.node_eq h hm]
        exact hsame }

/-! ## Sweeping up -/

omit h in
/-- A change that leaves one node unlisted at most, which lists nothing and carries no volume: what
is swept up after it is that node, and no entry. -/
theorem entries_settle (htidy : w.Tidy) (hlive : ∀ m, w'.Live m ↔ w.Live m)
    (hroots : w.KeepsRoots w') (hmount : ∀ p, (w'.node p).mountRoot = (w.node p).mountRoot)
    (hapart : ∀ m, (w'.node m).apart = (w.node m).apart)
    (houtside : w'.files = w.files ∧ w'.contexts = w.contexts ∧ w'.pins = w.pins)
    (hlisted : ∀ e a m, w.Entry e a m → m ≠ c → ∃ e' a', w'.Entry e' a' m)
    (hbare : ∀ a x, ¬w'.Entry c a x) (hplain : (w.node c).mountRoot = none) :
    w'.settle.entries = w'.entries ∧ w.CarriesOver w'.settle (· = c) := by
  have hrest : ∀ m, w'.Live m → m ≠ c → w'.Refers m := fun m hm hne =>
    (htidy m ((hlive m).1 hm)).keep hroots (fun e a he => hlisted e a m he hne)
      (fun p hr => (hmount p).trans hr) houtside.1 houtside.2.1 houtside.2.2
  have hplain' := (hmount c).trans hplain
  refine ⟨?_, fun m hm => ?_, fun m hm hm' => ?_⟩
  · ext ⟨e, a, x⟩
    exact entry_settle hrest hbare hplain'
  · by_cases hc : m = c
    · exact .inr hc
    · exact .inl ((live_settle hrest hbare hplain').2
        ⟨(hlive m).2 hm, fun heq => absurd heq hc⟩)
  · rw [(node_settle hm').2, hapart]

variable (htidy : w.Tidy)

include htidy

/-! ## Taking entries away -/

theorem Removed.loses (hremoved : w.Removed d name w')
    (hplain : ∀ c, w.Entry d name c → (w.node c).mountRoot = none) :
    ∃ c, (∀ a x, ¬w.Entry c a x) ∧ w.Loses w' d name c := by
  cases hremoved with
  | @mk c hentry hbare =>
    have hdir := h.isDirectory_of_entry hentry
    have hlisted : ∀ {e a x}, (w.setChildren d ((w.children d).erase name)).Entry e a x ↔
        ¬(e = d ∧ a = name) ∧ w.Entry e a x := entry_unlisted h hdir
    have hsame : ∀ {x}, w.Entry d name x → x = c := fun hx =>
      Option.some.inj (hx.symm.trans hentry)
    have hsettled : (w.setChildren d ((w.children d).erase name)).settle.entries =
          (w.setChildren d ((w.children d).erase name)).entries ∧
        w.CarriesOver (w.setChildren d ((w.children d).erase name)).settle (· = c) :=
      entries_settle htidy (fun _ => live_setNode) (.of_volumes rfl)
        (view_setNode_of Node.mountRoot (Node.mountRoot_mapRam _))
        (apart_setChildren h hdir ((w.children d).erase name)) ⟨rfl, rfl, rfl⟩
        (fun e a m he hne => ⟨e, a, hlisted.2 ⟨fun ⟨hd, ha⟩ => hne (hsame (hd ▸ ha ▸ he)), he⟩⟩)
        (fun a x he => hbare a x (hlisted.1 he).2) (hplain c hentry)
    obtain ⟨hentries, hnodes⟩ := hsettled
    refine ⟨c, hbare, hentry, hentries.trans ?_, hnodes⟩
    ext ⟨e, a, x⟩
    rw [mem_entries, hlisted, Set.mem_sdiff, mem_entries, Set.mem_singleton_iff, Prod.mk.injEq,
      Prod.mk.injEq, and_comm]
    refine and_congr_right fun he => not_congr ⟨?_, fun ⟨heq, ha, _⟩ => ⟨heq, ha⟩⟩
    rintro ⟨rfl, rfl⟩
    exact ⟨rfl, rfl, hsame he⟩

/-! ## Moving entries -/

section

variable {oldDir : NodeId} {oldName : String} (hentry : w.Entry oldDir oldName n)
  (hdir : w.isDirectory d = true)

include hentry hdir

omit htidy in
theorem apart_relinked (m : NodeId) :
    ((w.relinked n oldDir oldName d name).node m).apart = (w.node m).apart := by
  have hold := h.isDirectory_of_entry hentry
  have hedit : w.Edit (w.setChildren oldDir ((w.children oldDir).erase oldName)) := .unlisted hold
  have hdir' := ((alike_setChildren h hold ((w.children oldDir).erase oldName)).isDirectory
    d).trans hdir
  rw [relinked, apart_setParent, apart_setChildren (hedit.wellFormed h) hdir',
    apart_setChildren h hold]

omit htidy in
/-- A node that is moved leaves its old entry and takes the place of what stood in the new one. -/
theorem entries_relinked : (w.relinked n oldDir oldName d name).entries = insert (d, name, n)
    (w.entries \ {e | e = (oldDir, oldName, n) ∨ e.1 = d ∧ e.2.1 = name}) := by
  ext ⟨e, a, x⟩
  rw [mem_entries, entry_relinked h hentry hdir, Set.mem_insert_iff, Set.mem_sdiff, mem_entries,
    Set.mem_ofPred_eq]
  by_cases hnew : e = d ∧ a = name
  · simp [hnew]
  · have hmoved : (e, a, x) ≠ (d, name, n) := fun heq => by
      cases heq
      exact hnew ⟨rfl, rfl⟩
    rw [if_neg hnew, and_comm, or_iff_right hmoved]
    refine and_congr_right fun he => not_congr ⟨?_, ?_⟩
    · rintro ⟨rfl, rfl⟩
      exact .inl (by rw [Option.some.inj (he.symm.trans hentry)])
    · rintro (heq | hat)
      · cases heq
        exact ⟨rfl, rfl⟩
      · exact absurd hat hnew

/-- The node that may be let go of is the one that was replaced, if there was any. -/
theorem entries_moved (hc : ∀ t, w.Entry d name t → t = c) (hne : c ≠ d)
    (hbare : ∀ a x, ¬w.Entry c a x) (hplain : (w.node c).mountRoot = none) :
    (w.relinked n oldDir oldName d name).settle.entries = insert (d, name, n)
        (w.entries \ {e | e = (oldDir, oldName, n) ∨ e.1 = d ∧ e.2.1 = name}) ∧
      w.CarriesOver (w.relinked n oldDir oldName d name).settle (· = c) := by
  have hlive : ∀ m, (w.relinked n oldDir oldName d name).Live m ↔ w.Live m := fun m => by
    rw [relinked, setParent, live_setNode, World.setChildren, live_setNode, World.setChildren,
      live_setNode]
  have hrelisted : ∀ e a m, w.Entry e a m → m ≠ c →
      ∃ e' a', (w.relinked n oldDir oldName d name).Entry e' a' m := by
    intro e a m he hm
    by_cases hold : e = oldDir ∧ a = oldName
    · obtain ⟨rfl, rfl⟩ := hold
      obtain rfl : m = n := Option.some.inj (he.symm.trans hentry)
      exact ⟨d, name, entry_relinked_target h hentry hdir⟩
    · refine ⟨e, a, entry_relinked_of h hentry hdir he ?_ hold⟩
      rintro ⟨rfl, rfl⟩
      exact hm (hc m he)
  have hbare' : ∀ a x, ¬(w.relinked n oldDir oldName d name).Entry c a x := by
    intro a x he
    rw [entry_relinked h hentry hdir, if_neg fun hat => hne hat.1] at he
    exact hbare a x he.2
  obtain ⟨hentries, hnodes⟩ := entries_settle htidy hlive (.of_volumes rfl)
    (mountRoot_relinked oldDir oldName d name) (apart_relinked h hentry hdir) ⟨rfl, rfl, rfl⟩
    hrelisted hbare' hplain
  exact ⟨hentries.trans (entries_relinked h hentry hdir), hnodes⟩

end

/-- A rename does nothing to a node that is there already, or moves the entry. -/
theorem Renamed.shifts {oldDir : NodeId} {oldName : String}
    (hrenamed : w.Renamed oldDir oldName d name w')
    (hchecked : ∀ n, w.Entry oldDir oldName n → (w.node n).mountRoot = none ∧
      ∀ t, w.Entry d name t → (t = n → w' = w) ∧ (t ≠ n → w.GivesWay t n)) :
    ∃ c, (oldDir, oldName, c) ∈ w.entries ∧ ((d, name, c) ∈ w.entries → w' = w) ∧
      ((d, name, c) ∉ w.entries → w.Shifts w' oldDir oldName d name c) := by
  obtain ⟨c, hentry⟩ := hrenamed.source
  obtain ⟨hplain, htarget⟩ := hchecked c hentry
  refine ⟨c, hentry, fun hself => (htarget c hself).1 rfl, fun hself => ?_⟩
  have hgives : ∀ t, w.Entry d name t → w.GivesWay t c := fun t ht =>
    (htarget t ht).2 fun heq => hself (heq ▸ ht)
  clear htarget hchecked
  cases hrenamed with
  | @same n hn hn' =>
    obtain rfl : n = c := Option.some.inj (hn.symm.trans hentry)
    exact absurd hn' hself
  | @moved n hn hdir =>
    obtain rfl : n = c := Option.some.inj (hn.symm.trans hentry)
    by_cases hreplaced : ∃ t, w.Entry d name t
    · obtain ⟨t, ht⟩ := hreplaced
      have hsame : ∀ t', w.Entry d name t' → t' = t := fun t' ht' =>
        Option.some.inj (ht'.symm.trans ht)
      have hne : t ≠ d := by
        rintro rfl
        exact (hgives _ ht).bare _ _ ht
      obtain ⟨hentries, hnodes⟩ := entries_moved h htidy hentry hdir hsame hne (hgives t ht).bare
        (hgives t ht).plain
      exact ⟨hentry, hplain, hgives, hentries, fun m hm => (hnodes.live m hm).imp_right
        fun (heq : m = t) => heq ▸ ht, hnodes.apart⟩
    · -- Nothing is let go of; a node that is yet to be made stands for it.
      have hnone : w.node w.nodes.nextKey = default :=
        node_of_not_live fun hlive => Nat.lt_irrefl _ hlive.lt
      obtain ⟨hentries, hnodes⟩ := entries_moved (c := w.nodes.nextKey) h htidy hentry hdir
        (fun t ht => absurd ⟨t, ht⟩ hreplaced) (Nat.ne_of_gt (live_of_isDirectory hdir).lt)
        (fun a x he => Nat.lt_irrefl _ he.live.lt) (by rw [hnone]; rfl)
      exact ⟨hentry, hplain, hgives, hentries, fun m hm => (hnodes.live m hm).imp_right
        fun heq => absurd heq (Nat.ne_of_lt hm.lt), hnodes.apart⟩

end World

end VirtualFs
