/-
Searching a directory for a number. The search looks at everything that is
listed below the directory, as deep as there are nodes, and a way down passes
no node twice; so it finds an entry whose node has the number if there is one,
and otherwise it ends without a find. It fails for nothing.

Within a volume a number is that of one node, and a node has one entry at
most, so the entry found is the only one.
-/
import VirtualFs.Proofs.DeviceEdits
import VirtualFs.Proofs.RawPaths

namespace VirtualFs

/-! ## Searches -/

/-- A search ends, with a find that satisfies `P` or, if `R` holds, without one. -/
def Query.Searches {β : Type} (q : Query (Option β)) (w : World) (P : β → Prop) (R : Prop) : Prop :=
  ∃ found, (q w).result = .ok found ∧ (∀ b, found = some b → P b) ∧ (found = none → R)

theorem Query.searches_none {β : Type} {w : World} {P : β → Prop} {R : Prop} (h : R) :
    (pure none : Query (Option β)).Searches w P R :=
  ⟨none, rfl, nofun, fun _ => h⟩

theorem Query.searches_some {β : Type} {w : World} {P : β → Prop} {R : Prop} {b : β} (h : P b) :
    (pure (some b) : Query (Option β)).Searches w P R := by
  refine ⟨some b, rfl, ?_, nofun⟩
  rintro _ ⟨⟩
  exact h

theorem RamFs.firstFound_searches {α β : Type} {w : World} {search : α → Query (Option β)}
    {l : List α} {P : β → Prop} {R : α → Prop} (hsearch : ∀ a ∈ l, (search a).Searches w P (R a)) :
    (firstFound search l).Searches w P (∀ a ∈ l, R a) := by
  induction l with
  | nil => exact Query.searches_none nofun
  | cons a rest ih =>
    obtain ⟨found, hfound, hsome, hnone⟩ := hsearch a (by simp)
    rw [firstFound, Query.Searches, Query.result_bind, hfound, Except.bind]
    cases found with
    | some b => exact Query.searches_some (hsome b rfl)
    | none =>
      obtain ⟨found', hfound', hsome', hnone'⟩ := ih fun b hb => hsearch b (by simp [hb])
      exact ⟨found', hfound', hsome', fun heq => List.forall_mem_cons.2 ⟨hnone rfl, hnone' heq⟩⟩

namespace World

/-- A directory at or below another one lists a node. -/
def ListsBelow (w : World) (top d : NodeId) (name : String) (c : NodeId) : Prop :=
  ∃ path, w.descend top path = .ok d ∧ w.Entry d name c

/-- Something with a number is listed at or below a directory, where it was found. -/
def FindsBelow (w : World) (ino : Nat) (top : NodeId) (found : NodeId × String) : Prop :=
  ∃ c, w.ListsBelow top found.1 found.2 c ∧ (w.node c).ino = ino

/-- Nothing with a number is listed in so many levels from a directory down. -/
def LacksWithin (w : World) (ino levels : Nat) (top : NodeId) : Prop :=
  ∀ path d name c, path.length < levels → w.descend top path = .ok d → w.Entry d name c →
    (w.node c).ino ≠ ino

variable {w : World} (h : w.WellFormed) {n d e c : NodeId} {path : List String} {name : String}

include h

/-! ## How deep a way down can go -/

/-- Every node on a way down but the first hangs in the one before. -/
theorem hangs_of_descend (hn : w.descend d path = .ok e) {i : Nat} (hi : i < path.length) :
    ∃ g, w.Hangs (w.up^[i] e) g := by
  induction path using List.reverseRecOn generalizing e i with
  | nil => exact absurd hi (Nat.not_lt_zero i)
  | append_singleton p name ih =>
    obtain ⟨f, hf, hchild⟩ := descend_concat_eq_ok.1 hn
    have hangs := h.hangs_of_entry ((child_eq_ok h).1 hchild)
    cases i with
    | zero => exact ⟨f, hangs⟩
    | succ i =>
      rw [Function.iterate_succ_apply, up_eq_of_hangs hangs]
      rw [List.length_append, List.length_singleton] at hi
      exact ih hf (Nat.lt_of_succ_lt_succ hi)

theorem iterate_up_of_descend (hn : w.descend d path = .ok e) : w.up^[path.length] e = d := by
  induction path using List.reverseRecOn generalizing e with
  | nil => exact (Except.ok.inj hn).symm
  | append_singleton p name ih =>
    obtain ⟨f, hf, hchild⟩ := descend_concat_eq_ok.1 hn
    have hangs := h.hangs_of_entry ((child_eq_ok h).1 hchild)
    rw [List.length_append, List.length_singleton, Function.iterate_succ_apply,
      up_eq_of_hangs hangs, ih hf]

/-- No way down is longer than there are nodes. -/
theorem length_lt_of_descend (hd : w.Live d) (hn : w.descend d path = .ok e) :
    path.length < w.nodes.size := by
  have he := live_of_descend h hd hn
  have hup := iterate_up_of_descend h hn
  obtain ⟨i, hi, hmeet⟩ := exists_iterate_lt h.linked.acc he ⟨_, hup⟩
  refine Nat.lt_of_le_of_lt (Nat.le_of_not_lt fun hlt => ?_) hi
  -- Where the way up meets its end early, it would have to stop.
  have hstop := up_eq_of_iterate_eq_iterate h.linked.acc he hlt (hmeet.trans hup.symm)
  obtain ⟨g, hangs⟩ := hangs_of_descend h hn hlt
  rw [up_eq_of_hangs hangs] at hstop
  subst hstop
  exact not_hangs_self (h.linked.acc _ (live_of_parent hangs.1)) hangs

/-! ## What a directory lists below -/

omit h in
theorem listsBelow_of_entry (hentry : w.Entry d name c) : w.ListsBelow d d name c :=
  ⟨[], rfl, hentry⟩

theorem ListsBelow.cons {a : String} {m : NodeId} (hentry : w.Entry n a m)
    (hbelow : w.ListsBelow m d name c) : w.ListsBelow n d name c := by
  obtain ⟨path, hpath, hlisted⟩ := hbelow
  refine ⟨a :: path, ?_, hlisted⟩
  rw [descend_cons, (child_eq_ok h).2 hentry]
  exact hpath

/-- What lies below a directory is listed by it or lies below what it lists. -/
theorem descend_cons_eq_ok {a : String} :
    w.descend n (a :: path) = .ok c ↔ ∃ m, w.Entry n a m ∧ w.descend m path = .ok c := by
  rw [descend_cons]
  cases hchild : w.child n a with
  | error e =>
    refine ⟨nofun, fun ⟨m, hentry, _⟩ => ?_⟩
    rw [(child_eq_ok h).2 hentry] at hchild
    cases hchild
  | ok m =>
    have hentry := (child_eq_ok h).1 hchild
    refine ⟨fun hpath => ⟨m, hentry, hpath⟩, fun ⟨m', hentry', hpath⟩ => ?_⟩
    obtain rfl : m' = m := Option.some.inj (hentry'.symm.trans hentry)
    exact hpath

/-- What is no directory leads nowhere and lists nothing. -/
theorem ListsBelow.isDirectory (hbelow : w.ListsBelow n d name c) : w.isDirectory n = true := by
  by_contra hn
  obtain ⟨path, hpath, hentry⟩ := hbelow
  have hbare := RamFs.not_entry_of_not_isDirectory h hn
  obtain rfl := eq_of_descend_bare h hbare hpath
  exact hbare name c hentry

theorem lacksWithin_of_not_isDirectory (hn : ¬w.isDirectory n = true) (ino levels : Nat) :
    w.LacksWithin ino levels n :=
  fun path _ _ _ _ hpath hentry => absurd (ListsBelow.isDirectory h ⟨path, hpath, hentry⟩) hn

/-- What is lacking is lacking in the directory and below all that it lists. -/
theorem lacksWithin_succ {ino levels : Nat}
    (hlisted : ∀ name m, w.Entry n name m → (w.node m).ino ≠ ino ∧ w.LacksWithin ino levels m) :
    w.LacksWithin ino (levels + 1) n := by
  intro path d name c hlt hpath hentry
  cases path with
  | nil =>
    obtain rfl : n = d := Except.ok.inj hpath
    exact (hlisted name c hentry).1
  | cons a path =>
    obtain ⟨m, hm, hpath⟩ := (descend_cons_eq_ok h).1 hpath
    exact (hlisted a m hm).2 path d name c (Nat.lt_of_succ_lt_succ hlt) hpath hentry

/-- All of it is on the volume of the directory. -/
theorem volume_of_descend (hn : w.descend d path = .ok e) :
    (w.node e).volume = (w.node d).volume := by
  induction path generalizing d with
  | nil => rw [← Except.ok.inj hn]
  | cons a path ih =>
    obtain ⟨m, hentry, hpath⟩ := (descend_cons_eq_ok h).1 hn
    exact (ih hpath).trans (h.volume_of_entry hentry)

/-- A number has one entry at most below a directory. -/
theorem listsBelow_unique {d' c' : NodeId} {name' : String} (hn : w.ListsBelow n d name c)
    (hn' : w.ListsBelow n d' name' c') (hino : (w.node c).ino = (w.node c').ino) :
    d = d' ∧ name = name' ∧ c = c' := by
  obtain ⟨path, hpath, hentry⟩ := hn
  obtain ⟨path', hpath', hentry'⟩ := hn'
  have hvolume : (w.node c).volume = (w.node c').volume := by
    rw [h.volume_of_entry hentry, h.volume_of_entry hentry', volume_of_descend h hpath,
      volume_of_descend h hpath']
  obtain rfl : c = c' := h.numbered.ino_inj c c' (h.linked.live _ _ _ hentry)
    (h.linked.live _ _ _ hentry') hvolume hino
  obtain ⟨rfl, rfl⟩ := h.entry_unique hentry hentry'
  exact ⟨rfl, rfl, rfl⟩

end World

/-! ## The search -/

namespace RamFs

/-- What the search does at one entry. -/
def atEntry (ino levels : Nat) (dir : NodeId) (listed : String × NodeId) :
    Query (Option (NodeId × String)) := do
  let w ← Query.world
  if (w.node listed.2).ino = ino then pure (some (dir, listed.1))
  else if w.isDirectory listed.2 then findInoWithin ino levels listed.2
  else pure none

variable {w : World} (h : w.WellFormed) {d : NodeId} (ino : Nat)

include h

/-- A directory is searched entry by entry. -/
theorem findInoWithin_succ (levels : Nat) (hdir : w.isDirectory d = true) :
    (findInoWithin ino (levels + 1) d w).result =
      (firstFound (atEntry ino levels d) (w.children d).entries w).result := by
  rw [findInoWithin, Query.result_bind, childrenOf_result h hdir]
  rfl

/-- At one entry the search misses nothing if it misses nothing below it. -/
theorem entry_searches {levels : Nat} {name : String} {child : NodeId}
    (hentry : w.Entry d name child)
    (hbelow : w.isDirectory child = true → (findInoWithin ino levels child).Searches w
      (w.FindsBelow ino child) (w.LacksWithin ino levels child)) :
    (atEntry ino levels d (name, child)).Searches w (w.FindsBelow ino d)
      ((w.node child).ino ≠ ino ∧ w.LacksWithin ino levels child) := by
  rw [Query.Searches, atEntry, Query.world_bind]
  split
  · next hino => exact Query.searches_some ⟨child, World.listsBelow_of_entry hentry, hino⟩
  next hino =>
  split
  · next hchild =>
    obtain ⟨found, hfound, hsome, hnone⟩ := hbelow hchild
    refine ⟨found, hfound, fun b hb => ?_, fun heq => ⟨hino, hnone heq⟩⟩
    obtain ⟨c, hlists, hc⟩ := hsome b hb
    exact ⟨c, hlists.cons h hentry, hc⟩
  · next hchild =>
    exact Query.searches_none ⟨hino, World.lacksWithin_of_not_isDirectory h hchild ino levels⟩

/-- As many levels down as it goes, the search misses nothing. The induction is on the levels. -/
theorem findInoWithin_searches (levels : Nat) (hdir : w.isDirectory d = true) :
    (findInoWithin ino levels d).Searches w (w.FindsBelow ino d) (w.LacksWithin ino levels d) := by
  induction levels generalizing d with
  | zero => exact Query.searches_none fun _ _ _ _ hlt => absurd hlt (Nat.not_lt_zero _)
  | succ levels ih =>
    obtain ⟨found, hfound, hsome, hnone⟩ := firstFound_searches
      fun (listed : String × NodeId) (hmem : listed ∈ (w.children d).entries) =>
        entry_searches h ino (NameMap.mem_entries.1 hmem) ih
    refine ⟨found, ?_, hsome, fun heq => World.lacksWithin_succ h fun name m hentry =>
      hnone heq (name, m) (NameMap.mem_entries.2 hentry)⟩
    rw [findInoWithin_succ h ino levels hdir]
    exact hfound

theorem findIno_searches (hdir : w.isDirectory d = true) :
    (findIno d ino).Searches w (w.FindsBelow ino d)
      (∀ e name c, w.ListsBelow d e name c → (w.node c).ino ≠ ino) := by
  obtain ⟨found, hfound, hsome, hnone⟩ := findInoWithin_searches h ino w.nodes.size hdir
  refine ⟨found, ?_, hsome, fun heq e name c ⟨path, hpath, hentry⟩ => ?_⟩
  · rw [findIno, Query.look_bind]
    exact hfound
  · exact hnone heq path e name c
      (World.length_lt_of_descend h (World.live_of_isDirectory hdir) hpath) hpath hentry

omit h in
/-- What is no directory cannot be searched. -/
theorem findIno_of_not_isDirectory (hram : (w.node d).IsRam) (hdir : ¬w.isDirectory d = true)
    (found : NodeId × String) : (findIno d ino w).result ≠ .ok (some found) := by
  rw [findIno, Query.look_bind]
  cases w.nodes.size with
  | zero => nofun
  | succ levels =>
    rw [findInoWithin, Query.result_bind, childrenOf_apply hram, if_neg hdir]
    nofun

/-- Searching for a number finds what is listed with it. -/
theorem findIno_result (hd : w.Live d) {found : NodeId × String} :
    (findIno d ino w).result = .ok (some found) ↔ w.FindsBelow ino d found := by
  by_cases hdir : w.isDirectory d = true
  · obtain ⟨r, hr, hsome, hnone⟩ := findIno_searches h ino hdir
    rw [hr, Except.ok.injEq]
    refine ⟨hsome found, fun ⟨c, hlists, hino⟩ => ?_⟩
    cases r with
    | none => exact absurd hino (hnone rfl _ _ _ hlists)
    | some other =>
      obtain ⟨c', hlists', hino'⟩ := hsome other rfl
      obtain ⟨hdir, hname, -⟩ := World.listsBelow_unique h hlists' hlists (hino'.trans hino.symm)
      rw [Prod.ext hdir hname]
  · exact ⟨fun hfound => absurd hfound (findIno_of_not_isDirectory ino (h.ram d hd) hdir found),
      fun ⟨_, hlists, _⟩ => absurd (hlists.isDirectory h) hdir⟩

end RamFs

/-! ## Below the device directory -/

namespace World

/-- Follows names down from the device directory of the root volume. -/
def deviceWalk (w : World) (names : List String) : Except Error NodeId :=
  w.descend w.rootNode (deviceDir :: names)

/-- Somewhere below the device directory the node with a number is listed. -/
def DeviceEntry (w : World) (ino : Nat) (d : NodeId) (name : String) (c : NodeId) : Prop :=
  (∃ path, w.deviceWalk path = .ok d) ∧ w.Entry d name c ∧ (w.node c).ino = ino

variable {w : World} {dev d : NodeId} {path : List String}

theorem deviceWalk_nil (w : World) : w.deviceWalk [] = w.child w.rootNode deviceDir := by
  rw [deviceWalk, descend_cons]
  cases w.child w.rootNode deviceDir <;> rfl

theorem deviceWalk_of_ok (hdev : w.deviceWalk [] = .ok dev) (path : List String) :
    w.deviceWalk path = w.descend dev path := by
  rw [deviceWalk_nil] at hdev
  rw [deviceWalk, descend_cons, hdev]
  rfl

theorem deviceEntry_iff (hdev : w.deviceWalk [] = .ok dev) {ino : Nat} {name : String}
    {c : NodeId} : w.DeviceEntry ino d name c ↔
      w.ListsBelow dev d name c ∧ (w.node c).ino = ino := by
  rw [DeviceEntry, ListsBelow, ← and_assoc, exists_and_right]
  simp only [deviceWalk_of_ok hdev]

/-- Nothing is below the device directory if there is none. -/
theorem exists_of_deviceWalk (hd : w.deviceWalk path = .ok d) :
    ∃ dev, w.deviceWalk [] = .ok dev := by
  rw [deviceWalk, descend_cons] at hd
  rw [deviceWalk_nil]
  cases hdev : w.child w.rootNode deviceDir with
  | error e =>
    rw [hdev] at hd
    cases hd
  | ok dev => exact ⟨dev, rfl⟩

variable (h : w.WellFormed)

include h

theorem live_of_deviceWalk (hd : w.deviceWalk path = .ok d) : w.Live d :=
  live_of_descend h h.live_root hd

theorem volume_of_deviceWalk (hd : w.deviceWalk path = .ok d) :
    (w.node d).volume = w.rootVolume :=
  (volume_of_descend h hd).trans h.volume_rootNode

theorem DeviceEntry.unique {ino : Nat} {d d' c c' : NodeId} {name name' : String}
    (hentry : w.DeviceEntry ino d name c) (hentry' : w.DeviceEntry ino d' name' c') :
    d = d' ∧ name = name' ∧ c = c' := by
  obtain ⟨⟨path, hpath⟩, hlisted, hino⟩ := hentry
  obtain ⟨⟨path', hpath'⟩, hlisted', hino'⟩ := hentry'
  exact listsBelow_unique h ⟨_, hpath, hlisted⟩ ⟨_, hpath', hlisted'⟩ (hino.trans hino'.symm)

end World

namespace RamFs

variable {w : World} (h : w.WellFormed)

include h

theorem deviceDirectory_result :
    (deviceDirectory w.rootVolume w).result = w.deviceWalk [] := by
  rw [deviceDirectory, Query.look_bind, World.deviceWalk_nil]
  exact lookup_result h h.live_root (by decide) (by decide)

/-- A device is looked for by its number alone, in all that is below the device directory. -/
theorem findDevice_result (ino : Nat) {d : NodeId} {name : String} :
    (findDevice w.rootVolume ino w).result = .ok (d, name) ↔ ∃ c, w.DeviceEntry ino d name c := by
  rw [findDevice, Query.result_bind, deviceDirectory_result h]
  cases hdev : w.deviceWalk [] with
  | error e =>
    refine ⟨nofun, fun ⟨c, ⟨path, hpath⟩, _⟩ => ?_⟩
    obtain ⟨dev, hdev'⟩ := World.exists_of_deviceWalk hpath
    cases hdev.symm.trans hdev'
  | ok dev =>
    have hlive := World.live_of_deviceWalk h hdev
    rw [Except.bind, Query.result_bind_eq_ok]
    constructor
    · rintro ⟨found, hfound, hexpected⟩
      rw [Query.result_expect_eq_ok.1 hexpected] at hfound
      obtain ⟨c, hlists⟩ := (findIno_result h ino hlive).1 hfound
      exact ⟨c, (World.deviceEntry_iff hdev).2 hlists⟩
    · rintro ⟨c, hdevice⟩
      have hlists := (World.deviceEntry_iff hdev).1 hdevice
      exact ⟨some (d, name), (findIno_result h ino hlive).2 ⟨c, hlists⟩, rfl⟩

end RamFs

end VirtualFs
