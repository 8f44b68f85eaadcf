/-
What the calls for devices do to the trees, and what they leave when they fail.

Publishing and moving make the directories that are missing on the way before
the device gets its place. A name on the way may be refused after that, and a
directory that is moved like a device may carry a volume or be above its new
place; then the directories stay. In all other cases a call that fails has
changed nothing.
-/
import VirtualFs.Proofs.DevicePaths

namespace VirtualFs

open VirtualFs.Action (ended_bind ended_query_bind ended_query_bind_error ended_ask_bind
  ended_note_bind)

/-- An action that leaves nothing behind when it fails has two ends. -/
theorem Action.FailsTo.ended_cases {ε α : Type} {x : Action ε α} {w : World}
    {Q : α → World → Prop} (hx : x.FailsTo w w Q) :
    (∃ e, x.ended w = (.error e, w)) ∨ ∃ a w', x.ended w = (.ok a, w') ∧ Q a w' := by
  cases hresult : (x w).result with
  | error e => exact .inl ⟨e, Prod.ext hresult (hx.1 e hresult)⟩
  | ok a => exact .inr ⟨a, (x w).world, Prod.ext hresult rfl, hx.2 a hresult⟩

theorem Node.volume_apart (node : Node) : node.apart.volume = node.volume := by
  rw [Node.apart, Node.mapRam]
  split <;> rfl

namespace World

/-- A call for a device has failed. Nothing has changed; or if there is a cause for it, the
directories on the way to the device have been made, or some of them. -/
def Abandons (w w' : World) (names : List String) (cause : Prop) : Prop :=
  w' = w ∨ cause ∧ ∃ dev, w.deviceWalk [] = .ok dev ∧ w.Paves w' dev names.dropLast

/-- How publishing a device ends. -/
def Publishes (w w' : World) (names : List String) : Except Error Nat → Prop
  | .ok ino => ∃ dev front name d n w₁, w.deviceWalk [] = .ok dev ∧ names = front ++ [name] ∧
      w.Paves w₁ dev front ∧ w₁.deviceWalk front = .ok d ∧
      w₁.Gains w' d name n (Mode.make Mode.character 0o666) .device ∧
      w'.deviceWalk names = .ok n ∧ (w'.node n).ino = ino
  | .error _ => w.Abandons w' names (∃ name ∈ names, checkName name ≠ .ok ())

/-- How moving what has a number ends. -/
def Transfers (w w' : World) (ino : Nat) (names : List String) : Except Error Unit → Prop
  | .ok () => ∃ dev front name d oldDir oldName c w₁, w.deviceWalk [] = .ok dev ∧
      names = front ++ [name] ∧ w.Paves w₁ dev front ∧ w₁.deviceWalk front = .ok d ∧
      w.DeviceEntry ino oldDir oldName c ∧ w'.deviceWalk names = .ok c ∧
      (w' = w ∨ w₁.Shifts w' oldDir oldName d name c)
  | .error _ => w.Abandons w' names ((∃ name ∈ names, checkName name ≠ .ok ()) ∨
      ∃ d name c, w.DeviceEntry ino d name c ∧ w.isDirectory c = true)

variable {w w' : World} {dev d : NodeId} {names path : List String}

theorem Paves.rootVolume (h : w.WellFormed) (h' : w'.WellFormed) (hpaves : w.Paves w' dev names) :
    w'.rootVolume = w.rootVolume := by
  have hroot : w'.rootNode = w.rootNode := h'.rooted.rootNode.trans h.rooted.rootNode.symm
  have hsame := hpaves.nodes.apart w.rootNode h.live_root (hroot ▸ h'.live_root)
  rw [← h'.volume_rootNode, hroot, ← Node.volume_apart, hsame, Node.volume_apart,
    h.volume_rootNode]

/-- What is below the device directory stays there as long as no entry goes. -/
theorem deviceWalk_kept (h : w.WellFormed) (h' : w'.WellFormed) (hkept : w.entries ⊆ w'.entries)
    (hd : w.deviceWalk path = .ok d) : w'.deviceWalk path = .ok d := by
  rw [deviceWalk, h'.rooted.rootNode, ← h.rooted.rootNode]
  exact descend_kept h h' hkept hd

theorem deviceWalk_concat (h : w.WellFormed) (hd : w.deviceWalk path = .ok d) {name : String}
    {c : NodeId} (hentry : w.Entry d name c) : w.deviceWalk (path ++ [name]) = .ok c :=
  (descend_concat_eq_ok (p := deviceDir :: path)).2 ⟨d, hd, (child_eq_ok h).2 hentry⟩

/-- The directory that a node is moved to stays where it is below the device directory. -/
theorem Shifts.deviceWalk_target {oldDir s : NodeId} {oldName name : String} (h : w.WellFormed)
    (h' : w'.WellFormed) (hvolumes : w'.volumes = w.volumes)
    (hshifts : w.Shifts w' oldDir oldName d name s) {oldPath : List String}
    (hold : w.deviceWalk oldPath = .ok oldDir) (hd : w.deviceWalk path = .ok d)
    (habove : ¬w.Above s d) : w'.deviceWalk path = .ok d := by
  have hwalk := hshifts.rawWalk_target h h' hvolumes h.rooted.rootVolume hold hd habove
  have hroot : (w'.volume w.rootVolume).root = w'.rootNode := by
    rw [World.volume, hvolumes]
    exact h.rooted.rootNode.trans h'.rooted.rootNode.symm
  rwa [World.rawWalk, hroot] at hwalk

end World

namespace RamFs

variable {w : World} (h : w.WellFormed)

include h

/-! ## The place of a device -/

/-- Without a device directory there is no place for a device. -/
theorem devicePlace_ends (htidy : w.Tidy) (path : String) :
    (∃ e, (devicePlace w.rootVolume path).ended w = (.error e, w)) ∨
      ∃ dev, w.deviceWalk [] = .ok dev ∧
        w.Placed ((devicePlace w.rootVolume path).ended w).2 dev (components path)
          ((devicePlace w.rootVolume path).ended w).1 := by
  have hroot := deviceDirectory_result h
  cases hdev : w.deviceWalk [] with
  | error e =>
    rw [hdev] at hroot
    exact .inl ⟨e, ended_query_bind_error hroot⟩
  | ok dev =>
    rw [hdev] at hroot
    rw [devicePlace, ended_query_bind hroot]
    exact .inr ⟨dev, rfl, descend_placed h htidy (World.live_of_deviceWalk h hdev)
      (World.volume_of_deviceWalk h hdev) fun _ => slash_notMem_of_mem_components⟩

end RamFs

namespace World

variable {w w' : World} {dev : NodeId} {names : List String}

theorem Abandons.imp {cause cause' : Prop} (habandons : w.Abandons w' names cause)
    (himp : cause → cause') : w.Abandons w' names cause' :=
  habandons.imp_right fun ⟨hcause, hpaved⟩ => ⟨himp hcause, hpaved⟩

namespace Placed

variable {r : Except Error (NodeId × String)} (hdev : w.deviceWalk [] = .ok dev)
  (hplaced : w.Placed w' dev names r)

include hdev hplaced

/-- Where there is no place for a device, a name is to blame for what stays. -/
theorem abandons {e : Error} (hr : r = .error e) :
    w.Abandons w' names (∃ name ∈ names, checkName name ≠ .ok ()) := by
  by_cases hvalid : ∀ name ∈ names, checkName name = .ok ()
  · exact .inl (hplaced.undone e hr hvalid).1
  · refine .inr ⟨?_, dev, hdev, hplaced.paves⟩
    simpa only [not_forall, exists_prop] using hvalid

/-- Where the place of a device is. -/
theorem found (h : w.WellFormed) {d : NodeId} {name : String} (hr : r = .ok (d, name)) :
    ∃ front, names = front ++ [name] ∧ w.Paves w' dev front ∧ w'.deviceWalk front = .ok d ∧
      IsEntryName name := by
  obtain ⟨front, rfl, hfront, hname⟩ := hplaced.place d name hr
  have hdev' := deviceWalk_kept h hplaced.wellFormed hplaced.paves.kept hdev
  have hpaves := hplaced.paves
  rw [List.dropLast_concat] at hpaves
  exact ⟨front, rfl, hpaves, (deviceWalk_of_ok hdev' front).trans hfront, hname⟩

end Placed

end World

section

variable {w : World} (h : w.WellFormed)

include h

/-! ## Renames to the place of a device -/

/-- Nothing keeps a node that is no directory from being moved into an empty one. -/
theorem RamFs.rename_vacant {oldDir d c : NodeId} {oldName name : String}
    (hentry : w.Entry oldDir oldName c) (hplain : w.isDirectory c = false) (hd : w.Vacant d)
    (hname : IsEntryName name) :
    (rename (w.node d).volume oldDir oldName d name false w).result = .ok () := by
  have hold_name := h.linked.name _ _ _ hentry
  have hlive := World.live_of_isDirectory hd.1
  obtain ⟨ino, hnext⟩ := nextInoOf_result h hlive
  have hfound : (lookup oldDir oldName w).result = .ok c := by
    rw [lookup_result h hentry.live hold_name.ne_dot hold_name.ne_dots,
      (World.child_eq_ok h).2 hentry]
  have hmissing : (Query.attempt (lookup d name) w).result = .ok (.error .notFound) := by
    rw [Query.result_attempt, lookup_result h hlive hname.ne_dot hname.ne_dots,
      World.child_of_free hd.1 (hd.2 name)]
  have hcloses : (closesCycle c d w).result = .ok false := by
    rw [closesCycle, Query.look_bind, hplain]
    rfl
  rw [rename, Action.result_query_bind, hnext, Except.bind, Action.result_query_bind, hfound,
    Except.bind, Action.result_world_bind, Action.result_query_bind, Query.result_demand,
    if_pos (by simp), Except.bind, Action.result_query_bind, Query.result_demand,
    if_pos (by rw [h.mountRoot_of_not_isDirectory hplain]; rfl), Except.bind,
    Action.result_query_bind, hcloses, Except.bind, Action.result_query_bind, Query.result_demand,
    if_pos (by simp), Except.bind, Action.result_query_bind, hmissing, Except.bind]
  dsimp only
  rw [move_apply h (h.isDirectory_of_entry hentry) hd.1]

/-- A rename that is refused the place of a device has found it ready, or is that of a directory. -/
theorem World.Placed.rename_abandons {w₁ : World} {names : List String} {dev oldDir d c : NodeId}
    {oldName name : String} (hdev : w.deviceWalk [] = .ok dev)
    (hplaced : w.Placed w₁ dev names (.ok (d, name))) (hname : IsEntryName name)
    (hentry : w.Entry oldDir oldName c) {e : Error}
    (hrefused : (RamFs.rename (w₁.node d).volume oldDir oldName d name false w₁).result = .error e) :
    w.Abandons w₁ names (w.isDirectory c = true) := by
  have h₁ := hplaced.wellFormed
  have hentry₁ : w₁.Entry oldDir oldName c := hplaced.paves.entry hentry
  by_cases hcause : w.isDirectory c = true
  · exact .inr ⟨hcause, dev, hdev, hplaced.paves⟩
  · refine .inl ((hplaced.vacant d name rfl).resolve_right fun hvacant => ?_)
    have hplain : w₁.isDirectory c = false := by
      rw [hplaced.paves.nodes.isDirectory_eq (h.linked.live _ _ _ hentry)
        (h₁.linked.live _ _ _ hentry₁), Bool.eq_false_of_not_eq_true hcause]
    rw [RamFs.rename_vacant h₁ hentry₁ hplain hvacant hname] at hrefused
    cases hrefused

variable (htidy : w.Tidy)

include htidy

/-! ## Publishing -/

theorem RamFs.publishDevice_publishes (path : String) (ops : OpsKind) :
    w.Publishes ((publishDevice w.rootVolume path ops).ended w).2 (components path)
      ((publishDevice w.rootVolume path ops).ended w).1 := by
  rw [publishDevice, ended_bind]
  rcases devicePlace_ends h htidy path with ⟨e, hended⟩ | ⟨dev, hdev, hplaced⟩
  · rw [hended]
    exact .inl rfl
  rcases hended : (devicePlace w.rootVolume path).ended w with ⟨e | ⟨d, name⟩, w₁⟩ <;>
    rw [hended] at hplaced
  · exact hplaced.abandons hdev rfl
  obtain ⟨front, hnames, hpaves, hd, hname⟩ := hplaced.found hdev h rfl
  have h₁ := hplaced.wellFormed
  have hlive := World.live_of_deviceWalk h₁ hd
  have hvolume : w.rootVolume = (w₁.node d).volume :=
    (World.volume_of_deviceWalk h₁ hd).trans (hpaves.rootVolume h h₁) |>.symm
  dsimp only
  rw [ended_bind]
  have hinserts := insert_gains h₁ hlive hvolume.symm name (Mode.make Mode.character 0o666) .device
    (some ops) (Mode.typeBits_make _ _) rfl fun _ => .inr rfl
  rcases hinserts.ended_cases with ⟨e, hended⟩ | ⟨n, w', hended, hinserted, hgains⟩ <;> rw [hended]
  · -- A directory that has just been made takes any name.
    refine .inl ((hplaced.vacant d name rfl).resolve_right fun hvacant => ?_)
    have hresult := result_insert h₁ hlive name (Mode.make Mode.character 0o666) .device (some ops)
    rw [← hvolume, if_pos hvacant.1, NameMap.contains, Option.eq_none_iff_forall_ne_some.2
      (hvacant.2 name)] at hresult
    cases (congrArg Prod.fst hended).symm.trans hresult
  · have h' := (hinserted.edits h₁ hname).wellFormed h₁
    have hd' := World.deviceWalk_kept h₁ h' (hgains.entries ▸ Set.subset_insert _ _) hd
    exact ⟨dev, front, name, d, n, w₁, hdev, hnames, hpaves, hd, hgains,
      hnames ▸ World.deviceWalk_concat h' hd' hgains.entry_new, rfl⟩

/-! ## Moving -/

theorem RamFs.moveDevice_transfers (ino : Nat) (path : String) :
    w.Transfers ((moveDevice w.rootVolume ino path).ended w).2 ino (components path)
      ((moveDevice w.rootVolume ino path).ended w).1 := by
  rw [moveDevice]
  cases hfound : (findDevice w.rootVolume ino w).result with
  | error e =>
    rw [ended_query_bind_error hfound]
    exact .inl rfl
  | ok found =>
  obtain ⟨oldDir, oldName⟩ := found
  obtain ⟨c, hdevice⟩ := (findDevice_result h ino).1 hfound
  rw [ended_query_bind hfound]
  dsimp only
  rw [ended_bind]
  rcases devicePlace_ends h htidy path with ⟨e, hended⟩ | ⟨dev, hdev, hplaced⟩
  · rw [hended]
    exact .inl rfl
  rcases hended : (devicePlace w.rootVolume path).ended w with ⟨e | ⟨d, name⟩, w₁⟩ <;>
    rw [hended] at hplaced
  · exact (hplaced.abandons hdev rfl).imp .inl
  obtain ⟨front, hnames, hpaves, hd, hname⟩ := hplaced.found hdev h rfl
  have h₁ := hplaced.wellFormed
  obtain ⟨⟨P, hP⟩, hentry, hino⟩ := id hdevice
  have hentry₁ : w₁.Entry oldDir oldName c := hpaves.entry hentry
  have hP₁ := World.deviceWalk_kept h h₁ hpaves.kept hP
  have hlive := World.live_of_deviceWalk h₁ hd
  have hvolume := World.volume_of_deviceWalk h₁ hd
  have hsame := (World.volume_of_deviceWalk h₁ hP₁).trans hvolume.symm
  have hold_name := h₁.linked.name _ _ _ hentry₁
  rw [← hpaves.rootVolume h h₁, ← hvolume]
  dsimp only
  have hrenames := (rename_renames h₁ (w₁.node d).volume hentry₁.live hlive hsame hold_name hname
    false).and (rename_checks h₁ (w₁.node d).volume hentry₁.live hlive hold_name hname false)
  rcases hrenames.ended_cases with ⟨e, hended⟩ | ⟨u, w', hended, hrenamed, hchecked⟩ <;>
    rw [hended]
  · exact (hplaced.rename_abandons h hdev hname hentry (congrArg Prod.fst hended)).imp fun hdir =>
      .inr ⟨oldDir, oldName, c, hdevice, hdir⟩
  · obtain ⟨c', hentry', hself, hshifts⟩ := hrenamed.shifts h₁ hplaced.tidy hchecked
    obtain rfl : c' = c := Option.some.inj (hentry'.symm.trans hentry₁)
    by_cases hthere : (d, name, c') ∈ w₁.entries
    · -- It is at its place already, so there was no directory to be made.
      have heq : w₁ = w := (hplaced.vacant d name rfl).resolve_right fun hvacant =>
        hvacant.2 name c' hthere
      have heq' := hself hthere
      subst heq heq'
      exact ⟨dev, front, name, d, oldDir, oldName, c', w', hdev, hnames, hpaves, hd, hdevice,
        hnames ▸ World.deviceWalk_concat h hd hthere, .inl rfl⟩
    · have h' := hrenamed.edits h₁ |>.wellFormed h₁
      have hd' := (hshifts hthere).deviceWalk_target h₁ h' hrenamed.volumes_eq hP₁ hd
        (hrenamed.not_above hentry₁ hthere)
      exact ⟨dev, front, name, d, oldDir, oldName, c', w₁, hdev, hnames, hpaves, hd, hdevice,
        hnames ▸ World.deviceWalk_concat h' hd' (hshifts hthere).entry_new, .inr (hshifts hthere)⟩

end

/-! ## Calls on the root volume -/

theorem addDevice_ended (w : World) (path : String) (ops : OpsKind) :
    (addDevice path ops).ended w = (RamFs.publishDevice w.rootVolume path ops).ended w := by
  rw [addDevice, ended_ask_bind, ended_bind]
  rcases (RamFs.publishDevice w.rootVolume path ops).ended w with ⟨_ | _, _⟩ <;> rfl

/-- **A call for a device finishes, or changes nothing but for directories on the way.** Publishing
a device in a world that operations lead to adds the directories that are missing on the way and
one device, which has the number that is given back, at the end of it; moving leaves what had the
number at the end of the way. A call that fails leaves the world as it was, unless a name on the way
is refused or what is to be moved is a directory; then directories may have been made on the way. -/
theorem device_calls_finish_or_abandon {w : World} (hw : w.Reachable) (path : String) :
    (∀ ops, w.Publishes ((addDevice path ops).after w) (RamFs.components path)
      (addDevice path ops w).result) ∧
    ∀ ino, w.Transfers ((moveDevice ino path).after w) ino (RamFs.components path)
      (moveDevice ino path w).result := by
  constructor
  · intro ops
    have hpublishes := RamFs.publishDevice_publishes hw.wellFormed hw.tidy path ops
    rwa [← addDevice_ended] at hpublishes
  · intro ino
    have htransfers := RamFs.moveDevice_transfers hw.wellFormed hw.tidy ino path
    have hended : (moveDevice ino path).ended w =
        (RamFs.moveDevice w.rootVolume ino path).ended w := ended_ask_bind _ _
    rwa [← hended] at htransfers

/-- An instance with one device. -/
def withTerminal : World := Operation.runAll [.addDevice "tty0" .bare] (World.fresh {})

theorem device_calls_finish_or_abandon_of_withTerminal :
    let w := withTerminal
    (w.Reachable ∧ (addDevice "input/kbd" .bare w).result = .ok 5 ∧
      (moveDevice 3 "term/console" w).result = .ok ()) ∧
      w.Publishes ((addDevice "input/kbd" .bare).after w) ["input", "kbd"] (.ok 5) ∧
      w.Transfers ((moveDevice 3 "term/console").after w) 3 ["term", "console"] (.ok ()) := by
  intro w
  have hw : w.Reachable := ⟨_, World.steps_runAll _ _⟩
  have hadded : (addDevice "input/kbd" .bare w).result = .ok 5 := by decide +kernel
  have hmoved : (moveDevice 3 "term/console" w).result = .ok () := by decide +kernel
  have hpublishes := (device_calls_finish_or_abandon hw "input/kbd").1 .bare
  have htransfers := (device_calls_finish_or_abandon hw "term/console").2 3
  have hkeyboard : RamFs.components "input/kbd" = ["input", "kbd"] := by decide +kernel
  have hconsole : RamFs.components "term/console" = ["term", "console"] := by decide +kernel
  rw [hadded, hkeyboard] at hpublishes
  rw [hmoved, hconsole] at htransfers
  exact ⟨⟨hw, hadded, hmoved⟩, hpublishes, htransfers⟩

/-- A device that has no name gets no place, but the directory on the way to it has been made, for a
new device and for one that is to be moved. -/
theorem refused_device_leaves_directory :
    let w := withTerminal
    let added := (addDevice "a/.." .bare).after w
    let moved := (moveDevice 3 "a/..").after w
    w.Reachable ∧ w.deviceWalk ["a"] = .error .notFound ∧
      (addDevice "a/.." .bare w).result = .error .invalidArgument ∧
      added.deviceWalk ["a"] = .ok 3 ∧ added.entries ≠ w.entries ∧
      (moveDevice 3 "a/.." w).result = .error .invalidArgument ∧
      moved.deviceWalk ["a"] = .ok 3 ∧ moved.entries ≠ w.entries := by
  intro w added moved
  have hnew : (1, "a", 3) ∉ w.entries := by
    rw [World.mem_entries]
    decide +kernel
  have hadded : (1, "a", 3) ∈ added.entries := by
    rw [World.mem_entries]
    decide +kernel
  have hmoved : (1, "a", 3) ∈ moved.entries := by
    rw [World.mem_entries]
    decide +kernel
  exact ⟨⟨_, World.steps_runAll _ _⟩, by decide +kernel, by decide +kernel, by decide +kernel,
    fun heq => hnew (heq ▸ hadded), by decide +kernel, by decide +kernel,
    fun heq => hnew (heq ▸ hmoved)⟩

end VirtualFs
