/-
Operations on names change the entries they name and no others. The pair an
operation is about is the directory its path ends in and the last name of the
path. What the directory lists under this name is what is listed, removed or
moved: it is neither followed, if it is a link, nor crossed, if it carries a
volume.
-/
import VirtualFs.Proofs.Entries
import VirtualFs.Proofs.LooseDirectories
import VirtualFs.Proofs.StreamOpens

namespace VirtualFs

open VirtualFs.Action (fails_pure fails_query fails_change fails_bind fails_query_bind
  fails_demand_bind fails_world_bind fails_note_bind fails_when leads_query_bind leads_bind
  leads_pure leads_note_bind leads_ask_bind)

/-! ## Opening what is there -/

/-- A node without its bytes, if it is a file. -/
def Node.emptied (node : Node) : Node :=
  node.mapRam fun ram =>
    match ram.content with
    | .file _ => { ram with content := .file .empty }
    | _ => ram

/-- To open a file with these flags empties it. -/
def OpenFlags.empties (flags : OpenFlags) : Bool :=
  flags.truncates && flags.writable && !flags.pathOnly

theorem Node.emptied_of_not_file {node : Node} (h : ∀ bytes, node.ram.content ≠ .file bytes) :
    node.emptied = node := by
  obtain ⟨ino, volumeId, volume, driver, ops, mode, mountRoot, ram | children⟩ := node
  · rw [emptied, mapRam]
    dsimp only
    split
    · next bytes heq => exact absurd heq (h bytes)
    · rfl
  · rfl

theorem Node.children_emptied (node : Node) :
    node.emptied.payload.children = node.payload.children := by
  refine Node.children_mapRam ?_
  split
  · next bytes heq => rw [heq]; rfl
  · rfl

namespace World

variable {w w' : World} {n : NodeId} {flags : OpenFlags}

/-- A node has been opened. Nothing has changed but that it has lost its bytes, if the flags are to
empty it and it is a file. -/
structure Opens (w w' : World) (n : NodeId) (flags : OpenFlags) : Prop where
  live : ∀ m, w'.Live m ↔ w.Live m
  node : ∀ m, w'.node m = if m = n ∧ flags.empties = true then (w.node m).emptied else w.node m

theorem Opens.entries (h : w.Opens w' n flags) : w'.entries = w.entries := by
  ext ⟨e, a, x⟩
  rw [mem_entries, mem_entries, Entry, Entry, World.children, World.children, h.node]
  split
  · rw [Node.children_emptied]
  · rfl

/-- Nothing is to be emptied. -/
theorem Opens.of_same (h : flags.empties = true → (w.node n).emptied = w.node n) :
    w.Opens w n flags := by
  refine ⟨fun _ => Iff.rfl, fun m => ?_⟩
  split
  · next hm => rw [hm.1, h hm.2]
  · rfl

theorem Opens.congr {v v' : World} (h : w.Opens w' n flags) (hnodes : v.nodes = w.nodes)
    (hnodes' : v'.nodes = w'.nodes) : v.Opens v' n flags where
  live m := by
    rw [Live, Live, hnodes, hnodes']
    exact h.live m
  node m := by
    have hnode := h.node m
    rw [World.node, World.node] at hnode ⊢
    rw [hnodes, hnodes', hnode]

end World

section

variable {w : World} (h : w.WellFormed) {n : NodeId}

include h

theorem RamFs.truncate_empties (hn : w.Live n) {flags : OpenFlags}
    (hempties : flags.empties = true) :
    (truncate n).FailsTo w w fun _ w' => w.Opens w' n flags := by
  refine fails_query_bind fun ram hram => ?_
  have hcontent := of_nodeOf h hn hram
  split
  · next bytes heq =>
    have hfile : (w.node n).ram.content = .file bytes := hcontent.symm.trans heq
    refine fails_change ⟨fun m => World.live_setNode, fun m => ?_⟩
    rw [World.node_setNode hn]
    by_cases hm : m = n
    · subst hm
      rw [if_pos rfl, if_pos ⟨rfl, hempties⟩, Node.emptied, (h.ram m hn).mapRam,
        (h.ram m hn).payload]
      simp only [hfile]
    · rw [if_neg hm, if_neg fun hboth => hm hboth.1]
  · next hnot =>
    exact fails_pure (.of_same fun _ => Node.emptied_of_not_file fun bytes heq =>
      hnot bytes (hcontent.trans heq))

/-- Only the memory filesystem has files to empty. -/
theorem OpsKind.openFile_empties (ops : OpsKind) (v : VolumeKey) (hn : w.Live n)
    (hops : (w.node n).ops = some ops) {flags : OpenFlags} (hpath : flags.pathOnly = false) :
    (ops.openFile v n (flags.without OpenFlags.createBit)).FailsTo w w fun _ w' =>
      w.Opens w' n flags := by
  have htruncates : (flags.without OpenFlags.createBit).truncates = flags.truncates :=
    flags.truncates_without (by decide)
  have hwritable : (flags.without OpenFlags.createBit).writable = flags.writable :=
    flags.writable_without (by decide)
  have hempties : flags.empties = (flags.truncates && flags.writable) := by
    rw [OpenFlags.empties, hpath, Bool.not_false, Bool.and_true]
  have hdevice : ops ≠ .ram → ∀ bytes, (w.node n).ram.content ≠ .file bytes := by
    intro hne bytes heq
    rcases (h.ram n hn).ops with hram | hcontent
    · exact hne (Option.some.inj (hops.symm.trans hram))
    · cases hcontent.symm.trans heq
  have hother : ops ≠ .ram → w.Opens w n flags := fun hne =>
    .of_same fun _ => Node.emptied_of_not_file (hdevice hne)
  refine fails_note_bind (fails_bind (P := fun _ w' => w.Opens w' n flags) ?_ fun _ _ hopens =>
    fails_note_bind (fails_pure hopens))
  cases ops with
  | ram =>
    refine fails_bind (P := fun _ w' => w.Opens w' n flags) (fails_when (fun hboth => ?_)
      fun hnot => ?_) fun _ _ hopens => fails_pure hopens
    · rw [htruncates, hwritable, ← hempties] at hboth
      exact RamFs.truncate_empties h hn hboth
    · rw [htruncates, hwritable, ← hempties] at hnot
      exact .of_same fun hempty => absurd hempty hnot
  | bare => exact fails_pure (hother nofun)
  | scripted meter script => exact fails_query_bind fun _ _ => fails_pure (hother nofun)

theorem openFound_empties (hn : w.Live n) (flags : OpenFlags) :
    (openFound n flags).FailsTo w w fun _ w' => w.Opens w' n flags := by
  rw [openFound]
  split
  · next hpath =>
    refine fails_pure (.of_same fun hempties => ?_)
    rw [OpenFlags.empties, hpath, Bool.not_true, Bool.and_false] at hempties
    cases hempties
  next hpath =>
  have hpath : flags.pathOnly = false := Bool.eq_false_of_not_eq_true hpath
  refine fails_world_bind (fails_demand_bind fun _ => fails_query_bind fun ops hops =>
    fails_query_bind fun v _ => ?_)
  rw [World.opsOf_eq_ok] at hops
  dsimp only
  split
  · refine fails_demand_bind fun hreads => fails_query fun _ _ => .of_same fun hempties => ?_
    rw [flags.writable_without (by decide)] at hreads
    simp [OpenFlags.empties] at hreads hempties
    simp [hreads] at hempties
  · exact fails_demand_bind fun _ => fails_demand_bind fun _ =>
      ops.openFile_empties h v hn hops hpath

end

/-! ## Operations on names -/

/-- What an operation on names that succeeds does to the entries of all directories and to the nodes
there were. An open looks its path up once it has reserved a number. -/
def Operation.Amends (w w' : World) : Operation → Prop
  | .makeDirectory t base path mode => ∃ d name c,
      (resolveTarget t base (stripSlashes path).1 w).result = .ok (d, name) ∧
        w.Gains w' d name c (Mode.make Mode.directory mode) (.directory .empty)
  | .makeSymlink t base path text => ∃ d name c,
      (resolveTarget t base path w).result = .ok (d, name) ∧
        w.Gains w' d name c (Mode.make Mode.symlink 0o777) (.symlink text)
  | .unlink t base path => ∃ d name c,
      (resolveTarget t base path w).result = .ok (d, name) ∧ w.isDirectory c = false ∧
        w.Loses w' d name c
  | .removeDirectory t base path => ∃ d name c,
      (resolveTarget t base (stripSlashes path).1 w).result = .ok (d, name) ∧
        w.isDirectory c = true ∧ (∀ a x, (c, a, x) ∉ w.entries) ∧ (w.node c).mountRoot = none ∧
        w.Loses w' d name c
  | .rename t oldBase oldPath newBase newPath => ∃ oldDir oldName d name c,
      (resolveTarget t oldBase (stripSlashes oldPath).1 w).result = .ok (oldDir, oldName) ∧
        (resolveTarget t newBase (stripSlashes newPath).1 w).result = .ok (d, name) ∧
        (oldDir, oldName, c) ∈ w.entries ∧ ((d, name, c) ∈ w.entries → w' = w) ∧
        ((d, name, c) ∉ w.entries → w.Shifts w' oldDir oldName d name c)
  | .openPath t base path flags mode =>
    let reserved := (allocateHandle (w.contextOf t flags.forKernel)).after w
    ∃ d name, (resolveTarget t base path reserved).result = .ok (d, name) ∧
      ((∃ n, (resolveIn t d name (openLookup flags) reserved).result = .ok n ∧
          w'.entries = w.entries ∧ w.Opens w' n flags) ∨
        flags.creates = true ∧
          (resolveIn t d name (openLookup flags) reserved).result = .error .notFound ∧
          ∃ c, w.Gains w' d name c (Mode.make Mode.regular mode) (.file .empty))
  | .openPinned _ name flags => ∃ n, w.held? name = some n ∧ w'.entries = w.entries ∧
      w.Opens w' n flags
  | _ => True

section

variable {w : World} (h : w.WellFormed)

include h

theorem openName_amends (t : TaskId) {d : NodeId} (hd : w.Known d) (name : String)
    (flags : OpenFlags) (mode : UInt32) :
    (openName t d name flags mode).FailsTo w w fun _ w' =>
      (∃ n, (resolveIn t d name (openLookup flags) w).result = .ok n ∧ w.Opens w' n flags) ∨
        flags.creates = true ∧
          (resolveIn t d name (openLookup flags) w).result = .error .notFound ∧
          ∃ c, w.Gains w' d name c (Mode.make Mode.regular mode) (.file .empty) := by
  refine fails_query_bind fun r hr => ?_
  rw [Query.result_attempt, Except.ok.injEq] at hr
  split
  · next n =>
    have hn := (h.sound.known_opened hd hr).live
    exact fails_demand_bind fun _ => (openFound_empties h hn flags).imp fun _ _ hopens =>
      .inl ⟨n, hr, hopens⟩
  · split
    · next hcreates =>
      obtain ⟨rfl, hcreates⟩ := hcreates
      exact ((createNode_inserts h hd name flags mode).and
        (createNode_makes h hd.live name flags mode)).imp fun _ _ ⟨hinserted, hmode, hcontent⟩ =>
          .inr ⟨hcreates, hr, _, hinserted.gains h hmode hcontent⟩
    · exact Action.fails_throw

/-- What is opened is bound to a number, which touches no node. -/
theorem openPath_amends (t : TaskId) (base : Option Handle) (path : String) (flags : OpenFlags)
    (mode : UInt32) : (openPath t base path flags mode).Leads (fun _ _ => True) w fun _ w' =>
      (Operation.openPath t base path flags mode).Amends w w' := by
  refine leads_ask_bind (withReserved_leads h _ fun handle w₁ h₁ hnodes heq => ?_)
  refine leads_query_bind fun start hstart => leads_query_bind fun found hfound => ?_
  have hfound : (resolveTarget t base path w₁).result = .ok found :=
    Query.result_bind_eq_ok.2 ⟨start, hstart, hfound⟩
  have hknown := (h₁.sound.resolveTarget_yields t base path _ hfound).1
  refine leads_bind ((openName_amends h₁ t hknown found.2 flags mode).leads fun _ _ hcases =>
    ⟨.single trivial, hcases⟩) fun file w₂ _ hcases => ?_
  refine leads_bind (P := fun _ w' => w'.nodes = w₂.nodes)
    ⟨.single trivial, fun _ _ => commitFile_nodes _ handle file⟩ fun _ w' _ hsame =>
      leads_note_bind (leads_pure ⟨found.1, found.2, heq ▸ hfound, ?_⟩)
  rw [← heq]
  refine hcases.imp (fun ⟨n, hn, hopens⟩ => ?_) fun ⟨hcreates, hmissing, c, hgains⟩ =>
    ⟨hcreates, hmissing, c, hgains.congr hnodes.symm hsame⟩
  have hopens' : w.Opens w' n flags := hopens.congr hnodes.symm hsame
  exact ⟨n, hn, hopens'.entries, hopens'⟩

theorem openPinned_amends (t : TaskId) (name : String) (flags : OpenFlags) :
    (openPinned t name flags).Leads (fun _ _ => True) w fun _ w' =>
      (Operation.openPinned t name flags).Amends w w' := by
  refine leads_ask_bind (leads_query_bind fun n hn => leads_ask_bind
    (withReserved_leads h _ fun handle w₁ h₁ hnodes _ => ?_))
  rw [Query.result_expect_eq_ok] at hn
  have hlive : w₁.Live n := by
    rw [World.Live, hnodes]
    exact (h.sound.known_held hn).live
  refine leads_bind ((openFound_empties h₁ hlive flags).leads fun _ _ hopens =>
    ⟨.single trivial, hopens⟩) fun file w₂ _ hopens => ?_
  refine ⟨.single trivial, fun _ _ => ?_⟩
  have hopens' :
      w.Opens ((commitFile (w.contextOf t flags.forKernel) handle file).after w₂) n flags :=
    hopens.congr hnodes.symm (commitFile_nodes _ handle file)
  exact ⟨n, hn, hopens'.entries, hopens'⟩

theorem Operation.amends (htidy : w.Tidy) (op : Operation) (hok : (op.act w).result = .ok ()) :
    op.Amends w (op.run w) := by
  cases op with
  | openPath t base path flags mode =>
    obtain ⟨handle, hopen, -⟩ := Action.result_bind_eq_ok.1 hok
    exact (openPath_amends h t base path flags mode).2 handle hopen
  | openPinned t name flags =>
    obtain ⟨handle, hopen, -⟩ := Action.result_bind_eq_ok.1 hok
    exact (openPinned_amends h t name flags).2 handle hopen
  | makeDirectory t base path mode =>
    obtain ⟨u, hmade, -⟩ := Action.result_bind_eq_ok.1 hok
    obtain ⟨d, name, hfound, ⟨c, hinserted⟩, hmode, hcontent⟩ :=
      (makeDirectory_inserts h t base path mode).2 u hmade
    exact ⟨d, name, c, hfound, hinserted.gains h hmode hcontent⟩
  | makeSymlink t base path text =>
    obtain ⟨u, hmade, -⟩ := Action.result_bind_eq_ok.1 hok
    obtain ⟨d, name, hfound, ⟨c, hinserted⟩, hmode, hcontent⟩ :=
      (makeSymlink_inserts h t base path text).2 u hmade
    exact ⟨d, name, c, hfound, hinserted.gains h hmode hcontent⟩
  | unlink t base path =>
    obtain ⟨u, hgone, -⟩ := Action.result_bind_eq_ok.1 hok
    obtain ⟨d, name, hfound, hremoved, hchecked⟩ := (unlink_removes h t base path).2 u hgone
    obtain ⟨c, -, hloses⟩ := hremoved.loses h htidy fun c hc =>
      h.mountRoot_of_not_isDirectory (hchecked c hc)
    exact ⟨d, name, c, hfound, hchecked c hloses.entry, hloses⟩
  | removeDirectory t base path =>
    obtain ⟨u, hgone, -⟩ := Action.result_bind_eq_ok.1 hok
    obtain ⟨d, name, hfound, hremoved, hchecked⟩ :=
      (removeDirectory_removes h t base path).2 u hgone
    obtain ⟨c, hbare, hloses⟩ := hremoved.loses h htidy fun c hc => (hchecked c hc).2
    obtain ⟨hdir, hplain⟩ := hchecked c hloses.entry
    exact ⟨d, name, c, hfound, hdir, hbare, hplain, hloses⟩
  | rename t oldBase oldPath newBase newPath =>
    obtain ⟨u, hmoved, -⟩ := Action.result_bind_eq_ok.1 hok
    obtain ⟨oldDir, oldName, d, name, hold, hnew, hrenamed, hchecked⟩ :=
      (rename_renames h t oldBase oldPath newBase newPath).2 u hmoved
    obtain ⟨c, hentry, hsame, hshifts⟩ := hrenamed.shifts h htidy hchecked
    exact ⟨oldDir, oldName, d, name, c, hold, hnew, hentry, hsame, hshifts⟩
  | _ => trivial

end

/-- **Operations on names change the entries they name and no others.** Whatever an operation on
names does in a world that operations lead to, to the entries of all directories of all volumes it
does what it is there for, at the place its path names; and it leaves every other node alone, apart
from a file that is emptied when it is opened. -/
theorem operation_amends_entries {w : World} (hw : w.Reachable) (op : Operation)
    (hok : (op.act w).result = .ok ()) : op.Amends w (op.run w) :=
  op.amends hw.wellFormed hw.tidy hok

/-- A directory, a directory that lists an empty one and a file with one byte, and a link to the
file. -/
def furnished : World :=
  Operation.runAll
    [.addTask 0, .makeDirectory 0 none "/a" 0o755, .makeDirectory 0 none "/b" 0o755,
      .makeDirectory 0 none "/b/c" 0o755, .openPath 0 none "/b/f" ⟨0x42⟩ 0o644,
      .writev 0 (.ofSlot 0 true) [⟨#[7]⟩], .makeSymlink 0 none "/l" "b/f"]
    (World.fresh {})

theorem operation_amends_entries_of_furnished :
    let w := furnished
    let moved := Operation.rename 0 none "/a/" none "/b/c"
    let opened := Operation.openPath 0 none "/l" ⟨0x201⟩ 0
    (w.Reachable ∧ (moved.act w).result = .ok () ∧ (opened.act w).result = .ok ()) ∧
      (w.Entry 0 "a" 2 ∧ w.Entry 3 "c" 4 ∧ moved.Amends w (moved.run w)) ∧
      w.Entry 0 "l" 6 ∧ w.Entry 3 "f" 5 ∧ opened.Amends w (opened.run w) := by
  intro w moved opened
  have hw : w.Reachable := ⟨_, World.steps_runAll _ _⟩
  have hmoved : (moved.act w).result = .ok () := by decide +kernel
  have hopened : (opened.act w).result = .ok () := by decide +kernel
  exact ⟨⟨hw, hmoved, hopened⟩,
    ⟨by decide +kernel, by decide +kernel, operation_amends_entries hw moved hmoved⟩,
    by decide +kernel, by decide +kernel, operation_amends_entries hw opened hopened⟩

end VirtualFs
