/-
What the library does, over whatever drivers there are, as one relation: each
constructor of `Move` is something the library does in one go, with what it
has made sure of before. Operations are sequences of moves as long as the
worlds they pass through are `Sound`: what the library finds, opens and holds
is there, on a volume that is there.

Moves that put an entry into a directory or mount a volume on one may be
restricted to some directories (`Range`), for what is said of runs that keep to
those.
-/
import VirtualFs.Direct
import VirtualFs.Proofs.Arrival
import VirtualFs.Proofs.Drivers

namespace VirtualFs

open Relation (ReflTransGen)

/-! ## What is held -/

theorem OpenFile.setPosition_node (file : OpenFile) (position : Nat) :
    (file.setPosition position).node = file.node := by
  rw [OpenFile.setPosition]
  split <;> rfl

theorem OpenFile.setCursor_node (file : OpenFile) (cursor : Nat) :
    (file.setCursor cursor).node = file.node := by
  rw [OpenFile.setCursor]
  split <;> rfl

namespace World

/-- What is held from outside the trees is known, and every context has a table. -/
structure Gripped (w : World) : Prop where
  file : ∀ f file, w.files.get? f = some file → w.Known file.node
  cwd : ∀ (c : ContextId) (context : Context), w.contexts[c]? = some context →
    w.Known context.cwd
  pin : ∀ name n, w.pins.get? name = some n → w.Known n
  table : w.Tabled

/-- What is known of a node is read off the nodes and the volumes. -/
theorem Known.congr {w w' : World} {n : NodeId} (h : w.Known n) (hnodes : w'.nodes = w.nodes)
    (hvolumes : w'.volumes = w.volumes) : w'.Known n := by
  have hnode : w'.node n = w.node n := by rw [World.node, hnodes, World.node]
  have hvolume : ∀ v, w'.volume v = w.volume v := fun v => by
    rw [World.volume, hvolumes, World.volume]
  refine ⟨?_, ?_, ?_⟩
  · rw [Live, hnodes]
    exact h.live
  · rw [hnode, hvolumes]
    exact h.volume
  · rw [hnode, hvolume]
    exact h.volumeId

namespace Gripped

variable {w : World} (h : w.Gripped) {n : NodeId}

include h

/-- Everything that is held keeps its node or gets a known one. -/
theorem change {files : Arena OpenFile} {contexts : Array Context} {tasks : Array Task}
    {pins : NameMap NodeId}
    (hfile : ∀ f file, files.get? f = some file →
      (∃ f' file', w.files.get? f' = some file' ∧ file'.node = file.node) ∨ w.Known file.node)
    (hcwd : ∀ (c : ContextId) (context : Context), contexts[c]? = some context →
      (∃ (c' : ContextId) (context' : Context), w.contexts[c']? = some context' ∧
        context'.cwd = context.cwd) ∨ w.Known context.cwd)
    (hpin : ∀ name n, pins.get? name = some n → w.pins.get? name = some n ∨ w.Known n)
    (htable : ∀ (c : ContextId) (context : Context), contexts[c]? = some context →
      context.files.Neat w.limits.handles) :
    ({ w with files, contexts, tasks, pins } : World).Gripped where
  file f file hget := by
    have hknown : w.Known file.node := by
      rcases hfile f file hget with ⟨f', file', hget', heq⟩ | hknown
      · exact heq ▸ h.file f' file' hget'
      · exact hknown
    exact hknown.congr rfl rfl
  cwd c context hget := by
    have hknown : w.Known context.cwd := by
      rcases hcwd c context hget with ⟨c', context', hget', heq⟩ | hknown
      · exact heq ▸ h.cwd c' context' hget'
      · exact hknown
    exact hknown.congr rfl rfl
  pin name n hget := by
    have hknown : w.Known n := (hpin name n hget).elim (h.pin name n) id
    exact hknown.congr rfl rfl
  table := htable

theorem setFile (f : FileId) {g : OpenFile → OpenFile} (hg : ∀ file, (g file).node = file.node) :
    (w.setFile f g).Gripped := by
  refine h.change (fun i file hget => .inl ?_) (fun c context hget => .inl ⟨c, context, hget, rfl⟩)
    (fun _ _ hget => .inl hget) h.table
  obtain ⟨old, hold, rfl | rfl⟩ := Arena.exists_get?_of_modify hget
  · exact ⟨i, _, hold, rfl⟩
  · exact ⟨i, old, hold, (hg old).symm⟩

theorem setContext (c : ContextId) {g : Context → Context}
    (hg : ∀ context, w.contexts[c]? = some context →
      ((g context).cwd = context.cwd ∨ w.Known (g context).cwd) ∧
        (g context).files.Neat w.limits.handles) :
    (w.setContext c g).Gripped := by
  -- A context of the new world is an old one, or the one that was changed.
  have hcases : ∀ (i : ContextId) (context : Context),
      (w.contexts.modify c g)[i]? = some context →
        w.contexts[i]? = some context ∨ ∃ old, w.contexts[c]? = some old ∧ context = g old := by
    intro i context hget
    rw [Array.getElem?_modify] at hget
    split at hget
    · next hi =>
      obtain ⟨old, hold, rfl⟩ := Option.map_eq_some_iff.1 hget
      exact .inr ⟨old, hi ▸ hold, rfl⟩
    · exact .inl hget
  refine h.change (fun f file hget => .inl ⟨f, file, hget, rfl⟩) (fun i context hget => ?_)
    (fun _ _ hget => .inl hget) fun i context hget => ?_
  · rcases hcases i context hget with hold | ⟨old, hold, rfl⟩
    · exact .inl ⟨i, context, hold, rfl⟩
    · exact (hg old hold).1.imp (fun heq => ⟨c, old, hold, heq.symm⟩) id
  · rcases hcases i context hget with hold | ⟨old, hold, rfl⟩
    · exact h.table i context hold
    · exact (hg old hold).2

/-- The table of a context may be replaced by another one of the same limit. -/
theorem setTable (c : ContextId) {files : ReservationTable FileId}
    (hfiles : (w.context c).files.Neat w.limits.handles → files.Neat w.limits.handles) :
    (w.setContext c fun context => { context with files }).Gripped := by
  refine h.setContext c fun context hget => ⟨.inl rfl, hfiles ?_⟩
  rw [context_of_getElem? hget]
  exact h.table c context hget

theorem setCwd (c : ContextId) (hn : w.Known n) :
    (w.setContext c fun context => { context with cwd := n }).Gripped :=
  h.setContext c fun context hget => ⟨.inr hn, h.table c context hget⟩

theorem pushFile {file : OpenFile} (hfile : w.Known file.node) :
    ({ w with files := w.files.push file } : World).Gripped := by
  refine h.change (fun i other hget => ?_) (fun c context hget => .inl ⟨c, context, hget, rfl⟩)
    (fun _ _ hget => .inl hget) h.table
  rw [Arena.get?_push] at hget
  split at hget
  · cases hget
    exact .inr hfile
  · exact .inl ⟨i, other, hget, rfl⟩

theorem removeFile (f : FileId) : ({ w with files := w.files.remove f } : World).Gripped :=
  h.change (fun i file hget => .inl ⟨i, file, Arena.get?_of_remove hget, rfl⟩)
    (fun c context hget => .inl ⟨c, context, hget, rfl⟩) (fun _ _ hget => .inl hget) h.table

theorem pushContext {context : Context} (hcwd : w.Known context.cwd)
    (htable : context.files.Neat w.limits.handles) :
    ({ w with contexts := w.contexts.push context } : World).Gripped := by
  refine h.change (fun f file hget => .inl ⟨f, file, hget, rfl⟩) (fun i other hget => ?_)
    (fun _ _ hget => .inl hget) fun i other hget => ?_
  all_goals
    rw [Array.getElem?_push] at hget
    split at hget
  · cases hget
    exact .inr hcwd
  · exact .inl ⟨i, other, hget, rfl⟩
  · cases hget
    exact htable
  · exact h.table i other hget

theorem setTasks (tasks : Array Task) : ({ w with tasks } : World).Gripped :=
  h.change (fun f file hget => .inl ⟨f, file, hget, rfl⟩)
    (fun c context hget => .inl ⟨c, context, hget, rfl⟩) (fun _ _ hget => .inl hget) h.table

theorem insertPin (name : String) (hn : w.Known n) :
    ({ w with pins := w.pins.insert name n } : World).Gripped := by
  refine h.change (fun f file hget => .inl ⟨f, file, hget, rfl⟩)
    (fun c context hget => .inl ⟨c, context, hget, rfl⟩) (fun other m hget => ?_) h.table
  rw [NameMap.get?_insert] at hget
  split at hget
  · cases hget
    exact .inr hn
  · exact .inl hget

theorem erasePin (name : String) : ({ w with pins := w.pins.erase name } : World).Gripped := by
  refine h.change (fun f file hget => .inl ⟨f, file, hget, rfl⟩)
    (fun c context hget => .inl ⟨c, context, hget, rfl⟩) (fun other m hget => .inl ?_) h.table
  rw [NameMap.get?_erase] at hget
  split at hget
  · cases hget
  · exact hget

end Gripped

/-! ## Moves -/

variable [Backends]

/-- The world after a driver was asked to mount under the next id, which is used up. If there is a
volume, it is tied to its directory, unless that carries one by now. -/
def mountedOn (w : World) (driver : DriverKind) (device : String) (flags : VolumeFlags)
    (args : String) (p : NodeId) : World :=
  let done := driver.mount w.nextVolumeId device flags args
    { w with nextVolumeId := w.nextVolumeId + 1 }
  match done.result with
  | .ok v =>
    if (done.world.node p).mountRoot.isNone then done.world.attach w.nextVolumeId v p
    else done.world
  | .error _ => done.world

/-- The directories into which entries may be put, and those on which volumes may be mounted. -/
structure Range where
  entered : World → NodeId → Prop
  covered : World → NodeId → Prop

/-- Any directories. -/
def Range.all : Range := ⟨fun _ _ => True, fun _ _ => True⟩

/-- Any directories for entries, but none for volumes. -/
def Range.entries : Range := ⟨fun _ _ => True, fun _ _ => False⟩

/-- One thing the library does, and what it has made sure of before. -/
inductive Move (range : Range) : World → World → Prop where
  /-- A driver is asked to change its filesystem. -/
  | asked {w} (request : DriverRequest) :
      request.Proper w → (∀ d, request.target = some d → range.entered w d) →
      Move range w (request.after w)
  /-- A volume is mounted. -/
  | mounted {w name driver device flags args p} :
      w.drivers.get? name = some driver → w.Mountable p → range.covered w p →
      Move range w (w.mountedOn driver device flags args p)
  /-- The device directory changes. -/
  | deviceAdded {w path ops} : Move range w ((addDevice path ops).after w)
  | deviceMoved {w ino path} : Move range w ((moveDevice ino path).after w)
  | deviceWithdrawn {w ino} : Move range w ((withdrawDevice ino).after w)
  /-- Nodes that nothing refers to go. -/
  | swept {w} : Move range w w.sweep
  /-- What is held from outside changes. -/
  | held {w files contexts tasks pins} :
      ({ w with files, contexts, tasks, pins } : World).Gripped →
      Move range w { w with files, contexts, tasks, pins }

theorem Move.all {range : Range} {w w' : World} (h : Move range w w') : Move .all w w' := by
  cases h with
  | asked request hproper _ => exact .asked request hproper fun _ _ => trivial
  | mounted hdriver hp _ => exact .mounted hdriver hp trivial
  | deviceAdded => exact .deviceAdded
  | deviceMoved => exact .deviceMoved
  | deviceWithdrawn => exact .deviceWithdrawn
  | swept => exact .swept
  | held hgripped => exact .held hgripped

/-! ## Worlds that operations can work in -/

/-- A world in which what the library finds, opens and holds is known. -/
structure Sound (w : World) : Prop where
  gripped : w.Gripped
  root : w.Known w.rootNode
  /-- A blank thing refers to a node that is known. -/
  blank : w.Known 0
  covered : ∀ n r, (w.node n).mountRoot = some r → w.Known n ∧ w.Known r
  locate : ∀ dir name n, w.Known dir → w.isDirectory dir = true →
    ((w.node dir).driver.locate (w.node dir).volume dir name w).result = .ok n → w.Known n
  listing : ∀ ops volume n flags file, w.Used ops volume n →
    (ops.openDirectory volume n flags w).result = .ok file → w.Known file.node
  created : ∀ driver volume parent name flags mode file,
    DriverRequest.Proper w (.createFile driver volume parent name flags mode) →
    (driver.createFile volume parent name flags mode w).result = .ok file →
    ((driver.createFile volume parent name flags mode).after w).Known file.node
  opened : ∀ ops volume n flags file, DriverRequest.Proper w (.openFile ops volume n flags) →
    (ops.openFile volume n flags w).result = .ok file →
    ((ops.openFile volume n flags).after w).Known file.node

omit [Backends] in
/-- A node that is still there is known after a driver did its work. -/
theorem Confined.known {w w' : World} {made : Option VolumeKey} (c : w.Confined made w')
    {n : NodeId} (hn : w.Known n) (hlive : w'.Live n) : w'.Known n := by
  have hstays := (c.old n hn.live.lt hlive).2
  refine ⟨hlive, ?_, ?_⟩
  · rw [hstays.volume]
    exact (c.hasVolume _).2 (.inr hn.volume)
  · rw [hstays.volume, hstays.volumeId, (c.volume _ hn.volume).id_eq, hn.volumeId]

/-- Where drivers keep to what they are there for, everything found is known if what is held is. -/
theorem Lawful.sound {w : World} (h : w.Lawful) (hgripped : w.Gripped) (hroot : w.Known w.rootNode)
    (hblank : w.Known 0)
    (hcovered : ∀ n r, (w.node n).mountRoot = some r → w.Known n ∧ w.Known r) : w.Sound where
  gripped := hgripped
  root := hroot
  blank := hblank
  covered := hcovered
  locate dir name n hdir hisDirectory hn := by
    obtain ⟨hlive, hvolume, hid⟩ := h.locate dir name n hdir hisDirectory hn
    exact ⟨hlive, hvolume ▸ hdir.volume, by rw [hvolume, hid, hdir.volumeId]⟩
  listing := h.listing
  created := h.created
  opened := h.opened

/-- A world from which moves lead to sound worlds only. -/
def Steady (range : Range) (w : World) : Prop :=
  ∀ w', ReflTransGen (Move range) w w' → w'.Sound

theorem Steady.sound {range : Range} {w : World} (h : w.Steady range) :
    w.Sound :=
  h w .refl

theorem Steady.after {range : Range} {w w' : World} (h : w.Steady range)
    (hmoves : ReflTransGen (Move range) w w') : w'.Steady range :=
  fun w'' hmoves' => h w'' (hmoves.trans hmoves')

/-! ## What resolution finds -/

namespace Sound

variable {w : World} (h : w.Sound) {n d : NodeId}

include h

theorem known_file (f : FileId) : w.Known (w.file f).node := by
  rw [World.file]
  cases hfile : w.files.get? f with
  | none => exact h.blank
  | some file => exact h.gripped.file f file hfile

theorem known_context (c : ContextId) : w.Known (w.context c).cwd := by
  rw [World.context, Array.getD_eq_getD_getElem?]
  cases hcontext : w.contexts[c]? with
  | none => exact h.blank
  | some context => exact h.gripped.cwd c context hcontext

theorem known_cwd (t : TaskId) : w.Known (w.cwd t) := h.known_context _

theorem known_held {name : String} (hheld : w.held? name = some n) : w.Known n := by
  rw [World.held?] at hheld
  split at hheld
  · cases hheld
    exact h.root
  · exact h.gripped.pin name n hheld

theorem known_cross (hn : w.Known n) : w.Known (w.cross n) := by
  rw [World.cross]
  cases hroot : (w.node n).mountRoot with
  | none => exact hn
  | some r => exact (h.covered n r hroot).2

theorem known_mountPoint {v : VolumeKey} (hpoint : w.mountPoint v = some n) : w.Known n := by
  rw [World.mountPoint, Option.filter_eq_some_iff, Bool.and_eq_true, beq_iff_eq] at hpoint
  exact (h.covered n _ hpoint.2.2).1

theorem lookupDirectory_yields (hd : w.Known d) (name : String) :
    (lookupDirectory d name).Yields w fun dir => ∀ n, dir = some n → w.Known n := by
  have hself : (pure (some d) : Query (Option NodeId)).Yields w fun dir =>
      ∀ n, dir = some n → w.Known n := .pure fun n hn => Option.some.inj hn ▸ hd
  rw [lookupDirectory]
  split
  · refine .skip fun v => Query.Yields.world_bind ?_
    split
    · split
      · exact .pure nofun
      · intro dir hdir n hn
        obtain ⟨p, hp, hdir⟩ := Query.result_bind_eq_ok.1 (by rwa [← bind_pure_comp] at hdir)
        rw [Query.result_expect_eq_ok] at hp
        cases hdir
        cases hn
        exact h.known_mountPoint hp
    · exact hself
  · exact hself

theorem lookIn_yields (hd : w.Known d) (name : String) (crossing : Bool) :
    (lookIn d name crossing).Yields w (Sight.All w w.Known) := by
  rw [lookIn]
  split
  · exact .pure hd
  split
  · exact .skip fun _ => .skip fun _ => .pure hd
  refine (h.lookupDirectory_yields hd name).bind fun dir hdir => ?_
  cases dir with
  | none => exact .pure hd
  | some dir =>
    have hknown := hdir dir rfl
    refine Query.Yields.look_bind (.bind (P := fun _ => w.isDirectory dir = true)
      (fun _ hdemand => Query.result_demand_eq_ok.1 hdemand) fun _ hisDirectory => ?_)
    refine (WellFormed.volumeOf_yields dir).bind fun v hv => Query.Yields.look_bind ?_
    subst hv
    have hfound : ((w.node dir).driver.locate (w.node dir).volume dir name).Yields w w.Known :=
      fun n hn => h.locate dir name n hknown hisDirectory hn
    refine hfound.bind fun n hn =>
      Query.Yields.world_bind (.skip fun _ => .pure ⟨fun _ => hknown, ?_⟩)
    split
    · exact h.known_cross hn
    · exact hn

theorem closed_known : Closed w w.Known :=
  ⟨h.root, fun _ name hd => h.lookIn_yields hd name true⟩

/-- Whatever the last name of a path is taken for, it is a node that is known. -/
theorem resolve_yields (t : TaskId) {start : Option NodeId}
    (hstart : ∀ n, start = some n → w.Known n) (path : String) (flags : LookupMode) :
    (resolve t start path flags).Yields w w.Known := by
  refine (h.closed_known.resolveParent (h.known_cwd t) hstart path).bind ?_
  rintro ⟨parent, name⟩ ⟨hparent, -⟩
  show (resolveName (followFor t) parent name flags).Yields w w.Known
  rw [resolveName_eq_lookIn]
  refine (h.lookIn_yields hparent name _).bind fun sight hsight => ?_
  cases sight with
  | here n => exact .pure hsight
  | entry dir n =>
    obtain ⟨hdir, hn⟩ := hsight
    dsimp only
    split
    · exact h.closed_known.followFor t dir n hdir hn
    · exact .pure hn

theorem openFileOf_yields (t : TaskId) (handle : Handle) :
    (openFileOf t handle).Yields w fun file => w.Known file.node :=
  .skip fun f => Query.Yields.look_bind (.pure (h.known_file f))

theorem startNode_yields (t : TaskId) (base : Option Handle) :
    (startNode t base).Yields w fun start => ∀ n, start = some n → w.Known n := by
  cases base with
  | none => exact .pure nofun
  | some handle =>
    refine (h.openFileOf_yields t handle).bind fun file hfile => ?_
    refine .skip fun _ => .skip fun _ => .pure ?_
    rintro _ ⟨⟩
    exact hfile

/-- The directory a path ends in is known, and the last name has no slash. -/
theorem resolveTarget_yields (t : TaskId) (base : Option Handle) (path : String) :
    (resolveTarget t base path).Yields w fun found =>
      w.Known found.1 ∧ '/' ∉ found.2.toList := by
  refine (h.startNode_yields t base).bind fun start hstart => ?_
  intro found hfound
  obtain ⟨hknown, hname⟩ :=
    h.closed_known.resolveParent (h.known_cwd t) hstart path found hfound
  exact ⟨hknown, hname ▸ Route.slash_notMem_name path⟩

omit [Backends] h in
/-- A node whose volume is asked for to write to it may be. -/
theorem volumeForWriting_asked (hn : w.Known n) :
    (volumeForWriting n).Yields w fun v => w.Asked (w.node n).driver v n := by
  refine (WellFormed.volumeOf_yields n).bind fun v hv => Query.Yields.look_bind ?_
  refine .bind (P := fun _ => (w.volume v).flags.isReadOnly = false) (fun _ hdemand => ?_)
    fun _ hwritable => .pure ⟨hn, rfl, hv, hwritable⟩
  simpa using Query.result_demand_eq_ok.1 hdemand

omit [Backends] h in
theorem opsOf_used (hn : w.Known n) :
    (opsOf n).Yields w fun ops => w.Used ops (w.node n).volume n := by
  refine Query.Yields.look_bind fun ops hops => ?_
  exact ⟨hn, Query.result_expect_eq_ok.1 hops, rfl⟩

/-- A place is a directory to ask about, under a name it may list. -/
theorem placeOf_yields (t : TaskId) (base : Option Handle) (path : String) :
    (placeOf t base path).Yields w fun place =>
      w.Asked place.driver place.volume place.parent ∧ IsEntryName place.name ∧
        (resolveTarget t base path w).result = .ok (place.parent, place.name) := by
  intro place hplace
  obtain ⟨hfound, hchecked, hvolume, hdriver⟩ := placeOf_eq_ok hplace
  obtain ⟨hknown, hwhole⟩ := h.resolveTarget_yields t base path _ hfound
  rw [hdriver]
  exact ⟨volumeForWriting_asked hknown _ hvolume, ⟨hchecked, hwhole⟩, hfound⟩

end Sound

end World

end VirtualFs
