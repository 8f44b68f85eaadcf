/-
What opening comes to. Whether a node that has been found can be opened, and as
what, is told by the node, its volume and the flags; the flags are looked at in
another order than when a file is made, and most of them are not looked at then.
-/
import VirtualFs.Proofs.Descent
import VirtualFs.Proofs.FailedOperations
import VirtualFs.Proofs.StreamOpens

namespace VirtualFs

open VirtualFs.Action (ended_query_bind)

/-- Whether operations let their node be opened: only a script refuses. -/
def OpsKind.lets : OpsKind → Except Error Unit
  | .scripted _ script => script.pass .opening
  | .ram | .bare => .ok ()

namespace World

/-- What a node that has been found is opened as, or why it is not. -/
def opensAs (w : World) (n : NodeId) (flags : OpenFlags) : Except Error OpenFile :=
  let kept := flags.without OpenFlags.createBit
  if flags.pathOnly then .ok (.path n flags)
  else if flags.nofollow && w.isSymlink n then .error .loop
  else
    match (w.node n).ops with
    | none => .error .notImplemented
    | some ops =>
      if w.isDirectory n then
        if flags.writable then .error .isADirectory else .ok (.directory n kept)
      else if flags.directoryOnly then .error .notADirectory
      else if flags.writable && (w.volume (w.node n).volume).flags.isReadOnly then .error .readOnly
      else ops.lets.map fun _ => .stream n kept

/-- What a file that is made in a directory is opened as, or why it is not made. -/
def makesFile (w : World) (d : NodeId) (name : String) (flags : OpenFlags) :
    Except Error OpenFile := do
  checkName name
  if (w.volume (w.node d).volume).flags.isReadOnly then .error .readOnly
  else if w.isDirectory d then
    if (w.children d).contains name then .error .alreadyExists
    else .ok (.stream w.nodes.nextKey flags)
  else .error .notADirectory

end World

variable {w : World} (h : w.WellFormed) {n d : NodeId} {flags : OpenFlags}

include h

theorem RamFs.result_truncate (hn : w.Live n) : (truncate n w).result = .ok () := by
  rw [truncate, Action.result_query_bind, nodeOf_apply (h.ram n hn), Except.bind]
  cases (w.node n).ram.content <;> rfl

/-- Files of the memory filesystem can always be opened. -/
theorem RamFs.result_openFile (hn : w.Live n) (flags : OpenFlags) :
    (openFile n flags w).result = .ok (.stream n flags) := by
  have hready : (Action.when (flags.truncates && flags.writable) (truncate n) w).result =
      .ok () := by
    rw [Action.when]
    split
    · exact result_truncate h hn
    · rfl
  rcases hrun : Action.when (flags.truncates && flags.writable) (truncate n) w with ⟨e | u, w', t⟩
  · rw [hrun] at hready
    cases hready
  · rw [openFile, Action.bind_ok hrun]
    rfl

theorem OpsKind.result_openFile (ops : OpsKind) (v : VolumeKey) (hn : w.Live n)
    (flags : OpenFlags) :
    (ops.openFile v n flags w).result = ops.lets.map fun _ => .stream n flags := by
  have hended : (ops.openFile v n flags w).result =
      ((Backends.ops ops).openFile v n flags w).result :=
    (Prod.mk.inj (ops.ended_openFile v n flags w)).1
  rw [hended]
  cases ops with
  | ram => exact RamFs.result_openFile h hn flags
  | bare => rfl
  | scripted meter script =>
    refine (Action.result_query_bind (Query.ofResult (script.pass .opening)) _ w).trans ?_
    rw [Query.result_ofResult, lets]
    cases script.pass .opening <;> rfl

theorem openFound_result (hn : w.Live n) (flags : OpenFlags) :
    (openFound n flags w).result = w.opensAs n flags := by
  have hwritable : (flags.without OpenFlags.createBit).writable = flags.writable :=
    flags.writable_without (by decide)
  have hdirectory : (flags.without OpenFlags.createBit).directoryOnly = flags.directoryOnly :=
    flags.has_without (by decide)
  rw [openFound, World.opensAs]
  split
  · rfl
  rw [Action.result_world_bind, Action.result_query_bind, Query.result_demand]
  cases flags.nofollow && w.isSymlink n with
  | true => rfl
  | false =>
    rw [Bool.not_false, if_pos rfl, if_neg Bool.false_ne_true, Except.bind,
      Action.result_query_bind, opsOf, Query.look_bind, Query.result_expect]
    cases hops : (w.node n).ops with
    | none => rfl
    | some ops =>
      simp only [Option.elim_some, Except.bind, Action.result_query_bind,
        h.volumeOf_result hn]
      cases hdir : w.isDirectory n with
      | true =>
        obtain rfl : ops = .ram :=
          Option.some.inj (hops.symm.trans ((h.ram n hn).ops_of_isDirectory hdir))
        rw [if_pos rfl, if_pos rfl, Action.result_query_bind, Query.result_demand, hwritable]
        cases flags.writable <;> rfl
      | false =>
        rw [if_neg Bool.false_ne_true, if_neg Bool.false_ne_true, Action.result_query_bind,
          Query.result_demand, hdirectory]
        cases flags.directoryOnly with
        | true => rfl
        | false =>
          rw [Bool.not_false, if_pos rfl, if_neg Bool.false_ne_true, Except.bind,
            Action.result_query_bind, Query.result_demand, hwritable]
          cases flags.writable && (w.volume (w.node n).volume).flags.isReadOnly with
          | true => rfl
          | false => exact ops.result_openFile h _ hn _

/-- A volume always has a number for one more node. -/
theorem RamFs.nextInoOf_result (hd : w.Live d) :
    ∃ ino, (nextInoOf (w.node d).volume w).result = .ok ino := by
  obtain ⟨ino, hino, -⟩ := h.numbered.ino_lt d hd
  refine ⟨ino, ?_⟩
  rw [nextInoOf, Query.look_bind, Query.result_expect, hino]
  rfl

/-- A directory of the memory filesystem makes a node under any name that is free. -/
theorem RamFs.result_insert (hd : w.Live d) (name : String) (mode : UInt32) (content : Content)
    (ops : Option OpsKind) : (insert (w.node d).volume d name mode content ops w).result =
      if w.isDirectory d then
        if (w.children d).contains name then .error .alreadyExists else .ok w.nodes.nextKey
      else .error .notADirectory := by
  obtain ⟨ino, hnext⟩ := nextInoOf_result h hd
  rw [insert, Action.result_query_bind, hnext, Except.bind, Action.result_query_bind,
    childrenOf_apply (h.ram d hd)]
  cases w.isDirectory d with
  | false => rfl
  | true =>
    rw [if_pos rfl, if_pos rfl, Except.bind, Action.result_query_bind, Query.result_demand]
    cases (w.children d).contains name with
    | true => rfl
    | false =>
      have hmade : (makeNode (w.node d).volume d mode content ops w).result =
          .ok w.nodes.nextKey := by
        rw [makeNode, Action.result_query_bind, hnext]
        rfl
      rcases hrun : makeNode (w.node d).volume d mode content ops w with ⟨e | n, w', t⟩ <;>
        rw [hrun] at hmade <;> cases hmade
      rw [Bool.not_false, if_pos rfl, if_neg Bool.false_ne_true, Except.bind, Action.bind_ok hrun]
      rfl

omit h in
/-- A file that is made is opened whatever the flags are. -/
theorem RamFs.result_createFile {v : VolumeKey} {name : String} {mode : UInt32}
    {r : Except Error NodeId} (hinserted : (insert v d name (Mode.make Mode.regular mode)
      (.file .empty) (w.node d).ops w).result = r) :
    (DriverKind.ram.createFile v d name flags mode w).result = r.map fun n => .stream n flags := by
  subst hinserted
  have hopened : (DriverKind.ram.createFile v d name flags mode w).result =
      (createFile v d name flags mode w).result := by
    rw [DriverKind.createFile, Action.result_note_bind]
    refine (Action.result_bind_tail (g := id) fun _ _ => rfl).trans ?_
    exact id_map (f := Except Error) _
  rw [hopened, createFile, inheritedOps, Action.result_query_bind]
  exact Action.result_bind_tail fun _ _ => rfl

theorem createNode_result (hd : w.Live d) (name : String) (flags : OpenFlags) (mode : UInt32) :
    (createNode d name flags mode w).result = w.makesFile d name flags := by
  have hwriting := result_volumeForWriting h hd
  rw [World.onReadOnly] at hwriting
  rw [createNode, World.makesFile, Action.result_query_bind, Query.result_ofResult]
  cases checkName name with
  | error e => rfl
  | ok u =>
    rw [Except.bind, Action.result_query_bind, hwriting]
    cases (w.volume (w.node d).volume).flags.isReadOnly with
    | true => rfl
    | false =>
      show ((w.node d).driver.createFile (w.node d).volume d name flags mode w).result =
        if w.isDirectory d then _ else _
      have hinserted := RamFs.result_insert h hd name (Mode.make Mode.regular mode) (.file .empty)
        (w.node d).ops
      rw [(h.ram d hd).driver, RamFs.result_createFile hinserted]
      split
      · split <;> rfl
      · rfl

/-- An open of a name that is listed comes to what is seen there, or to where that leads. -/
theorem resolveIn_opened (t : TaskId) {name : String} {c : NodeId}
    (he : w.Entry d name c) (flags : OpenFlags) :
    (resolveIn t d name (openLookup flags) w).result =
      if flags.nofollow then .ok (w.cross c) else (followFor t d (w.cross c) w).result := by
  have hseen := World.lookIn_entry h he true
  rw [resolveIn, resolveName_eq_lookIn, openLookup]
  cases flags.nofollow <;>
    exact (Query.result_bind _ _ w).trans (congrArg (Except.bind · _) hseen)

/-- A name is opened as what it leads to; if it leads to nothing, the file is made that it is to
name. -/
theorem openName_result (t : TaskId) (hd : w.Known d) (name : String) (flags : OpenFlags)
    (mode : UInt32) : (openName t d name flags mode w).result =
      match (resolveIn t d name (openLookup flags) w).result with
      | .ok n =>
        if flags.creates && flags.exclusive then .error .alreadyExists else w.opensAs n flags
      | .error e =>
        if e = .notFound ∧ flags.creates = true then w.makesFile d name flags else .error e := by
  rw [openName, Action.result_query_bind, Query.result_attempt, ← openLookup, Except.bind]
  cases hfound : (resolveIn t d name (openLookup flags) w).result with
  | ok n =>
    dsimp only
    rw [Action.result_query_bind, Query.result_demand]
    cases flags.creates && flags.exclusive with
    | true => rfl
    | false => exact openFound_result h (h.sound.known_opened hd hfound).live flags
  | error e =>
    dsimp only
    split
    · exact createNode_result h hd.live name flags mode
    · rfl

omit h in
/-- Once its directory is found, a path is opened as its last name is. -/
theorem ended_pathOpening {base : Option Handle} {path : String}
    (hfound : (resolveTarget t base path w).result = .ok (d, name)) :
    (pathOpening t base path flags mode).ended w = (openName t d name flags mode).ended w := by
  obtain ⟨start, hstart, hparent⟩ := Query.result_bind_eq_ok.1 hfound
  rw [pathOpening, ended_query_bind hstart, ended_query_bind hparent]

omit h in
theorem pathOpening_result (t : TaskId) (base : Option Handle) (path : String) (flags : OpenFlags)
    (mode : UInt32) : (pathOpening t base path flags mode w).result =
      (resolveTarget t base path w).result.bind fun found =>
        (openName t found.1 found.2 flags mode w).result := by
  rw [pathOpening, resolveTarget, Action.result_query_bind, Query.result_bind]
  cases (startNode t base w).result with
  | error e => rfl
  | ok start => exact Action.result_query_bind (resolveParent t start path) _ w

end VirtualFs
