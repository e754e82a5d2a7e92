import FuseOverlay.Answers
import FuseOverlay.TreeInvariant

namespace FuseOverlay

/-!
# Loading a directory

`load_dir_impl` keeps the record of a directory node as the ledgers describe
it: every turn of its entry loop is `Ledger.enter`, so a layer adds
`Ledger.add`, and the layer loop adds the layers that it reaches one after
another.
-/

open Act (Keeps Holds)

namespace OvlNode

/-- What a ledger says of a child. -/
def found (node : OvlNode) : Found :=
  ⟨node.layerIdx, node.isDir, node.lastLayerIdx⟩

@[simp] theorem found_insertWhiteout
    (node : OvlNode)
    (name : Name) :
    (node.insertWhiteout name).found = node.found := by
  cases shape : node.dirState <;>
    simp [insertWhiteout, found, OvlNode.isDir, shape]

@[simp] theorem found_insertChild
    (node : OvlNode)
    (name : Name)
    (child : NodeId) :
    (node.insertChild name child).found = node.found := by
  cases shape : node.dirState <;>
    simp [insertChild, found, OvlNode.isDir, shape]

@[simp] theorem found_markLoaded
    (node : OvlNode) :
    node.markLoaded.found = node.found := by
  cases shape : node.dirState <;>
    simp [markLoaded, found, OvlNode.isDir, shape]

end OvlNode

/-! ## The record of a node -/

/-- The ledger is what a node of the arena records. -/
structure RecordedBy
    (nodes : NodeArena)
    (node : OvlNode)
    (ledger : Ledger) : Prop where
  white : ∀ name, ledger.white name = node.isWhiteout name
  known :
    ∀ name, (ledger.child name).isSome = (node.getChild name).isSome
  child :
    ∀ {name id below}, node.getChild name = some id →
      nodes.get? id = some below → ledger.child name = some below.found

/-- The record of a node of the arena. -/
def ledgerOf
    (nodes : NodeArena)
    (node : OvlNode) :
    Ledger where
  child name :=
    (node.getChild name).map fun id =>
      ((nodes.get? id).map OvlNode.found).getD ⟨0, false, 0⟩
  white := node.isWhiteout

theorem recordedBy_ledgerOf
    (nodes : NodeArena)
    (node : OvlNode) :
    RecordedBy nodes node (ledgerOf nodes node) where
  white _ := rfl
  known _ := by simp [ledgerOf]
  child isChild stored := by simp [ledgerOf, isChild, stored]

/-- The state of a directory that is being loaded. -/
structure Records
    (os : Os)
    (parentId : NodeId)
    (ledger : Ledger)
    (sys : Sys) : Prop where
  ok : Daemon.TreeOk sys
  sameOs : sys.os = os
  parent :
    ∃ node, sys.nodes.get? parentId = some node ∧ node.isDir = true ∧
      RecordedBy sys.nodes node ledger

namespace Records

variable
  {os : Os}
  {parentId : NodeId}
  {ledger : Ledger}
  {sys : Sys}

/-- A change of nodes that a record does not see. -/
theorem child_modify
    {node below : OvlNode}
    {nodes : NodeArena}
    {id changed : NodeId}
    {name : Name}
    {change : OvlNode → OvlNode}
    (recorded : RecordedBy nodes node ledger)
    (sameFound : ∀ node, (change node).found = node.found)
    (isChild : node.getChild name = some id)
    (stored : (nodes.modify changed change).get? id = some below) :
    ledger.child name = some below.found := by
  rw [NodeArena.get?_modify] at stored
  split at stored
  · next same =>
      obtain ⟨old, oldStored, rfl⟩ := Option.map_eq_some_iff.mp stored
      rw [sameFound]
      exact recorded.child isChild (same ▸ oldStored)
  · exact recorded.child isChild stored

/-- A child of the loaded directory that is seen on one more layer. -/
theorem see
    (records : Records os parentId ledger sys)
    {name : Name}
    {id : NodeId}
    {found : Found}
    (entry : sys.nodes.Entry parentId name id)
    (isChild : ledger.child name = some found)
    (layerIdx : Nat) :
    Records os parentId (ledger.setChild name (found.seen layerIdx))
      { sys with
        nodes := sys.nodes.modify id fun node =>
          { node with lastLayerIdx := layerIdx } } := by
  obtain ⟨node, stored, isDir, recorded⟩ := records.parent
  have changes :
      ∃ node', (sys.nodes.modify id fun node =>
          { node with lastLayerIdx := layerIdx }).get? parentId = some node' ∧
        node'.dirState = node.dirState := by
    rw [NodeArena.get?_modify]
    split
    · next same =>
        rw [← same, stored]
        exact ⟨_, rfl, rfl⟩
    · exact ⟨node, stored, rfl⟩
  obtain ⟨node', stored', sameDir⟩ := changes
  have sameChild : ∀ query, node'.getChild query = node.getChild query := by
    intro query
    simp [OvlNode.getChild, sameDir]
  have nameChild : node.getChild name = some id := by
    obtain ⟨other, otherStored, otherChild⟩ := entry
    rw [stored] at otherStored
    cases otherStored
    exact otherChild
  refine ⟨(Daemon.calm_setLastLayer id layerIdx).treeOk sys records.ok,
    records.sameOs, node', stored', ?_, ?_, ?_, ?_⟩
  · simpa [OvlNode.isDir, sameDir] using isDir
  · intro query
    rw [OvlNode.isWhiteout, sameDir]
    exact recorded.white query
  · intro query
    rw [sameChild, ← recorded.known]
    by_cases same : query = name
    · simp [Ledger.setChild, same, isChild]
    · simp [Ledger.setChild, same]
  · intro query child below queryChild belowStored
    rw [sameChild] at queryChild
    rw [NodeArena.get?_modify] at belowStored
    by_cases same : query = name
    · subst same
      rw [nameChild] at queryChild
      cases queryChild
      rw [if_pos rfl] at belowStored
      obtain ⟨old, oldStored, rfl⟩ := Option.map_eq_some_iff.mp belowStored
      have oldFound := recorded.child nameChild oldStored
      rw [isChild] at oldFound
      cases oldFound
      simp only [Ledger.setChild, Function.update_self]
      rfl
    · have other : child ≠ id := by
        rintro rfl
        have live : sys.nodes.Live child := by
          rw [if_pos rfl] at belowStored
          obtain ⟨old, oldStored, -⟩ := Option.map_eq_some_iff.mp belowStored
          exact ⟨old, oldStored⟩
        exact same (records.ok.tree.entry_inj ⟨node, stored, queryChild⟩
          entry live (by simp)).2
      rw [if_neg other] at belowStored
      have unchanged :
          (ledger.setChild name (found.seen layerIdx)).child query =
            ledger.child query :=
        Function.update_of_ne same ..
      rw [unchanged]
      exact recorded.child queryChild belowStored

/-- A name is whited out. -/
theorem whiten
    (records : Records os parentId ledger sys)
    (name : Name) :
    Records os parentId (ledger.setWhite name)
      { sys with
        nodes := sys.nodes.modify parentId (·.insertWhiteout name) } := by
  obtain ⟨node, stored, isDir, recorded⟩ := records.parent
  have sameChild :
      ∀ query, (node.insertWhiteout name).getChild query =
        node.getChild query :=
    OvlNode.getChild_of_shape (OvlNode.shape_insertWhiteout node name)
  refine ⟨(Daemon.Still.of_mild
    (Daemon.mild_insertWhiteout parentId name)).treeOk sys records.ok,
    records.sameOs, node.insertWhiteout name, ?_, ?_, ?_, ?_, ?_⟩
  · rw [NodeArena.get?_modify, if_pos rfl, stored]
    rfl
  · exact (OvlNode.isDir_of_shape
      (OvlNode.shape_insertWhiteout node name)).trans isDir
  · intro query
    rw [OvlNode.isWhiteout_insertWhiteout isDir]
    by_cases same : query = name
    · simp [Ledger.setWhite, same]
    · simp [Ledger.setWhite, same, recorded.white]
  · intro query
    rw [sameChild]
    exact recorded.known query
  · intro query child below queryChild belowStored
    rw [sameChild] at queryChild
    have sameLedger : (ledger.setWhite name).child query =
        ledger.child query := rfl
    rw [sameLedger]
    exact child_modify recorded (OvlNode.found_insertWhiteout · name)
      queryChild belowStored

/-- A new child. -/
theorem adopt
    (records : Records os parentId ledger sys)
    {name : Name}
    {child : OvlNode}
    (free : ledger.taken name = false)
    (points : child.parent = some parentId)
    (label : child.name = name)
    (bare : Daemon.Bare child) :
    Records os parentId (ledger.setChild name child.found)
      { sys with
        nodes := (sys.nodes.insert child).2.modify parentId
          (·.insertChild child.name sys.nodes.nextId) } := by
  subst label
  obtain ⟨node, stored, isDir, recorded⟩ := records.parent
  simp only [Ledger.taken, Bool.or_eq_false_iff] at free
  have noChild : node.getChild child.name = none := by
    have unknown := recorded.known child.name
    rw [free.1] at unknown
    exact Option.isSome_eq_false_iff.mp unknown.symm
      |> Option.isNone_iff_eq_none.mp
  have absent : Daemon.Absent parentId child.name sys.forest := by
    rintro other ⟨found, foundStored, isChild⟩
    change sys.nodes.get? parentId = some found at foundStored
    rw [stored] at foundStored
    cases foundStored
    rw [noChild] at isChild
    cases isChild
  have still := Daemon.still_insertChildNode bare points rfl sys
    ⟨Daemon.StillFrom.refl records.ok, absent⟩
  have old : parentId ≠ sys.nodes.nextId :=
    Nat.ne_of_lt (records.ok.tree.bounded ⟨node, stored⟩)
  refine ⟨still.1.ok, records.sameOs,
    node.insertChild child.name sys.nodes.nextId, ?_, ?_, ?_, ?_, ?_⟩
  · rw [NodeArena.get?_modify, if_pos rfl, NodeArena.get?_insert,
      if_neg old, stored]
    rfl
  · rw [OvlNode.isDir_insertChild]
    exact isDir
  · intro query
    rw [OvlNode.isWhiteout_insertChild]
    by_cases same : query = child.name
    · simp [same, isDir, Ledger.setChild, free.2]
    · simp [same, Ledger.setChild, recorded.white]
  · intro query
    rw [OvlNode.getChild_insertChild]
    by_cases same : query = child.name
    · simp [same, isDir, Ledger.setChild]
    · simp [same, Ledger.setChild, recorded.known]
  · intro query id below queryChild belowStored
    rw [OvlNode.getChild_insertChild] at queryChild
    by_cases same : query = child.name
    · rw [if_pos ⟨isDir, same⟩] at queryChild
      cases queryChild
      rw [NodeArena.get?_modify, if_neg (Ne.symm old),
        NodeArena.get?_insert, if_pos rfl] at belowStored
      cases belowStored
      simp [Ledger.setChild, same]
    · rw [if_neg fun both => same both.2] at queryChild
      have older : id ≠ sys.nodes.nextId :=
        Nat.ne_of_lt (records.ok.tree.entryBounded
          ⟨node, stored, queryChild⟩)
      have unchanged :
          (ledger.setChild child.name child.found).child query =
            ledger.child query :=
        Function.update_of_ne same ..
      rw [unchanged]
      refine child_modify ⟨recorded.white, recorded.known, ?_⟩
        (OvlNode.found_insertChild · child.name sys.nodes.nextId)
        queryChild belowStored
      intro other otherId otherNode otherChild otherStored
      have otherOld : otherId ≠ sys.nodes.nextId :=
        Nat.ne_of_lt (records.ok.tree.entryBounded
          ⟨node, stored, otherChild⟩)
      rw [NodeArena.get?_insert, if_neg otherOld] at otherStored
      exact recorded.child otherChild otherStored

/-- Marking the directory as loaded. -/
theorem markLoaded
    (records : Records os parentId ledger sys) :
    Records os parentId ledger
      { sys with nodes := sys.nodes.modify parentId OvlNode.markLoaded } := by
  obtain ⟨node, stored, isDir, recorded⟩ := records.parent
  have sameShape := OvlNode.shape_markLoaded node
  have calm : Daemon.Calm (Daemon.modifyNode parentId OvlNode.markLoaded) :=
    .modifyNode parentId OvlNode.shape_markLoaded
      OvlNode.isWhiteout_markLoaded
  refine ⟨calm.treeOk sys records.ok, records.sameOs, node.markLoaded,
    ?_, ?_, ?_, ?_, ?_⟩
  · rw [NodeArena.get?_modify, if_pos rfl, stored]
    rfl
  · exact (OvlNode.isDir_of_shape sameShape).trans isDir
  · intro name
    rw [OvlNode.isWhiteout_markLoaded]
    exact recorded.white name
  · intro name
    rw [OvlNode.getChild_of_shape sameShape]
    exact recorded.known name
  · intro name id below isChild belowStored
    rw [OvlNode.getChild_of_shape sameShape] at isChild
    exact child_modify recorded OvlNode.found_markLoaded isChild
      belowStored

end Records

/-! ## One entry -/

open Syscall Whiteout

/-- What loading makes of an object; the type may be unknown to it. -/
def itemOf
    (env : Env)
    (layerIdx : Nat)
    (obj : Obj) :
    Item :=
  if obj.isWhiteoutDev then .whiteout
  else .object (obj.kind = .dir
    && (!env.config.fastInoCheck || reportsType env layerIdx))

/-- The directory at a path of a layer, as loading reads it. -/
def listingAt
    (env : Env)
    (disk : Disk)
    (layerIdx : Nat)
    (path : Path) :
    Listing :=
  fun name => (disk.objAt layerIdx path name).map (itemOf env layerIdx)

/-- A directory entry is true to the object under its name. -/
def Truthful
    (env : Env)
    (disk : Disk)
    (layerIdx : Nat)
    (path : Path)
    (entry : DirEntry) : Prop :=
  isSkipped entry.name = false →
    ∃ obj, disk.objAt layerIdx path entry.name = some obj ∧
      entry.dtype = if reportsType env layerIdx then some obj.kind else none

theorem notDot_of_not_skipped
    {name : Name}
    (notSkipped : isSkipped name = false) :
    name ≠ dotName := by
  rintro rfl
  simp [isSkipped] at notSkipped

namespace Daemon

variable {env : Env} {os : Os} {layerIdx : Nat} {path : Path}

theorem isChardevWhiteout_of_obj
    {obj : Obj}
    {st : Stat}
    (mode : st.mode = ⟨some obj.kind, obj.perm⟩)
    (rdev : st.rdev = obj.rdev) :
    isChardevWhiteout st = obj.isWhiteoutDev := by
  simp [isChardevWhiteout, Obj.isWhiteoutDev, mode, rdev]

theorem answers_isDeviceEntry
    (noFaults : os.faults = [])
    {entry : DirEntry}
    {obj : Obj}
    (notDot : entry.name ≠ dotName)
    (stored : os.disk.objAt layerIdx path entry.name = some obj)
    (dtype :
      entry.dtype = if reportsType env layerIdx then some obj.kind else none) :
    Answers (isDeviceEntry layerIdx path entry) os
      (.ok obj.isWhiteoutDev) := by
  unfold isDeviceEntry
  split
  · obtain ⟨st, answer, mode, rdev, -⟩ :=
      (Disk.statat_of_objAt notDot).1 obj stored
    have asked := (answers_statat noFaults (.layer layerIdx)
      (path ++ [entry.name])).attempt
    rw [answer] at asked
    refine .bind asked ?_
    rw [← isChardevWhiteout_of_obj mode rdev]
    exact .pure _
  · next other =>
      have notDevice : obj.isWhiteoutDev = false := by
        rw [dtype] at other
        by_cases reports : reportsType env layerIdx = true
        · simp [reports] at other
          simp [Obj.isWhiteoutDev, other]
        · simp [reports] at other
      rw [notDevice]
      exact .pure false

theorem answers_entryAttr
    (noFaults : os.faults = [])
    {entry : DirEntry}
    {obj : Obj}
    (notDot : entry.name ≠ dotName)
    (stored : os.disk.objAt layerIdx path entry.name = some obj)
    (dtype :
      entry.dtype = if reportsType env layerIdx then some obj.kind else none) :
    ∃ ino dev mode, Answers (entryAttr env layerIdx path entry) os
        (.ok (ino, dev, mode)) ∧
      (mode.isDir || decide (entry.dtype = some .dir)) =
        (decide (obj.kind = .dir)
          && (!env.config.fastInoCheck || reportsType env layerIdx)) := by
  unfold entryAttr
  cases fast : env.config.fastInoCheck with
  | true =>
      refine ⟨_, _, _, .pure _, ?_⟩
      rw [dtype]
      by_cases reports : reportsType env layerIdx = true
      · by_cases isDir : obj.kind = .dir <;>
          simp [reports, isDir, Mode.isDir, Mode.ifDir, Mode.zero]
      · simp [reports, Mode.isDir, Mode.zero]
  | false =>
      obtain ⟨st, answer, mode, rdev, -⟩ :=
        (Disk.statat_of_objAt notDot).1 obj stored
      have asked := (answers_statat noFaults (.layer layerIdx)
        (path ++ [entry.name])).attempt
      rw [answer] at asked
      refine ⟨st.ino, st.dev, st.mode, .bind asked (.pure _), ?_⟩
      rw [mode, dtype]
      by_cases reports : reportsType env layerIdx = true
      · simp [reports, Mode.isDir]
      · simp [reports, Mode.isDir]

/-- The action ends well and leaves the ledger. -/
def Leaves
    (os : Os)
    (parentId : NodeId)
    (ledger : Ledger)
    (outcome : Except Errno Unit)
    (sys : Sys) : Prop :=
  outcome = .ok () ∧ Records os parentId ledger sys

/-- An object that no higher layer decided becomes a child. -/
theorem leaves_loadNormalEntry
    {parentId : NodeId}
    {ledger : Ledger}
    {entry : DirEntry}
    {obj : Obj}
    (noFaults : os.faults = [])
    (notDot : entry.name ≠ dotName)
    (free : ledger.taken entry.name = false)
    (stored : os.disk.objAt layerIdx path entry.name = some obj)
    (dtype :
      entry.dtype = if reportsType env layerIdx then some obj.kind else none) :
    Holds (Records os parentId ledger)
      (loadNormalEntry env parentId path layerIdx entry)
      (Leaves os parentId
        (ledger.setChild entry.name (.new layerIdx (decide (obj.kind = .dir)
          && (!env.config.fastInoCheck || reportsType env layerIdx))))) := by
  intro sys records
  obtain ⟨ino, dev, mode, answers, kind⟩ :=
    @answers_entryAttr env os layerIdx path noFaults entry obj notDot stored
      dtype
  rw [← records.sameOs] at answers
  unfold loadNormalEntry
  rw [Act.bind_ok answers.lift]
  generalize flagShape :
    (mode.isDir || decide (entry.dtype = some .dir)) = flag at kind
  let child : OvlNode :=
    { OvlNode.new entry.name layerIdx ino dev flag with
      mode := mode
      lastLayerIdx := layerIdx
      parent := some parentId }
  have bare : Bare child := @bare_of_dirState child flag rfl
  have seen : child.found = .new layerIdx flag := by
    cases flag <;> rfl
  have adopted := records.adopt free (show child.parent = _ from rfl) rfl bare
  rw [seen, kind] at adopted
  simp only [flagShape]
  exact ⟨rfl, adopted⟩

/-- An entry under a name that is free. -/
theorem leaves_loadNewEntry
    {parentId : NodeId}
    {ledger : Ledger}
    {entry : DirEntry}
    (noFaults : os.faults = [])
    (notSkipped : isSkipped entry.name = false)
    (free : ledger.taken entry.name = false)
    (truthful : Truthful env os.disk layerIdx path entry) :
    Holds (Records os parentId ledger)
      (loadNewEntry env parentId path layerIdx entry)
      (Leaves os parentId
        (ledger.enter (listingAt env os.disk layerIdx path) layerIdx
          entry.name)) := by
  intro sys records
  obtain ⟨obj, stored, dtype⟩ := truthful notSkipped
  have notDot := notDot_of_not_skipped notSkipped
  have noChild := Ledger.Scanned.child_eq_none free
  have noWhite : ledger.white entry.name = false := by
    simp only [Ledger.taken, Bool.or_eq_false_iff] at free
    exact free.2
  have asked := @answers_isWhFile os layerIdx path noFaults entry.name
  rw [← records.sameOs] at asked
  unfold loadNewEntry
  rw [Act.bind_ok asked.lift, records.sameOs]
  simp only [Ledger.enter, notSkipped, noChild, noWhite, listingAt,
    Option.isSome_map, stored, Option.map_some, Bool.false_eq_true,
    ↓reduceIte]
  cases whFile : (os.disk.objAt layerIdx path (whName entry.name)).isSome with
  | true =>
      simp only [↓reduceIte]
      exact ⟨rfl, records.whiten entry.name⟩
  | false =>
      simp only [Bool.false_eq_true, ↓reduceIte]
      cases whPrefixName entry.name with
      | some whited =>
          obtain ⟨node, nodeStored, isDir, recorded⟩ := records.parent
          have known := recorded.known whited
          simp only
          rw [Act.bind_ok (show getNode parentId sys = (.ok (some node), sys)
            from by rw [← nodeStored]; rfl)]
          simp only [Option.bind_some, known]
          cases node.getChild whited with
          | some child =>
              exact ⟨rfl, records⟩
          | none =>
              exact ⟨rfl, records.whiten whited⟩
      | none =>
          have device := @answers_isDeviceEntry env os layerIdx path noFaults
            entry obj notDot stored dtype
          rw [← records.sameOs] at device
          simp only
          rw [Act.bind_ok device.lift]
          unfold itemOf
          cases isDevice : obj.isWhiteoutDev with
          | true =>
              exact ⟨rfl, records.whiten entry.name⟩
          | false =>
              exact leaves_loadNormalEntry noFaults notDot free stored dtype
                sys records

theorem leaves_loadEntry
    {parentId : NodeId}
    {ledger : Ledger}
    {entry : DirEntry}
    (noFaults : os.faults = [])
    (truthful : Truthful env os.disk layerIdx path entry) :
    Holds (Records os parentId ledger)
      (loadEntry env parentId path layerIdx entry)
      (Leaves os parentId
        (ledger.enter (listingAt env os.disk layerIdx path) layerIdx
          entry.name)) := by
  intro sys records
  unfold loadEntry
  by_cases skipped : entry.name = dotName ∨ entry.name = dotDotName ∨
      entry.name = opaqueWhiteout
  · have isSkip : isSkipped entry.name = true := by
      simpa [isSkipped, or_assoc] using skipped
    rw [if_pos skipped]
    refine ⟨rfl, ?_⟩
    simp only [Ledger.enter, isSkip, ↓reduceIte]
    exact records
  · have notSkip : isSkipped entry.name = false := by
      simpa [isSkipped, and_assoc] using skipped
    obtain ⟨node, stored, isDir, recorded⟩ := records.parent
    rw [if_neg skipped,
      Act.bind_ok (show getNode parentId sys = (.ok (some node), sys) from by
        rw [← stored]; rfl)]
    simp only [Option.bind_some]
    have known := recorded.known entry.name
    cases isChild : node.getChild entry.name with
    | some existingId =>
        rw [isChild, Option.isSome_some, Option.isSome_iff_exists] at known
        obtain ⟨found, foundChild⟩ := known
        refine ⟨rfl, ?_⟩
        simp only [Ledger.enter, notSkip, foundChild, Bool.false_eq_true,
          ↓reduceIte]
        exact records.see ⟨node, stored, isChild⟩ foundChild layerIdx
    | none =>
        rw [isChild, Option.isSome_none, Option.isSome_eq_false_iff,
          Option.isNone_iff_eq_none] at known
        have white := recorded.white entry.name
        cases isWhite : node.isWhiteout entry.name with
        | true =>
            simp only [Option.map_some, Option.getD_some, isWhite,
              ↓reduceIte]
            refine ⟨rfl, ?_⟩
            simp only [Ledger.enter, notSkip, known, white, isWhite,
              Bool.false_eq_true, ↓reduceIte]
            exact records
        | false =>
            simp only [Option.map_some, Option.getD_some, isWhite,
              Bool.false_eq_true, ↓reduceIte]
            have free : ledger.taken entry.name = false := by
              simp [Ledger.taken, known, white, isWhite]
            exact leaves_loadNewEntry noFaults notSkip free truthful sys
              records

/-! ## One layer -/

theorem leaves_each_loadEntry
    {parentId : NodeId}
    {ledger : Ledger}
    (noFaults : os.faults = [])
    (entries : List DirEntry)
    (truthful :
      ∀ entry ∈ entries, Truthful env os.disk layerIdx path entry) :
    Holds (Records os parentId ledger)
      (Act.each (loadEntry env parentId path layerIdx) entries)
      (Leaves os parentId
        (ledger.scan (listingAt env os.disk layerIdx path) layerIdx
          (entries.map (·.name)))) := by
  induction entries generalizing ledger with
  | nil =>
      exact fun sys records => ⟨rfl, records⟩
  | cons entry rest inductionHypothesis =>
      have first := @leaves_loadEntry env os layerIdx path parentId ledger
        entry noFaults (truthful entry (by simp))
      refine Holds.bind first (fun _ => ?_) ?_
      · rintro sys ⟨-, records⟩
        exact inductionHypothesis
          (fun other member => truthful other (by simp [member])) sys records
      · rintro errno sys ⟨failed, -⟩
        cases failed

/-- The stream of a directory is true to its objects and complete. -/
theorem truthful_opendir
    {disk : Disk}
    {dir : Loc}
    (proper : Disk.Proper path)
    (place : disk.placeAt (.layer layerIdx) path = .dir dir) :
    ∃ entries,
      disk.opendir (reportsType env layerIdx) (.layer layerIdx) path =
        .ok entries ∧
      (∀ entry ∈ entries, Truthful env disk layerIdx path entry) ∧
      ∀ name, (listingAt env disk layerIdx path name).isSome = true →
        name ∈ entries.map (·.name) := by
  have reached := Disk.dirAt_of_placeAt proper place
  have objects :
      ∀ name, disk.objAt layerIdx path name = disk.find? (dir.child name) := by
    intro name
    unfold Disk.objAt Disk.dirAt
    rw [reached]
    rfl
  have names :
      ∀ name, (disk.dirEntry (reportsType env layerIdx) dir name).name =
        name := by
    intro name
    unfold Disk.dirEntry
    split <;> rfl
  refine ⟨([dotName, dotDotName] ++ disk.list dir).map
    (disk.dirEntry (reportsType env layerIdx) dir), ?_, ?_, ?_⟩
  · have opened :
        disk.locate ⟨.layer layerIdx, []⟩ path = .ok dir ∧
          disk.kindAt dir = some .dir := by
      unfold Disk.placeAt at place
      split at place
      · cases place
      · next loc located =>
          split at place
          · cases place
          · next isDir =>
              cases place
              exact ⟨located, isDir⟩
          · cases place
    unfold Disk.opendir
    simp only [opened.1, opened.2]
  · intro entry member notSkipped
    obtain ⟨name, nameMember, rfl⟩ := List.mem_map.mp member
    rw [names] at notSkipped
    rcases List.mem_append.mp nameMember with special | listed
    · simp only [isSkipped, Bool.or_eq_false_iff, decide_eq_false_iff_not]
        at notSkipped
      simp [notSkipped] at special
    · rw [Disk.mem_list, Option.isSome_iff_exists] at listed
      obtain ⟨obj, found⟩ := listed
      refine ⟨obj, ?_, ?_⟩
      · rw [names, objects, found]
      · simp [Disk.dirEntry, found]
  · intro name found
    rw [List.map_map, List.mem_map]
    refine ⟨name, List.mem_append_right _ ?_, names name⟩
    rw [Disk.mem_list, ← objects]
    simpa [listingAt] using found

/-- A directory of one layer adds its listing. -/
theorem leaves_loadStream
    {parentId : NodeId}
    {ledger : Ledger}
    {dir : Loc}
    (noFaults : os.faults = [])
    (proper : Disk.Proper path)
    (place : os.disk.placeAt (.layer layerIdx) path = .dir dir)
    (stop : Bool) :
    Holds (Records os parentId ledger)
      (loadStream env parentId path layerIdx stop)
      fun outcome sys =>
        outcome = .ok (stop || opaqueAt env os.disk layerIdx path) ∧
          Records os parentId
            (ledger.add layerIdx (listingAt env os.disk layerIdx path))
            sys := by
  intro sys records
  obtain ⟨entries, stream, truthful, complete⟩ :=
    @truthful_opendir env layerIdx path os.disk dir proper place
  have opened :=
    (@answers_opendir env os noFaults layerIdx path).attempt
  rw [stream, ← records.sameOs] at opened
  unfold loadStream
  rw [Act.bind_ok opened.lift]
  have loaded := @leaves_each_loadEntry env os layerIdx path parentId ledger
    noFaults entries truthful sys records
  rw [Ledger.scan_eq_add layerIdx ledger ?_ complete] at loaded
  · rcases ran : Act.each (loadEntry env parentId path layerIdx) entries sys
      with ⟨outcome, later⟩
    rw [ran] at loaded
    obtain ⟨rfl, recorded⟩ := loaded
    obtain ⟨cut, asked, answer⟩ :=
      @answers_isDirectoryOpaque env os layerIdx path noFaults
    rw [← recorded.sameOs] at asked
    simp only
    rw [Act.bind_ok ran, Act.bind_ok asked.lift, answer]
    exact ⟨rfl, recorded⟩
  · intro name member notSkipped
    obtain ⟨entry, entryMember, rfl⟩ := List.mem_map.mp member
    obtain ⟨obj, stored, -⟩ := truthful entry entryMember notSkipped
    simp [listingAt, stored]

/-- Whether the layer loop stops after the layer by the cached index. -/
def stopsAt
    (lastLayerStop : Option Nat)
    (layerIdx : Nat) : Bool :=
  lastLayerStop = some layerIdx && 0 < layerIdx

/-- One turn of the layer loop, by what the layer has at the path. -/
theorem loadLayer_spec
    {parentId : NodeId}
    {ledger : Ledger}
    (noFaults : os.faults = [])
    (proper : Disk.Proper path)
    (quiet : os.disk.Quiet (.layer layerIdx) path)
    (lastLayerStop : Option Nat) :
    Holds (Records os parentId ledger)
      (loadLayer env parentId path lastLayerStop layerIdx)
      fun outcome sys =>
        match os.disk.placeAt (.layer layerIdx) path with
        | .missing =>
            outcome = .ok (some (stopsAt lastLayerStop layerIdx)) ∧
              Records os parentId ledger sys
        | .notDir =>
            outcome = .ok none ∧ Records os parentId ledger sys
        | .dir _ =>
            outcome = .ok (some (stopsAt lastLayerStop layerIdx
                || opaqueAt env os.disk layerIdx path)) ∧
              Records os parentId
                (ledger.add layerIdx (listingAt env os.disk layerIdx path))
                sys := by
  intro sys records
  have asked := (answers_statat noFaults (.layer layerIdx) path).attempt
  rw [← records.sameOs] at asked
  have answer := @Disk.statat_of_placeAt os.disk (.layer layerIdx) path quiet
  unfold loadLayer
  rw [Act.bind_ok asked.lift, records.sameOs]
  cases place : os.disk.placeAt (.layer layerIdx) path with
  | missing =>
      rw [place] at answer
      rcases answer with answer | answer
      · rw [answer]
        exact ⟨rfl, records⟩
      · rw [answer]
        exact ⟨rfl, records⟩
  | notDir =>
      rw [place] at answer
      obtain ⟨st, answer, notDir⟩ := answer
      rw [answer]
      simp only [notDir, Bool.false_eq_true, ↓reduceIte]
      exact ⟨rfl, records⟩
  | dir loc =>
      rw [place] at answer
      obtain ⟨st, answer, isDir⟩ := answer
      rw [answer]
      simp only [isDir, ↓reduceIte]
      have loaded := @leaves_loadStream env os layerIdx path parentId ledger
        loc noFaults proper place (stopsAt lastLayerStop layerIdx) sys records
      rcases ran : loadStream env parentId path layerIdx
          (stopsAt lastLayerStop layerIdx) sys with ⟨outcome, later⟩
      rw [ran] at loaded
      obtain ⟨rfl, recorded⟩ := loaded
      have mapped := Act.map_ok ran some
      unfold stopsAt at mapped
      rw [mapped]
      exact ⟨rfl, recorded⟩

/-! ## All layers -/

/-- The layers whose directories the loop reads, in order. -/
def readLayers
    (env : Env)
    (disk : Disk)
    (path : Path)
    (lastLayerStop : Option Nat) :
    List Nat → List Nat
  | [] => []
  | layerIdx :: rest =>
      match disk.placeAt (.layer layerIdx) path with
      | .missing =>
          if stopsAt lastLayerStop layerIdx then []
          else readLayers env disk path lastLayerStop rest
      | .notDir => []
      | .dir _ =>
          layerIdx ::
            if stopsAt lastLayerStop layerIdx
                || opaqueAt env disk layerIdx path then []
            else readLayers env disk path lastLayerStop rest

/-- The record after some layers. -/
def addLayers
    (env : Env)
    (disk : Disk)
    (path : Path)
    (ledger : Ledger)
    (layers : List Nat) :
    Ledger :=
  layers.foldl
    (fun now layerIdx => now.add layerIdx (listingAt env disk layerIdx path))
    ledger

@[simp] theorem addLayers_nil
    (env : Env)
    (disk : Disk)
    (path : Path)
    (ledger : Ledger) :
    addLayers env disk path ledger [] = ledger :=
  rfl

@[simp] theorem addLayers_cons
    (env : Env)
    (disk : Disk)
    (path : Path)
    (ledger : Ledger)
    (layerIdx : Nat)
    (rest : List Nat) :
    addLayers env disk path ledger (layerIdx :: rest) =
      addLayers env disk path
        (ledger.add layerIdx (listingAt env disk layerIdx path)) rest :=
  rfl

theorem addLayers_append
    (env : Env)
    (disk : Disk)
    (path : Path)
    (ledger : Ledger)
    (before rest : List Nat) :
    addLayers env disk path ledger (before ++ rest) =
      addLayers env disk path (addLayers env disk path ledger before) rest :=
  List.foldl_append ..

theorem leaves_loadLayers
    {parentId : NodeId}
    {ledger : Ledger}
    (noFaults : os.faults = [])
    (proper : Disk.Proper path)
    (lastLayerStop : Option Nat)
    (layers : List Nat)
    (quiet : ∀ idx ∈ layers, os.disk.Quiet (.layer idx) path) :
    Holds (Records os parentId ledger)
      (loadLayers env parentId path lastLayerStop layers)
      (Leaves os parentId (addLayers env os.disk path ledger
        (readLayers env os.disk path lastLayerStop layers))) := by
  induction layers generalizing ledger with
  | nil =>
      exact fun sys records => ⟨rfl, records⟩
  | cons layerIdx rest inductionHypothesis =>
      intro sys records
      have turn := @loadLayer_spec env os layerIdx path parentId ledger
        noFaults proper (quiet layerIdx (by simp)) lastLayerStop sys records
      have goesOn := fun {ledger : Ledger} => @inductionHypothesis ledger
        fun idx member => quiet idx (by simp [member])
      rcases ran : loadLayer env parentId path lastLayerStop layerIdx sys with
        ⟨outcome, later⟩
      rw [ran] at turn
      unfold loadLayers readLayers
      rw [Act.bind_apply, ran]
      cases place : os.disk.placeAt (.layer layerIdx) path with
      | missing =>
          rw [place] at turn
          obtain ⟨rfl, recorded⟩ := turn
          cases stopsAt lastLayerStop layerIdx with
          | true =>
              exact ⟨rfl, recorded⟩
          | false =>
              exact goesOn later recorded
      | notDir =>
          rw [place] at turn
          obtain ⟨rfl, recorded⟩ := turn
          exact ⟨rfl, recorded⟩
      | dir loc =>
          rw [place] at turn
          obtain ⟨rfl, recorded⟩ := turn
          simp only [addLayers_cons]
          cases stopsAt lastLayerStop layerIdx
              || opaqueAt env os.disk layerIdx path with
          | true =>
              exact ⟨rfl, recorded⟩
          | false =>
              exact goesOn later recorded

/-- The record that `load_dir_impl` leaves. -/
theorem leaves_loadDirImpl
    {parentId : NodeId}
    {ledger : Ledger}
    (noFaults : os.faults = [])
    (proper : Disk.Proper path)
    (lastLayerStop : Option Nat)
    (quiet :
      ∀ idx < env.layers.length, os.disk.Quiet (.layer idx) path) :
    Holds (Records os parentId ledger)
      (loadDirImpl env parentId path lastLayerStop)
      (Leaves os parentId (addLayers env os.disk path ledger
        (readLayers env os.disk path lastLayerStop (layerIndices env)))) := by
  refine Holds.bind (leaves_loadLayers noFaults proper lastLayerStop _ ?_)
    (fun _ => ?_) ?_
  · intro idx member
    exact quiet idx (List.mem_range.mp member)
  · rintro sys ⟨-, records⟩
    exact ⟨rfl, records.markLoaded⟩
  · rintro errno sys ⟨failed, -⟩
    cases failed

end Daemon

end FuseOverlay
