import FuseOverlay.Loading
import FuseOverlay.Sample
import FuseOverlay.TreeInvariant

namespace FuseOverlay

/-!
# The order of directory streams

A directory delivers its entries in an order of its own.  `Reordered` trees have
the same contents and differ in that order only.  Loading a directory from them
leaves the same children, the same whiteouts and the same flag: the record is
the one of `Ledger.add` on every layer, and the inode number, device and mode of
a new child are those of its object.
-/

namespace Disk

/-- The same trees, whose directories deliver their entries in other orders. -/
structure Reordered (first second : Disk) : Prop where
  names : second.names.entries.Perm first.names.entries
  objs : second.objs = first.objs
  dev : second.dev = first.dev

namespace Reordered

variable {first second : Disk} (reordered : Reordered first second)

include reordered

theorem named
    (loc : Loc) :
    second.names.get? loc = first.names.get? loc :=
  AList.perm_lookup reordered.names

theorem find?
    (loc : Loc) :
    second.find? loc = first.find? loc := by
  unfold Disk.find?
  rw [reordered.named, reordered.objs]

theorem kindAt
    (loc : Loc) :
    second.kindAt loc = first.kindAt loc := by
  unfold Disk.kindAt
  rw [reordered.find?]

theorem openDir
    (base : Loc)
    (path : Path) :
    second.openDir base path = first.openDir base path :=
  openDir_congr (.of_find? fun _ => reordered.find? _) path

theorem locate
    (base : Loc)
    (path : Path) :
    second.locate base path = first.locate base path :=
  locate_congr (.of_find? fun _ => reordered.find? _) path

theorem placeAt
    (root : Root)
    (path : Path) :
    second.placeAt root path = first.placeAt root path := by
  unfold Disk.placeAt
  simp only [reordered.locate, reordered.kindAt]

theorem objAt
    (layerIdx : Nat)
    (path : Path)
    (name : Name) :
    second.objAt layerIdx path name = first.objAt layerIdx path name := by
  unfold Disk.objAt Disk.dirAt
  simp only [reordered.openDir, reordered.find?]

theorem getxattr
    (root : Root)
    (path : Path)
    (attr : Name) :
    second.getxattr root path attr = first.getxattr root path attr := by
  unfold Disk.getxattr Disk.xattrOf
  simp only [reordered.locate, reordered.named, reordered.objs]

/-- The answers of `statat` differ at most in the number of links. -/
theorem statat
    (root : Root)
    (path : Path) :
    (second.statat root path).map (·.mode) =
      (first.statat root path).map (·.mode) := by
  unfold Disk.statat
  rw [reordered.locate]
  cases first.locate ⟨root, []⟩ path with
  | error errno =>
      rfl
  | ok loc =>
      simp only [statLoc, reordered.named]
      cases first.names.get? loc with
      | none =>
          rfl
      | some id =>
          simp only [reordered.objs]
          cases first.objs.get? id <;> rfl

end Reordered

end Disk

theorem opaqueAt_reordered
    {first second : Disk}
    (reordered : first.Reordered second)
    (env : Env)
    (layerIdx : Nat)
    (path : Path) :
    Syscall.opaqueAt env second layerIdx path =
      Syscall.opaqueAt env first layerIdx path := by
  have sameAttrs :
      Syscall.opaqueXattrAt env second layerIdx path =
        Syscall.opaqueXattrAt env first layerIdx path := by
    funext attr
    unfold Syscall.opaqueXattrAt
    simp only [reordered.getxattr]
  unfold Syscall.opaqueAt
  rw [sameAttrs, reordered.objAt]

theorem listingAt_reordered
    {first second : Disk}
    (reordered : first.Reordered second)
    (env : Env)
    (layerIdx : Nat)
    (path : Path) :
    listingAt env second layerIdx path = listingAt env first layerIdx path := by
  funext name
  unfold listingAt
  rw [reordered.objAt]

theorem Disk.dev_of_statat
    {disk : Disk}
    {root : Root}
    {path : Path}
    {st : Stat}
    (answer : disk.statat root path = .ok st) :
    st.dev = disk.dev root := by
  unfold Disk.statat at answer
  cases located : disk.locate ⟨root, []⟩ path with
  | error errno =>
      rw [located] at answer
      cases answer
  | ok loc =>
      have sameRoot := root_of_locate located
      rw [located] at answer
      simp only [Disk.statLoc] at answer
      split at answer
      · cases answer
      · split at answer
        · cases answer
        · cases answer
          exact congrArg disk.dev sameRoot

/-! ## The record of a loaded directory -/

namespace Daemon

open Syscall

variable {env : Env} {parentId : NodeId} {path : Path}

/-- The place that `statat` answers with the mode of a directory. -/
theorem placeAt_of_statat
    {disk : Disk}
    {root : Root}
    {st : Stat}
    (answer : disk.statat root path = .ok st)
    (isDir : st.mode.isDir = true) :
    ∃ dir, disk.placeAt root path = .dir dir := by
  unfold Disk.statat at answer
  unfold Disk.placeAt
  cases located : disk.locate ⟨root, []⟩ path with
  | error errno =>
      rw [located] at answer
      cases answer
  | ok loc =>
      rw [located] at answer
      simp only [Disk.statLoc] at answer
      cases named : disk.names.get? loc with
      | none =>
          rw [named] at answer
          cases answer
      | some id =>
          rw [named] at answer
          cases stored : disk.objs.get? id with
          | none =>
              simp only [stored] at answer
              cases answer
          | some obj =>
              simp only [stored, Except.ok.injEq] at answer
              have kind : obj.kind = .dir := by
                rw [← answer] at isDir
                simpa [Disk.statObj, Mode.isDir] using isDir
              have found : disk.kindAt loc = some .dir := by
                simp [Disk.kindAt, Disk.find?, named, stored, kind]
              exact ⟨loc, by simp [found]⟩

/-- What one layer does to the record: whether the loop goes on, and if so
whether the directory is opaque there, and the record afterwards. -/
def layerEffect
    (env : Env)
    (disk : Disk)
    (path : Path)
    (layerIdx : Nat)
    (ledger : Ledger) :
    Option Bool × Ledger :=
  match disk.statat (.layer layerIdx) path with
  | .ok st =>
      if st.mode.isDir then
        (some (opaqueAt env disk layerIdx path),
          ledger.add layerIdx (listingAt env disk layerIdx path))
      else
        (none, ledger)
  | .error .ENOENT | .error .ENOTDIR => (some false, ledger)
  | .error _ => (none, ledger)

/-- The record after the layer loop. -/
def loadRecord
    (env : Env)
    (disk : Disk)
    (path : Path)
    (lastLayerStop : Option Nat) :
    List Nat → Ledger → Ledger
  | [], ledger => ledger
  | layerIdx :: rest, ledger =>
      match layerEffect env disk path layerIdx ledger with
      | (some false, now) =>
          if stopsAt lastLayerStop layerIdx then now
          else loadRecord env disk path lastLayerStop rest now
      | (_, now) => now

theorem layerEffect_reordered
    {first second : Disk}
    (reordered : first.Reordered second)
    (env : Env)
    (path : Path)
    (layerIdx : Nat)
    (ledger : Ledger) :
    layerEffect env second path layerIdx ledger =
      layerEffect env first path layerIdx ledger := by
  have sameMode := reordered.statat (.layer layerIdx) path
  unfold layerEffect
  rw [opaqueAt_reordered reordered, listingAt_reordered reordered]
  cases firstAnswer : first.statat (.layer layerIdx) path with
  | error errno =>
      rw [firstAnswer] at sameMode
      cases secondAnswer : second.statat (.layer layerIdx) path with
      | ok st =>
          rw [secondAnswer] at sameMode
          cases sameMode
      | error errno' =>
          rw [secondAnswer] at sameMode
          cases sameMode
          rfl
  | ok st =>
      rw [firstAnswer] at sameMode
      cases secondAnswer : second.statat (.layer layerIdx) path with
      | error errno =>
          rw [secondAnswer] at sameMode
          cases sameMode
      | ok st' =>
          rw [secondAnswer] at sameMode
          have sameMode : st'.mode = st.mode := Except.ok.inj sameMode
          simp only [sameMode]

theorem loadRecord_reordered
    {first second : Disk}
    (reordered : first.Reordered second)
    (env : Env)
    (path : Path)
    (lastLayerStop : Option Nat)
    (layers : List Nat)
    (ledger : Ledger) :
    loadRecord env second path lastLayerStop layers ledger =
      loadRecord env first path lastLayerStop layers ledger := by
  induction layers generalizing ledger with
  | nil =>
      rfl
  | cons layerIdx rest inductionHypothesis =>
      simp only [loadRecord, layerEffect_reordered reordered,
        inductionHypothesis]

/-! ## The loop leaves the record -/

section

variable
  {os : Os}
  (noFaults : os.faults = [])
  (proper : Disk.Proper path)

include noFaults proper

theorem leaves_layerEffect
    {ledger : Ledger}
    (lastLayerStop : Option Nat)
    (layerIdx : Nat) :
    Act.Holds (Records os parentId ledger)
      (loadLayer env parentId path lastLayerStop layerIdx)
      fun outcome sys =>
        outcome = .ok ((layerEffect env os.disk path layerIdx ledger).1.map
            (stopsAt lastLayerStop layerIdx || ·)) ∧
          Records os parentId
            (layerEffect env os.disk path layerIdx ledger).2 sys := by
  intro sys records
  have asked := (answers_statat noFaults (.layer layerIdx) path).attempt
  rw [← records.sameOs] at asked
  unfold loadLayer layerEffect
  rw [Act.bind_ok asked.lift, records.sameOs]
  cases answer : os.disk.statat (.layer layerIdx) path with
  | error errno =>
      cases errno with
      | ENOENT => exact ⟨by simp [stopsAt], records⟩
      | ENOTDIR => exact ⟨by simp [stopsAt], records⟩
      | _ => exact ⟨rfl, records⟩
  | ok st =>
      simp only
      cases isDir : st.mode.isDir with
      | false =>
          exact ⟨rfl, records⟩
      | true =>
          obtain ⟨dir, place⟩ := placeAt_of_statat answer isDir
          have loaded := @leaves_loadStream env os layerIdx path parentId
            ledger dir noFaults proper place (stopsAt lastLayerStop layerIdx)
            sys records
          rcases ran : loadStream env parentId path layerIdx
              (stopsAt lastLayerStop layerIdx) sys with ⟨outcome, later⟩
          rw [ran] at loaded
          obtain ⟨rfl, recorded⟩ := loaded
          have mapped := Act.map_ok ran some
          unfold stopsAt at mapped
          simp only [↓reduceIte]
          rw [mapped]
          exact ⟨rfl, recorded⟩

theorem leaves_loadRecord
    {ledger : Ledger}
    (lastLayerStop : Option Nat)
    (layers : List Nat) :
    Act.Holds (Records os parentId ledger)
      (loadLayers env parentId path lastLayerStop layers)
      (Leaves os parentId
        (loadRecord env os.disk path lastLayerStop layers ledger)) := by
  induction layers generalizing ledger with
  | nil =>
      exact fun sys records => ⟨rfl, records⟩
  | cons layerIdx rest inductionHypothesis =>
      intro sys records
      have turn := @leaves_layerEffect env parentId path os noFaults proper
        ledger lastLayerStop layerIdx sys records
      rcases ran : loadLayer env parentId path lastLayerStop layerIdx sys with
        ⟨outcome, later⟩
      rw [ran] at turn
      obtain ⟨rfl, recorded⟩ := turn
      unfold loadLayers loadRecord
      rw [Act.bind_ok ran]
      rcases effect : layerEffect env os.disk path layerIdx ledger with
        ⟨goesOn, now⟩
      rw [effect] at recorded
      cases goesOn with
      | none =>
          exact ⟨rfl, recorded⟩
      | some cut =>
          cases cut with
          | true =>
              cases stopsAt lastLayerStop layerIdx <;> exact ⟨rfl, recorded⟩
          | false =>
              cases stopsAt lastLayerStop layerIdx with
              | true =>
                  exact ⟨rfl, recorded⟩
              | false =>
                  exact inductionHypothesis later recorded

/-- The record that `load_dir_impl` leaves, whatever the layers answer. -/
theorem leaves_loadDir
    {ledger : Ledger}
    (lastLayerStop : Option Nat) :
    Act.Holds (Records os parentId ledger)
      (loadDirImpl env parentId path lastLayerStop)
      (Leaves os parentId (loadRecord env os.disk path lastLayerStop
        (layerIndices env) ledger)) := by
  refine Act.Holds.bind
    (leaves_loadRecord noFaults proper lastLayerStop _) (fun _ => ?_) ?_
  · rintro sys ⟨-, records⟩
    exact ⟨rfl, records.markLoaded⟩
  · rintro errno sys ⟨failed, -⟩
    cases failed

end

end Daemon

/-! ## Inode numbers, devices and modes -/

namespace OvlNode

/-- What loading copies from an object into its node. -/
def label (node : OvlNode) : UInt64 × UInt64 × Mode :=
  (node.tmpIno, node.tmpDev, node.mode)

end OvlNode

/-- The inode number, device and mode that loading takes from an object. -/
def labelAt
    (env : Env)
    (disk : Disk)
    (path : Path)
    (name : Name)
    (layerIdx : Nat) :
    Option (UInt64 × UInt64 × Mode) :=
  (disk.objAt layerIdx path name).map fun obj =>
    if env.config.fastInoCheck then
      (obj.stIno, 0,
        if Syscall.reportsType env layerIdx && obj.kind = .dir then .ifDir
        else .zero)
    else
      (obj.stIno, disk.dev (.layer layerIdx), ⟨some obj.kind, obj.perm⟩)

theorem labelAt_reordered
    {first second : Disk}
    (reordered : first.Reordered second)
    (env : Env)
    (path : Path)
    (name : Name)
    (layerIdx : Nat) :
    labelAt env second path name layerIdx =
      labelAt env first path name layerIdx := by
  unfold labelAt
  rw [reordered.objAt, reordered.dev]

/-- Every child of the directory was there before with the same label, or has
the label of its object. -/
structure Traced
    (env : Env)
    (disk : Disk)
    (path : Path)
    (parentId : NodeId)
    (start now : NodeArena) : Prop where
  kept :
    ∀ {name id}, start.Entry parentId name id →
      now.Entry parentId name id ∧
        (now.get? id).map OvlNode.label = (start.get? id).map OvlNode.label
  added :
    ∀ {name id}, now.Entry parentId name id →
      start.Entry parentId name id ∨
        ∃ child, now.get? id = some child ∧
          labelAt env disk path name child.layerIdx = some child.label

namespace Traced

variable
  {env : Env}
  {disk : Disk}
  {path : Path}
  {parentId : NodeId}
  {start now : NodeArena}

theorem refl
    (env : Env)
    (disk : Disk)
    (path : Path)
    (parentId : NodeId)
    (start : NodeArena) :
    Traced env disk path parentId start start where
  kept entry := ⟨entry, rfl⟩
  added entry := Or.inl entry

/-- A change that keeps children, labels and layers. -/
theorem modify
    (traced : Traced env disk path parentId start now)
    (id : NodeId)
    {change : OvlNode → OvlNode}
    (sameShape : ∀ node, (change node).shape = node.shape)
    (sameLabel : ∀ node, (change node).label = node.label)
    (sameLayer : ∀ node, (change node).layerIdx = node.layerIdx) :
    Traced env disk path parentId start (now.modify id change) := by
  have same : NodeArena.SameShape now (now.modify id change) :=
    .modify now id fun node _ => sameShape node
  constructor
  · intro name child entry
    obtain ⟨entryNow, labels⟩ := traced.kept entry
    refine ⟨same.entry entryNow, ?_⟩
    rw [← labels, NodeArena.get?_modify]
    split
    · next isId =>
        rw [isId, Option.map_map]
        congr 1
        exact funext sameLabel
    · rfl
  · intro name child entry
    rcases traced.added (same.symm.entry entry) with old | ⟨node, stored, isLabel⟩
    · exact Or.inl old
    · refine Or.inr ?_
      by_cases isId : child = id
      · refine ⟨change node, ?_, ?_⟩
        · rw [NodeArena.get?_modify, if_pos isId, ← isId, stored]
          rfl
        · rw [sameLayer, sameLabel]
          exact isLabel
      · refine ⟨node, ?_, isLabel⟩
        rw [NodeArena.get?_modify, if_neg isId]
        exact stored

/-- A new child with the label of its object. -/
theorem adopt
    (traced : Traced env disk path parentId start now)
    (tree : now.Tree)
    {parent child : OvlNode}
    (stored : now.get? parentId = some parent)
    (free : parent.getChild child.name = none)
    (isLabel : labelAt env disk path child.name child.layerIdx =
      some child.label) :
    Traced env disk path parentId start
      ((now.insert child).2.modify parentId
        (·.insertChild child.name now.nextId)) := by
  have old : parentId ≠ now.nextId :=
    Nat.ne_of_lt (tree.bounded ⟨parent, stored⟩)
  have parentNow :
      ((now.insert child).2.modify parentId
          (·.insertChild child.name now.nextId)).get? parentId =
        some (parent.insertChild child.name now.nextId) := by
    rw [NodeArena.get?_modify, if_pos rfl, NodeArena.get?_insert, if_neg old,
      stored]
    rfl
  have labels :
      ∀ id, id ≠ now.nextId →
        (((now.insert child).2.modify parentId
          (·.insertChild child.name now.nextId)).get? id).map
            (fun node => (node.label, node.layerIdx)) =
          (now.get? id).map (fun node => (node.label, node.layerIdx)) := by
    intro id older
    rw [NodeArena.get?_modify]
    split
    · next isParent =>
        rw [NodeArena.get?_insert, if_neg old, isParent, Option.map_map]
        congr 1
        funext node
        simp only [Function.comp, OvlNode.insertChild, OvlNode.label]
        split <;> rfl
    · rw [NodeArena.get?_insert, if_neg older]
  constructor
  · intro name id entry
    obtain ⟨entryNow, sameLabel⟩ := traced.kept entry
    have older : id ≠ now.nextId := Nat.ne_of_lt (tree.entryBounded entryNow)
    obtain ⟨node, nodeStored, isChild⟩ := entryNow
    rw [stored] at nodeStored
    cases nodeStored
    refine ⟨⟨_, parentNow, ?_⟩, ?_⟩
    · rw [OvlNode.getChild_insertChild, if_neg]
      · exact isChild
      · rintro ⟨-, rfl⟩
        rw [free] at isChild
        cases isChild
    · have same := congrArg (Option.map Prod.fst) (labels id older)
      simp only [Option.map_map] at same
      rw [← sameLabel]
      exact same
  · rintro name id ⟨node, nodeStored, isChild⟩
    rw [parentNow] at nodeStored
    cases nodeStored
    rw [OvlNode.getChild_insertChild] at isChild
    split at isChild
    · next isNew =>
        cases isChild
        rw [isNew.2]
        refine Or.inr ⟨child, ?_, isLabel⟩
        rw [NodeArena.get?_modify, if_neg (Ne.symm old),
          NodeArena.get?_insert, if_pos rfl]
    · have entryNow : now.Entry parentId name id :=
        ⟨parent, stored, isChild⟩
      rcases traced.added entryNow with before | ⟨below, belowStored, same⟩
      · exact Or.inl before
      · have older : id ≠ now.nextId :=
          Nat.ne_of_lt (tree.entryBounded entryNow)
        have later := labels id older
        rw [belowStored] at later
        obtain ⟨found, foundStored, isSame⟩ :=
          Option.map_eq_some_iff.mp later
        simp only [Prod.mk.injEq] at isSame
        refine Or.inr ⟨found, foundStored, ?_⟩
        rw [isSame.1, isSame.2]
        exact same

end Traced

namespace Daemon

open Syscall Whiteout Act

variable {env : Env} {os : Os} {layerIdx : Nat} {path : Path}

/-- A directory entry has the number and the type of the object. -/
def Genuine
    (env : Env)
    (disk : Disk)
    (layerIdx : Nat)
    (path : Path)
    (entry : DirEntry) : Prop :=
  isSkipped entry.name = false →
    ∃ obj, disk.objAt layerIdx path entry.name = some obj ∧
      entry.ino = obj.stIno ∧
      entry.dtype = if reportsType env layerIdx then some obj.kind else none

theorem Genuine.truthful
    {disk : Disk}
    {entry : DirEntry}
    (genuine : Genuine env disk layerIdx path entry) :
    Truthful env disk layerIdx path entry := by
  intro notSkipped
  obtain ⟨obj, stored, -, dtype⟩ := genuine notSkipped
  exact ⟨obj, stored, dtype⟩

/-- The stream of a directory delivers genuine entries. -/
theorem genuine_opendir
    {disk : Disk}
    {dir : Loc}
    {entries : List DirEntry}
    (proper : Disk.Proper path)
    (place : disk.placeAt (.layer layerIdx) path = .dir dir)
    (opened :
      disk.opendir (reportsType env layerIdx) (.layer layerIdx) path =
        .ok entries) :
    ∀ entry ∈ entries, Genuine env disk layerIdx path entry := by
  have reached := Disk.dirAt_of_placeAt proper place
  have located : disk.locate ⟨.layer layerIdx, []⟩ path = .ok dir ∧
      disk.kindAt dir = some .dir := by
    unfold Disk.placeAt at place
    split at place
    · cases place
    · next loc found =>
        split at place
        · cases place
        · next isDir =>
            cases place
            exact ⟨found, isDir⟩
        · cases place
  unfold Disk.opendir at opened
  simp only [located.1, located.2, Except.ok.injEq] at opened
  subst opened
  intro entry member notSkipped
  obtain ⟨name, nameMember, rfl⟩ := List.mem_map.mp member
  have isName : (disk.dirEntry (reportsType env layerIdx) dir name).name =
      name := by
    unfold Disk.dirEntry
    split <;> rfl
  rw [isName] at notSkipped ⊢
  rcases List.mem_append.mp nameMember with special | listed
  · simp only [isSkipped, Bool.or_eq_false_iff, decide_eq_false_iff_not]
      at notSkipped
    simp [notSkipped] at special
  · rw [Disk.mem_list, Option.isSome_iff_exists] at listed
    obtain ⟨obj, found⟩ := listed
    refine ⟨obj, ?_, ?_, ?_⟩
    · unfold Disk.objAt Disk.dirAt
      rw [reached]
      exact found
    · simp [Disk.dirEntry, found]
    · simp [Disk.dirEntry, found]

/-- The attributes of an entry are the label of its object. -/
theorem answers_entryAttr_label
    (noFaults : os.faults = [])
    {entry : DirEntry}
    (notSkipped : isSkipped entry.name = false)
    (genuine : Genuine env os.disk layerIdx path entry) :
    ∃ label, Answers (entryAttr env layerIdx path entry) os (.ok label) ∧
      labelAt env os.disk path entry.name layerIdx = some label := by
  obtain ⟨obj, stored, ino, dtype⟩ := genuine notSkipped
  have notDot := notDot_of_not_skipped notSkipped
  unfold entryAttr
  cases fast : env.config.fastInoCheck with
  | true =>
      refine ⟨_, .pure _, ?_⟩
      simp only [labelAt, stored, Option.map_some, fast, ino, dtype]
      by_cases reports : reportsType env layerIdx = true
      · by_cases isDir : obj.kind = .dir <;> simp [reports, isDir]
      · simp [reports]
  | false =>
      obtain ⟨st, answer, mode, rdev, stIno⟩ :=
        (Disk.statat_of_objAt notDot).1 obj stored
      have asked := (answers_statat noFaults (.layer layerIdx)
        (path ++ [entry.name])).attempt
      rw [answer] at asked
      refine ⟨(st.ino, st.dev, st.mode), .bind asked (.pure _), ?_⟩
      have dev := Disk.dev_of_statat answer
      simp [labelAt, stored, fast, dev, mode, stIno]

/-- A directory is being loaded, and its children are traced. -/
def Traces
    (env : Env)
    (os : Os)
    (path : Path)
    (parentId : NodeId)
    (start : NodeArena)
    (sys : Sys) : Prop :=
  (∃ ledger, Records os parentId ledger sys) ∧
    Traced env os.disk path parentId start sys.nodes

section

variable
  {parentId : NodeId}
  {start : NodeArena}
  (noFaults : os.faults = [])

theorem Traces.whiten
    {sys : Sys}
    (traces : Traces env os path parentId start sys)
    (name : Name) :
    Traces env os path parentId start
      { sys with
        nodes := sys.nodes.modify parentId (·.insertWhiteout name) } := by
  obtain ⟨⟨ledger, records⟩, traced⟩ := traces
  refine ⟨⟨_, records.whiten name⟩, ?_⟩
  apply traced.modify parentId
  · exact fun node => OvlNode.shape_insertWhiteout node name
  · intro node
    unfold OvlNode.insertWhiteout
    split <;> rfl
  · intro node
    unfold OvlNode.insertWhiteout
    split <;> rfl

include noFaults

theorem traces_loadNormalEntry
    {entry : DirEntry}
    (notSkipped : isSkipped entry.name = false)
    (genuine : Genuine env os.disk layerIdx path entry)
    {sys : Sys}
    (traces : Traces env os path parentId start sys)
    {parent : OvlNode}
    (stored : sys.nodes.get? parentId = some parent)
    (noChild : parent.getChild entry.name = none)
    (noWhite : parent.isWhiteout entry.name = false) :
    Traces env os path parentId start
      (loadNormalEntry env parentId path layerIdx entry sys).2 := by
  obtain ⟨⟨ledger, records⟩, traced⟩ := traces
  obtain ⟨⟨ino, dev, mode⟩, asked, isLabel⟩ :=
    @answers_entryAttr_label env os layerIdx path noFaults entry notSkipped
      genuine
  have askedNow := asked
  rw [← records.sameOs] at askedNow
  obtain ⟨obj, objStored, dtype⟩ := genuine.truthful notSkipped
  have free : ledger.taken entry.name = false := by
    obtain ⟨node, nodeStored, isDir, recorded⟩ := records.parent
    rw [stored] at nodeStored
    cases nodeStored
    simp [Ledger.taken, recorded.known, recorded.white, noChild, noWhite]
  have loaded := @leaves_loadNormalEntry env os layerIdx path parentId ledger
    entry obj noFaults (notDot_of_not_skipped notSkipped) free objStored dtype
    sys records
  refine ⟨⟨_, loaded.2⟩, ?_⟩
  unfold loadNormalEntry
  rw [Act.bind_ok askedNow.lift]
  exact @Traced.adopt env os.disk path parentId start sys.nodes traced
    records.ok.tree parent
    { OvlNode.new entry.name layerIdx ino dev
        (mode.isDir || decide (entry.dtype = some .dir)) with
      mode := mode
      lastLayerIdx := layerIdx
      parent := some parentId }
    stored noChild isLabel

theorem traces_loadNewEntry
    {entry : DirEntry}
    (notSkipped : isSkipped entry.name = false)
    (genuine : Genuine env os.disk layerIdx path entry)
    {sys : Sys}
    (traces : Traces env os path parentId start sys)
    {parent : OvlNode}
    (stored : sys.nodes.get? parentId = some parent)
    (noChild : parent.getChild entry.name = none)
    (noWhite : parent.isWhiteout entry.name = false) :
    Traces env os path parentId start
      (loadNewEntry env parentId path layerIdx entry sys).2 := by
  have records := traces.1.choose_spec
  obtain ⟨obj, objStored, dtype⟩ := genuine.truthful notSkipped
  have asked := @answers_isWhFile os layerIdx path noFaults entry.name
  have device := @answers_isDeviceEntry env os layerIdx path noFaults
    entry obj (notDot_of_not_skipped notSkipped) objStored dtype
  rw [← records.sameOs] at asked device
  unfold loadNewEntry
  rw [Act.bind_ok asked.lift, records.sameOs]
  split
  · exact traces.whiten entry.name
  · cases whPrefixName entry.name with
    | some whited =>
        simp only
        rw [Act.bind_ok (show getNode parentId sys = (.ok (some parent), sys)
          from by rw [← stored]; rfl)]
        simp only [Option.bind_some]
        cases parent.getChild whited with
        | some child =>
            exact traces
        | none =>
            exact traces.whiten whited
    | none =>
        simp only
        rw [Act.bind_ok device.lift]
        split
        · exact traces.whiten entry.name
        · exact traces_loadNormalEntry noFaults notSkipped genuine traces
            stored noChild noWhite

theorem traces_loadEntry
    {entry : DirEntry}
    (genuine : Genuine env os.disk layerIdx path entry) :
    Keeps (Traces env os path parentId start)
      (loadEntry env parentId path layerIdx entry) := by
  intro sys traces
  obtain ⟨⟨ledger, records⟩, traced⟩ := id traces
  obtain ⟨node, stored, isDir, recorded⟩ := records.parent
  unfold loadEntry
  by_cases skipped : entry.name = dotName ∨ entry.name = dotDotName ∨
      entry.name = opaqueWhiteout
  · rw [if_pos skipped]
    exact traces
  · have notSkipped : isSkipped entry.name = false := by
      simpa [isSkipped, and_assoc] using skipped
    rw [if_neg skipped,
      Act.bind_ok (show getNode parentId sys = (.ok (some node), sys) from by
        rw [← stored]; rfl)]
    simp only [Option.bind_some]
    cases isChild : node.getChild entry.name with
    | some existingId =>
        have known := recorded.known entry.name
        rw [isChild, Option.isSome_some, Option.isSome_iff_exists] at known
        obtain ⟨found, foundChild⟩ := known
        refine ⟨⟨_, records.see ⟨node, stored, isChild⟩ foundChild layerIdx⟩,
          ?_⟩
        apply traced.modify existingId
        · exact fun _ => rfl
        · exact fun _ => rfl
        · exact fun _ => rfl
    | none =>
        cases isWhite : node.isWhiteout entry.name with
        | true =>
            simp only [Option.map_some, Option.getD_some, isWhite,
              ↓reduceIte]
            exact traces
        | false =>
            simp only [Option.map_some, Option.getD_some, isWhite,
              Bool.false_eq_true, ↓reduceIte]
            exact traces_loadNewEntry noFaults notSkipped genuine traces
              stored isChild isWhite

theorem traces_each_loadEntry
    (entries : List DirEntry)
    (genuine : ∀ entry ∈ entries, Genuine env os.disk layerIdx path entry) :
    Keeps (Traces env os path parentId start)
      (Act.each (loadEntry env parentId path layerIdx) entries) := by
  induction entries with
  | nil =>
      exact Keeps.pure ()
  | cons entry rest inductionHypothesis =>
      refine Keeps.bind ?_ fun _ => ?_
      · exact traces_loadEntry noFaults (genuine entry (by simp))
      · exact inductionHypothesis fun other member =>
          genuine other (by simp [member])

theorem traces_loadStream
    (proper : Disk.Proper path)
    {dir : Loc}
    (place : os.disk.placeAt (.layer layerIdx) path = .dir dir)
    (stop : Bool) :
    Keeps (Traces env os path parentId start)
      (loadStream env parentId path layerIdx stop) := by
  intro sys traces
  have records := traces.1.choose_spec
  obtain ⟨entries, opened, -⟩ :=
    @truthful_opendir env layerIdx path os.disk dir proper place
  have streamed := (@answers_opendir env os noFaults layerIdx path).attempt
  rw [opened, ← records.sameOs] at streamed
  have loaded := @traces_each_loadEntry env os layerIdx path parentId start
    noFaults entries (genuine_opendir proper place opened) sys traces
  unfold loadStream
  rw [Act.bind_ok streamed.lift]
  simp only
  rcases ran : Act.each (loadEntry env parentId path layerIdx) entries sys
    with ⟨outcome, later⟩
  rw [ran] at loaded
  cases outcome with
  | error errno =>
      rw [Act.bind_error ran]
      exact loaded
  | ok value =>
      obtain ⟨cut, asked, -⟩ :=
        @answers_isDirectoryOpaque env os layerIdx path noFaults
      rw [← loaded.1.choose_spec.sameOs] at asked
      rw [Act.bind_ok ran, Act.bind_ok asked.lift]
      exact loaded

theorem traces_loadLayer
    (proper : Disk.Proper path)
    (lastLayerStop : Option Nat)
    (layerIdx : Nat) :
    Keeps (Traces env os path parentId start)
      (loadLayer env parentId path lastLayerStop layerIdx) := by
  intro sys traces
  have records := traces.1.choose_spec
  have asked := (answers_statat noFaults (.layer layerIdx) path).attempt
  rw [← records.sameOs] at asked
  unfold loadLayer
  rw [Act.bind_ok asked.lift, records.sameOs]
  cases answer : os.disk.statat (.layer layerIdx) path with
  | error errno =>
      cases errno <;> exact traces
  | ok st =>
      simp only
      cases isDir : st.mode.isDir with
      | false =>
          exact traces
      | true =>
          obtain ⟨dir, place⟩ := placeAt_of_statat answer isDir
          have streamed := @traces_loadStream env os layerIdx path parentId
            start noFaults proper dir place
          exact (Keeps.map (streamed _)) sys traces

theorem traces_loadLayers
    (proper : Disk.Proper path)
    (lastLayerStop : Option Nat)
    (layers : List Nat) :
    Keeps (Traces env os path parentId start)
      (loadLayers env parentId path lastLayerStop layers) := by
  induction layers with
  | nil =>
      exact Keeps.pure ()
  | cons layerIdx rest inductionHypothesis =>
      refine Keeps.bind ?_ fun stop => ?_
      · exact traces_loadLayer noFaults proper lastLayerStop layerIdx
      · split
        · exact inductionHypothesis
        · exact Keeps.pure ()

theorem traces_loadDirImpl
    (proper : Disk.Proper path)
    (lastLayerStop : Option Nat) :
    Keeps (Traces env os path parentId start)
      (loadDirImpl env parentId path lastLayerStop) := by
  refine Keeps.bind ?_ fun _ => ?_
  · exact traces_loadLayers noFaults proper lastLayerStop _
  · intro sys traces
    obtain ⟨⟨ledger, records⟩, traced⟩ := traces
    refine ⟨⟨ledger, records.markLoaded⟩, ?_⟩
    apply traced.modify parentId OvlNode.shape_markLoaded
    · intro node
      unfold OvlNode.markLoaded
      split <;> rfl
    · intro node
      unfold OvlNode.markLoaded
      split <;> rfl

end

end Daemon

/-! ## The loaded directory -/

/-- What a directory node knows of a child. -/
structure ChildView where
  layerIdx : Nat
  lastLayerIdx : Nat
  ino : UInt64
  dev : UInt64
  mode : Mode
  isDir : Bool

namespace OvlNode

def toView (node : OvlNode) : ChildView :=
  ⟨node.layerIdx, node.lastLayerIdx, node.tmpIno, node.tmpDev, node.mode,
    node.isDir⟩

theorem toView_eq
    {first second : OvlNode}
    (sameFound : first.found = second.found)
    (sameLabel : first.label = second.label) :
    first.toView = second.toView := by
  simp only [found, Found.mk.injEq] at sameFound
  simp only [label, Prod.mk.injEq] at sameLabel
  simp [toView, sameFound, sameLabel]

theorem isLoaded_markLoaded
    {node : OvlNode}
    (isDir : node.isDir = true) :
    node.markLoaded.isLoaded = true := by
  cases kind : node.dirState with
  | notADir =>
      simp [OvlNode.isDir, kind] at isDir
  | dir children whiteouts loaded =>
      simp [markLoaded, isLoaded, kind]

end OvlNode

namespace NodeArena

/-- The child under a name, without its identifier. -/
def childView
    (arena : NodeArena)
    (parentId : NodeId)
    (name : Name) :
    Option (Option ChildView) :=
  ((arena.get? parentId).bind (·.getChild name)).map fun id =>
    (arena.get? id).map OvlNode.toView

/-- Two directories with the same children, whiteouts and flag. -/
structure SameDirectory
    (parentId : NodeId)
    (first second : NodeArena) : Prop where
  children :
    ∀ name, second.childView parentId name = first.childView parentId name
  whiteouts :
    ∀ name, (second.get? parentId).map (·.isWhiteout name) =
      (first.get? parentId).map (·.isWhiteout name)
  loaded :
    (second.get? parentId).map OvlNode.isLoaded =
      (first.get? parentId).map OvlNode.isLoaded

end NodeArena

namespace Daemon

open NodeArena

/-- A loaded directory carries the flag. -/
theorem isLoaded_loadDirImpl
    {env : Env}
    {parentId : NodeId}
    {path : Path}
    {lastLayerStop : Option Nat}
    {sys : Sys}
    {node : OvlNode}
    (loaded : (loadDirImpl env parentId path lastLayerStop sys).1 = .ok ())
    (stored :
      (loadDirImpl env parentId path lastLayerStop sys).2.nodes.get?
        parentId = some node)
    (isDir : node.isDir = true) :
    node.isLoaded = true := by
  obtain ⟨-, between, -, marked⟩ := Act.bind_returns loaded
  have nodes :
      (loadDirImpl env parentId path lastLayerStop sys).2.nodes =
        between.nodes.modify parentId OvlNode.markLoaded :=
    congrArg (fun ended => ended.2.nodes) marked
  rw [nodes, NodeArena.get?_modify, if_pos rfl] at stored
  obtain ⟨old, -, isOld⟩ := Option.map_eq_some_iff.mp stored
  subst isOld
  have oldDir := OvlNode.isDir_of_shape (OvlNode.shape_markLoaded old)
  rw [isDir] at oldDir
  exact OvlNode.isLoaded_markLoaded oldDir.symm

section

variable
  {env : Env}
  {first second : Os}
  {path : Path}
  {parentId : NodeId}
  {start : NodeArena}
  {ledger : Ledger}
  {firstSys secondSys : Sys}
  {firstNode secondNode : OvlNode}
  (reordered : first.disk.Reordered second.disk)
  (firstRecorded : RecordedBy firstSys.nodes firstNode ledger)
  (secondRecorded : RecordedBy secondSys.nodes secondNode ledger)
  (firstStored : firstSys.nodes.get? parentId = some firstNode)
  (secondStored : secondSys.nodes.get? parentId = some secondNode)
  (firstTraced :
    Traced env first.disk path parentId start firstSys.nodes)
  (secondTraced :
    Traced env second.disk path parentId start secondSys.nodes)

include reordered firstRecorded secondRecorded firstStored secondStored
  firstTraced secondTraced

/-- Two children under one name that are recorded alike are alike. -/
theorem sameView_of_traced
    {name : Name}
    {firstId secondId : NodeId}
    (firstChild : firstNode.getChild name = some firstId)
    (secondChild : secondNode.getChild name = some secondId) :
    (secondSys.nodes.get? secondId).map OvlNode.toView =
      (firstSys.nodes.get? firstId).map OvlNode.toView := by
  have sameFound :
      ∀ {firstBelow secondBelow : OvlNode},
        firstSys.nodes.get? firstId = some firstBelow →
        secondSys.nodes.get? secondId = some secondBelow →
        secondBelow.found = firstBelow.found := by
    intro firstBelow secondBelow firstLive secondLive
    have firstFound := firstRecorded.child firstChild firstLive
    have secondFound := secondRecorded.child secondChild secondLive
    rw [firstFound] at secondFound
    exact (Option.some.inj secondFound).symm
  have sameId :
      ∀ {id}, start.Entry parentId name id → firstId = id ∧ secondId = id := by
    intro id entry
    obtain ⟨⟨found, foundStored, isChild⟩, -⟩ := firstTraced.kept entry
    rw [firstStored] at foundStored
    cases foundStored
    rw [firstChild] at isChild
    obtain ⟨⟨found', foundStored', isChild'⟩, -⟩ := secondTraced.kept entry
    rw [secondStored] at foundStored'
    cases foundStored'
    rw [secondChild] at isChild'
    exact ⟨Option.some.inj isChild, Option.some.inj isChild'⟩
  -- A child from before the loading has one identifier in both runs.
  have ofOld :
      ∀ {id}, start.Entry parentId name id →
        (secondSys.nodes.get? secondId).map OvlNode.toView =
          (firstSys.nodes.get? firstId).map OvlNode.toView := by
    intro id old
    have labels := (secondTraced.kept old).2.trans (firstTraced.kept old).2.symm
    obtain ⟨isFirst, isSecond⟩ := sameId old
    rw [← isFirst] at labels isSecond
    nth_rewrite 1 [← isSecond] at labels
    cases firstLive : firstSys.nodes.get? firstId with
    | none =>
        rw [firstLive] at labels
        rw [Option.map_eq_none_iff.mp labels]
    | some firstBelow =>
        rw [firstLive] at labels
        obtain ⟨secondBelow, secondLive, sameLabel⟩ :=
          Option.map_eq_some_iff.mp labels
        rw [secondLive]
        exact congrArg some
          (OvlNode.toView_eq (sameFound firstLive secondLive) sameLabel)
  rcases firstTraced.added ⟨firstNode, firstStored, firstChild⟩ with
    old | ⟨firstBelow, firstLive, firstLabel⟩
  · exact ofOld old
  rcases secondTraced.added ⟨secondNode, secondStored, secondChild⟩ with
    old | ⟨secondBelow, secondLive, secondLabel⟩
  · exact ofOld old
  have found := sameFound firstLive secondLive
  have sameLayer : secondBelow.layerIdx = firstBelow.layerIdx :=
    congrArg Found.layerIdx found
  rw [labelAt_reordered reordered, sameLayer, firstLabel] at secondLabel
  rw [firstLive, secondLive]
  exact congrArg some
    (OvlNode.toView_eq found (Option.some.inj secondLabel).symm)

theorem childView_of_traced
    (name : Name) :
    secondSys.nodes.childView parentId name =
      firstSys.nodes.childView parentId name := by
  have known := (secondRecorded.known name).symm.trans
    (firstRecorded.known name)
  unfold childView
  rw [firstStored, secondStored]
  simp only [Option.bind_some]
  cases firstChild : firstNode.getChild name with
  | none =>
      rw [firstChild] at known
      rw [Option.isNone_iff_eq_none.mp (Option.isSome_eq_false_iff.mp known)]
      rfl
  | some firstId =>
      rw [firstChild] at known
      obtain ⟨secondId, secondChild⟩ := Option.isSome_iff_exists.mp known
      rw [secondChild]
      exact congrArg some (sameView_of_traced reordered firstRecorded
        secondRecorded firstStored secondStored firstTraced secondTraced
        firstChild secondChild)

end

/-- Loading a directory leaves the same children, whiteouts and flag, in
whatever order the layers' directories deliver their entries. -/
theorem loading_ignores_order
    {env : Env}
    {sys : Sys}
    {other : Disk}
    {parentId : NodeId}
    {node : OvlNode}
    {path : Path}
    (ok : TreeOk sys)
    (stored : sys.nodes.get? parentId = some node)
    (isDir : node.isDir = true)
    (proper : Disk.Proper path)
    (noFaults : sys.os.faults = [])
    (reordered : sys.os.disk.Reordered other)
    (lastLayerStop : Option Nat) :
    SameDirectory parentId
      (loadDirImpl env parentId path lastLayerStop sys).2.nodes
      (loadDirImpl env parentId path lastLayerStop
        { sys with os := { sys.os with disk := other } }).2.nodes := by
  have recorded := recordedBy_ledgerOf sys.nodes node
  have firstRecords :
      Records sys.os parentId (ledgerOf sys.nodes node) sys :=
    ⟨ok, rfl, node, stored, isDir, recorded⟩
  have secondRecords :
      Records { sys.os with disk := other } parentId
        (ledgerOf sys.nodes node)
        { sys with os := { sys.os with disk := other } } :=
    ⟨ok, rfl, node, stored, isDir, recorded⟩
  obtain ⟨firstOk, firstLeft⟩ := @leaves_loadDir env parentId path sys.os
    noFaults proper _ lastLayerStop sys firstRecords
  obtain ⟨secondOk, secondLeft⟩ := @leaves_loadDir env parentId path
    { sys.os with disk := other } noFaults proper _ lastLayerStop _
    secondRecords
  rw [loadRecord_reordered reordered] at secondLeft
  have firstTraces := @traces_loadDirImpl env sys.os path parentId sys.nodes
    noFaults proper lastLayerStop sys ⟨⟨_, firstRecords⟩, .refl ..⟩
  have secondTraces := @traces_loadDirImpl env { sys.os with disk := other }
    path parentId sys.nodes noFaults proper lastLayerStop _
    ⟨⟨_, secondRecords⟩, .refl ..⟩
  obtain ⟨firstNode, firstStored, firstDir, firstRecorded⟩ := firstLeft.parent
  obtain ⟨secondNode, secondStored, secondDir, secondRecorded⟩ :=
    secondLeft.parent
  refine ⟨?_, ?_, ?_⟩
  · exact childView_of_traced reordered firstRecorded secondRecorded
      firstStored secondStored firstTraces.2 secondTraces.2
  · intro name
    rw [firstStored, secondStored]
    exact congrArg some
      ((secondRecorded.white name).symm.trans (firstRecorded.white name))
  · have firstLoaded := isLoaded_loadDirImpl firstOk firstStored firstDir
    have secondLoaded :=
      isLoaded_loadDirImpl secondOk secondStored secondDir
    rw [firstStored, secondStored]
    simp [firstLoaded, secondLoaded]

end Daemon

namespace Disk

/-- The same trees with every directory delivered the other way round. -/
def reversed (disk : Disk) : Disk :=
  { disk with
    names :=
      ⟨disk.names.entries.reverse,
        (List.perm_nodupKeys (List.reverse_perm _)).mpr disk.names.nodupKeys⟩
    named := fun {loc id} stored => by
      have same := @AList.perm_lookup Loc (fun _ => ObjId) _ loc
        ⟨disk.names.entries.reverse,
          (List.perm_nodupKeys (List.reverse_perm _)).mpr
            disk.names.nodupKeys⟩ disk.names (List.reverse_perm _)
      exact disk.named (same.symm.trans stored) }

theorem reordered_reversed
    (disk : Disk) :
    disk.Reordered disk.reversed :=
  ⟨List.reverse_perm _, rfl, rfl⟩

end Disk

namespace Sample

/-- A lower layer with a file and a marker of the file. -/
def markedFile : Disk :=
  disk 1 [(⟨.layer 1, [ascii "f"]⟩, obj .reg [] 11),
    (⟨.layer 1, [ascii ".wh.f"]⟩, obj .reg [] 12),
    (⟨.layer 1, [ascii "g"]⟩, obj .reg [] 13)]

end Sample

namespace Daemon

open Sample NodeArena

/-- The file and its marker come in either order. -/
theorem loading_ignores_order_marked :
    markedFile.list ⟨.layer 1, []⟩ ≠ markedFile.reversed.list ⟨.layer 1, []⟩ ∧
      SameDirectory rootId
        (loadDirImpl (env 1) rootId [] none
          (.mount (env 1) markedFile)).2.nodes
        (loadDirImpl (env 1) rootId [] none
          (.mount (env 1) markedFile.reversed)).2.nodes := by
  refine ⟨by decide +kernel, ?_⟩
  generalize markedFile = first
  have stored : (Sys.mount (env 1) first).nodes.get? rootId =
      some (OvlNode.new [] 0 0 0 true) := rfl
  have loaded := @loading_ignores_order (env 1) (.mount (env 1) first)
    first.reversed rootId _ [] (treeOk_mount _ _) stored rfl
    (by simp [Disk.Proper]) rfl first.reordered_reversed none
  exact loaded

end Daemon

end FuseOverlay
