import FuseOverlay.LookupShortcut
import FuseOverlay.UnionLayers

namespace FuseOverlay

/-!
# Directories that show the union

Loading changes one directory node and adds new ones below it.  So a tree of
which every loaded directory shows the union stays one when another directory
is loaded: the parents of that directory have the layers of the union, by the
last layers that their nodes keep.
-/

open Act (Keeps Holds)

open Syscall Whiteout Ledger

/-! ## What loading leaves alone -/

namespace OvlNode

/-- A node of which nothing was read. -/
structure Blank (node : OvlNode) : Prop where
  noChild : ∀ name, node.getChild name = none
  noWhite : ∀ name, node.isWhiteout name = false
  unloaded : node.isLoaded = false

/-- What of a node does not depend on what was read of it. -/
def stem (node : OvlNode) : OvlNode :=
  { node with dirState := .notADir }

theorem Blank.of_dirState
    {node : OvlNode}
    {isDir : Bool}
    (new : node.dirState = if isDir then .dir ∅ ∅ false else .notADir) :
    node.Blank := by
  refine ⟨fun name => ?_, fun name => ?_, ?_⟩
  · cases isDir <;> simp [getChild, new]
  · cases isDir <;> simp [isWhiteout, new]
  · cases isDir <;> simp [isLoaded, new]

theorem stem_insertChild
    (node : OvlNode)
    (name : Name)
    (childId : NodeId) :
    (node.insertChild name childId).stem = node.stem := by
  unfold insertChild
  split <;> rfl

theorem stem_insertWhiteout
    (node : OvlNode)
    (name : Name) :
    (node.insertWhiteout name).stem = node.stem := by
  unfold insertWhiteout
  split <;> rfl

theorem stem_markLoaded
    (node : OvlNode) :
    node.markLoaded.stem = node.stem := by
  unfold markLoaded
  split <;> rfl

end OvlNode

namespace NodeArena

/-- An arena in which one directory has got new children. -/
structure Filled
    (dirId : NodeId)
    (start now : NodeArena) : Prop where
  live : dirId < start.nextId
  nextId : start.nextId ≤ now.nextId
  old :
    ∀ id < start.nextId, id ≠ dirId → now.get? id = start.get? id
  stem :
    (now.get? dirId).map OvlNode.stem = (start.get? dirId).map OvlNode.stem
  fresh :
    ∀ {id node}, start.nextId ≤ id → now.get? id = some node → node.Blank
  entries :
    ∀ {name id}, now.Entry dirId name id → start.nextId ≤ id

namespace Filled

variable {dirId : NodeId} {start now : NodeArena}

/-- The directory itself is changed, but its stem and its children are kept. -/
theorem settle
    (filled : Filled dirId start now)
    {change : OvlNode → OvlNode}
    (sameStem : ∀ node, (change node).stem = node.stem)
    (sameChildren :
      ∀ node name, (change node).getChild name = node.getChild name) :
    Filled dirId start (now.modify dirId change) where
  live := filled.live
  nextId := filled.nextId
  old id isOld other := by
    rw [get?_modify, if_neg other]
    exact filled.old id isOld other
  stem := by
    rw [get?_modify, if_pos rfl, ← filled.stem, Option.map_map]
    congr 1
    exact funext sameStem
  fresh := by
    intro id node isNew stored
    have other : id ≠ dirId := by
      rintro rfl
      exact absurd filled.live (Nat.not_lt.mpr isNew)
    rw [get?_modify, if_neg other] at stored
    exact filled.fresh isNew stored
  entries := by
    rintro name id ⟨node, stored, isChild⟩
    rw [get?_modify, if_pos rfl] at stored
    obtain ⟨before, found, rfl⟩ := Option.map_eq_some_iff.mp stored
    rw [sameChildren] at isChild
    exact filled.entries ⟨before, found, isChild⟩

/-- A child is seen on one more layer. -/
theorem date
    (filled : Filled dirId start now)
    {name : Name}
    {id : NodeId}
    (entry : now.Entry dirId name id)
    (layerIdx : Nat) :
    Filled dirId start
      (now.modify id fun node => { node with lastLayerIdx := layerIdx }) := by
  have isNew := filled.entries entry
  have isDir : dirId ≠ id :=
    Nat.ne_of_lt (Nat.lt_of_lt_of_le filled.live isNew)
  have sameDir :
      (now.modify id fun node =>
        { node with lastLayerIdx := layerIdx }).get? dirId =
        now.get? dirId := by
    rw [get?_modify, if_neg isDir]
  constructor
  · exact filled.live
  · exact filled.nextId
  · intro query isOld other
    rw [get?_modify, if_neg
      (Nat.ne_of_lt (Nat.lt_of_lt_of_le isOld isNew))]
    exact filled.old query isOld other
  · rw [sameDir]
    exact filled.stem
  · intro query node newQuery stored
    rw [get?_modify] at stored
    split at stored
    · obtain ⟨before, found, rfl⟩ := Option.map_eq_some_iff.mp stored
      have blank := filled.fresh isNew found
      exact ⟨blank.noChild, blank.noWhite, blank.unloaded⟩
    · exact filled.fresh newQuery stored
  · rintro query child ⟨node, stored, isChild⟩
    rw [sameDir] at stored
    exact filled.entries ⟨node, stored, isChild⟩

/-- A new child. -/
theorem adopt
    (filled : Filled dirId start now)
    {child : OvlNode}
    (blank : child.Blank) :
    Filled dirId start
      ((now.insert child).2.modify dirId
        (·.insertChild child.name now.nextId)) := by
  have old : dirId ≠ now.nextId :=
    Nat.ne_of_lt (Nat.lt_of_lt_of_le filled.live filled.nextId)
  have inserted :
      Filled dirId start (now.insert child).2 := by
    constructor
    · exact filled.live
    · exact filled.nextId.trans (Nat.le_succ _)
    · intro id isOld other
      rw [get?_insert, if_neg
        (Nat.ne_of_lt (Nat.lt_of_lt_of_le isOld filled.nextId))]
      exact filled.old id isOld other
    · rw [get?_insert, if_neg old]
      exact filled.stem
    · intro id node isNew stored
      rw [get?_insert] at stored
      split at stored
      · cases stored
        exact blank
      · exact filled.fresh isNew stored
    · rintro name id ⟨node, stored, isChild⟩
      rw [get?_insert, if_neg old] at stored
      exact filled.entries ⟨node, stored, isChild⟩
  constructor
  · exact inserted.live
  · exact inserted.nextId
  · intro id isOld other
    rw [get?_modify, if_neg other]
    exact inserted.old id isOld other
  · rw [get?_modify, if_pos rfl, ← inserted.stem, Option.map_map]
    congr 1
    exact funext fun node => node.stem_insertChild _ _
  · intro id node isNew stored
    have other : id ≠ dirId := by
      rintro rfl
      exact absurd filled.live (Nat.not_lt.mpr isNew)
    rw [get?_modify, if_neg other] at stored
    exact inserted.fresh isNew stored
  · rintro name id ⟨node, stored, isChild⟩
    rw [get?_modify, if_pos rfl] at stored
    obtain ⟨before, found, rfl⟩ := Option.map_eq_some_iff.mp stored
    rw [OvlNode.getChild_insertChild] at isChild
    split at isChild
    · cases isChild
      exact filled.nextId
    · exact inserted.entries ⟨before, found, isChild⟩

/-- A filled directory has the old nodes and new ones right below it. -/
theorem walk_cases
    (filled : Filled dirId start now)
    (tree : start.Tree)
    {path query : Path}
    {id : NodeId}
    (walkDir : start.Walk path dirId)
    (walk : now.Walk query id) :
    (id < start.nextId ∧ start.Walk query id) ∨
      ∃ name, query = path ++ [name] ∧ now.Entry dirId name id ∧
        start.nextId ≤ id := by
  induction walk with
  | root =>
      exact .inl ⟨tree.bounded tree.live_root, .root⟩
  | @step query parent child name above entry inductionHypothesis =>
      have parentEntry := entry
      obtain ⟨node, stored, isChild⟩ := parentEntry
      rcases inductionHypothesis with ⟨isOld, before⟩ | ⟨-, -, -, isNew⟩
      · by_cases isDir : parent = dirId
        · subst isDir
          obtain rfl := before.unique tree walkDir
          exact .inr ⟨name, rfl, entry, filled.entries entry⟩
        · rw [filled.old parent isOld isDir] at stored
          have old : start.Entry parent name child := ⟨node, stored, isChild⟩
          exact .inl ⟨tree.entryBounded old, before.step old⟩
      · have blank := filled.fresh isNew stored
        rw [blank.noChild] at isChild
        cases isChild

/-- An old node keeps its stem. -/
theorem stem_of_old
    (filled : Filled dirId start now)
    {id : NodeId}
    {later : OvlNode}
    (isOld : id < start.nextId)
    (stored : now.get? id = some later) :
    ∃ before, start.get? id = some before ∧ later.stem = before.stem := by
  by_cases isDir : id = dirId
  · subst isDir
    have same := filled.stem
    rw [stored, Option.map_some] at same
    obtain ⟨before, found, isSame⟩ := Option.map_eq_some_iff.mp same.symm
    exact ⟨before, found, isSame.symm⟩
  · rw [filled.old id isOld isDir] at stored
    exact ⟨later, stored, rfl⟩

end Filled

end NodeArena

namespace Daemon

variable {env : Env} {dirId : NodeId} {start : NodeArena}

/-- The directory is being filled. -/
def Fills
    (dirId : NodeId)
    (start : NodeArena)
    (sys : Sys) : Prop :=
  NodeArena.Filled dirId start sys.nodes

theorem fills_lift
    {α : Type}
    (act : Syscall α) :
    Keeps (Fills dirId start) (liftM act : Daemon α) :=
  keeps_lift (fun forest => NodeArena.Filled dirId start forest.nodes) act

theorem fills_whiten
    (name : Name) :
    Keeps (Fills dirId start)
      (modifyNode dirId fun parent => parent.insertWhiteout name) :=
  fun _ filled => filled.settle (OvlNode.stem_insertWhiteout · name)
    fun node _ => OvlNode.getChild_of_shape (node.shape_insertWhiteout name) _

theorem fills_loadNewEntry
    (path : Path)
    (layerIdx : Nat)
    (entry : DirEntry) :
    Keeps (Fills dirId start)
      (loadNewEntry env dirId path layerIdx entry) := by
  refine Keeps.bind (fills_lift _) fun whited => ?_
  split
  · exact fills_whiten entry.name
  · split
    · next white _ =>
        exact Keeps.bind (Keeps.gets _) fun parent =>
          Keeps.runIf (fills_whiten white)
    · refine Keeps.bind (fills_lift _) fun device => ?_
      split
      · exact fills_whiten entry.name
      · refine Keeps.bind (fills_lift _) fun found => ?_
        obtain ⟨ino, dev, mode⟩ := found
        have adds :
            Keeps (Fills dirId start)
              (insertChildNode dirId
                { OvlNode.new entry.name layerIdx ino dev
                    (mode.isDir || entry.dtype = some .dir) with
                  mode := mode
                  lastLayerIdx := layerIdx
                  parent := some dirId }) :=
          fun _ filled => filled.adopt (.of_dirState rfl)
        exact Keeps.bind adds fun _ => Keeps.pure _

theorem fills_loadEntry
    (path : Path)
    (layerIdx : Nat)
    (entry : DirEntry) :
    Keeps (Fills dirId start) (loadEntry env dirId path layerIdx entry) := by
  unfold loadEntry
  split
  · exact Keeps.pure _
  · refine Holds.getsBind fun parent => ?_
    cases found : parent.bind (·.getChild entry.name) with
    | some existingId =>
        rintro sys ⟨filled, rfl⟩
        obtain ⟨node, stored, isChild⟩ := Option.bind_eq_some_iff.mp found
        exact filled.date ⟨node, stored, isChild⟩ layerIdx
    | none =>
        simp only
        split
        · exact Holds.pure fun _ holds => holds.1
        · rintro sys ⟨filled, -⟩
          exact fills_loadNewEntry path layerIdx entry sys filled

theorem fills_loadLayer
    (path : Path)
    (lastLayerStop : Option Nat)
    (layerIdx : Nat) :
    Keeps (Fills dirId start)
      (loadLayer env dirId path lastLayerStop layerIdx) := by
  refine Keeps.bind (fills_lift _) fun found => ?_
  split
  · split
    · refine Keeps.map (Keeps.bind (fills_lift _) fun stream => ?_)
      cases stream with
      | error errno =>
          exact Keeps.pure _
      | ok entries =>
          refine Keeps.bind
            (Keeps.each (fills_loadEntry path layerIdx) entries) fun _ => ?_
          exact Keeps.bind (fills_lift _) fun cut => Keeps.pure _
    · exact Keeps.pure none
  all_goals exact Keeps.pure _

theorem fills_loadLayers
    (path : Path)
    (lastLayerStop : Option Nat)
    (layers : List Nat) :
    Keeps (Fills dirId start)
      (loadLayers env dirId path lastLayerStop layers) := by
  induction layers with
  | nil =>
      exact Keeps.pure ()
  | cons layerIdx rest inductionHypothesis =>
      refine Keeps.bind (fills_loadLayer path lastLayerStop layerIdx)
        fun next => ?_
      split
      · exact inductionHypothesis
      · exact Keeps.pure ()

/-- Loading fills the directory and changes no other node. -/
theorem fills_loadDirImpl
    (path : Path)
    (lastLayerStop : Option Nat) :
    Keeps (Fills dirId start) (loadDirImpl env dirId path lastLayerStop) :=
  Keeps.bind (fills_loadLayers path lastLayerStop _) fun _ _ filled =>
    filled.settle OvlNode.stem_markLoaded fun node _ =>
      OvlNode.getChild_of_shape node.shape_markLoaded _

end Daemon

/-! ## Trees that show the union -/

namespace NodeArena

variable {env : Env} {disk : Disk} {arena : NodeArena}

/-- Every node of the tree stands for what the union shows at its path, and
every loaded directory shows all of it. -/
structure Unites
    (env : Env)
    (disk : Disk)
    (arena : NodeArena) : Prop where
  top : ∀ {node}, arena.get? rootId = some node → node.lastLayerIdx = 0
  blank :
    ∀ {id node}, arena.get? id = some node → node.isLoaded = false →
      node.Blank
  placed :
    ∀ {path name id node}, arena.Walk (path ++ [name]) id →
      arena.get? id = some node →
      Plain name ∧
        (Daemon.stack env disk).shown path name =
          some (node.layerIdx, node.isDir) ∧
        Daemon.LastHeld disk path name ((Daemon.stack env disk).dirs path)
          node.lastLayerIdx
  read :
    ∀ {path id node}, arena.Walk path id → arena.get? id = some node →
      node.isLoaded = true → ∀ name, Plain name →
        arena.listed id name = (Daemon.stack env disk).shown path name

namespace Unites

/-- Only plain names are listed. -/
theorem unlisted
    (unites : arena.Unites env disk)
    {path : Path}
    {id : NodeId}
    (walk : arena.Walk path id)
    {name : Name}
    (special : ¬ Plain name) :
    arena.listed id name = none := by
  cases isListed : arena.listed id name with
  | none =>
      rfl
  | some found =>
      unfold listed at isListed
      obtain ⟨child, isChild, found⟩ := Option.bind_eq_some_iff.mp isListed
      obtain ⟨node, stored, isChild⟩ := Option.bind_eq_some_iff.mp isChild
      obtain ⟨below, belowStored, -⟩ := Option.map_eq_some_iff.mp found
      exact (special (unites.placed (walk.step ⟨node, stored, isChild⟩)
        belowStored).1).elim

/-- A directory of the tree is loaded from the layers of the union. -/
theorem layersRead
    (unites : arena.Unites env disk)
    (tidy : Daemon.TidyStack env disk)
    (tree : arena.Tree)
    {path : Path}
    {id : NodeId}
    {node : OvlNode}
    (walk : arena.Walk path id)
    (stored : arena.get? id = some node)
    (isDir : node.isDir = true) :
    Disk.Proper path ∧
      Daemon.layersRead env disk path (Daemon.readStop id node)
          (Daemon.layerIndices env) =
        (Daemon.stack env disk).dirs path := by
  induction walk generalizing node with
  | root =>
      exact ⟨by simp [Disk.Proper], tidy.layersRead_root⟩
  | @step path parent child name above entry inductionHypothesis =>
      have parentEntry := entry
      obtain ⟨parentNode, parentStored, isChild⟩ := parentEntry
      have parentDir : parentNode.isDir = true := by
        cases shape : parentNode.dirState with
        | notADir => simp [OvlNode.getChild, shape] at isChild
        | dir children whiteouts loaded => simp [OvlNode.isDir, shape]
      obtain ⟨proper, parentReads⟩ :=
        inductionHypothesis parentStored parentDir
      obtain ⟨plain, isShown, lastHeld⟩ :=
        unites.placed (above.step entry) stored
      rw [isDir] at isShown
      have notRoot : child ≠ rootId := by
        rintro rfl
        exact tree.orphan_root (by simp) _ _ entry
      constructor
      · intro part among
        rcases List.mem_append.mp among with among | last
        · exact proper part among
        · rw [List.mem_singleton.mp last]
          have notEmpty : name ≠ [] := by
            rintro rfl
            exact lastHeld.2.1 (tidy.named _ _)
          simp [Disk.isSpecial, plain.1, plain.2.1, notEmpty]
      · rw [show Daemon.readStop child node = some node.lastLayerIdx from
          if_neg notRoot]
        exact tidy.layersRead_child plain proper parentReads isShown lastHeld

end Unites

end NodeArena

namespace Daemon

open NodeArena

variable {env : Env} {disk : Disk}

/-- A record of the layers of a directory is what the union shows there. -/
theorem TidyStack.record
    (tidy : TidyStack env disk)
    {path : Path}
    {name : Name}
    (plain : Plain name) :
    (addLayers env disk path .empty ((stack env disk).dirs path)).view name =
        (stack env disk).shown path name ∧
      ∀ found, (addLayers env disk path .empty
            ((stack env disk).dirs path)).child name = some found →
        LastHeld disk path name ((stack env disk).dirs path)
          found.lastLayerIdx := by
  exact record_addLayers plain
    (fun layerIdx member =>
      tidy.typed layerIdx ((stack env disk).dirs_lt member))
    (fun layerIdx => tidy.simple layerIdx path name)
    ((stack env disk).dirs_pairwise path) rfl rfl

/-- A directory lists what the record of its layers shows. -/
theorem listed_of_recorded
    {now : NodeArena}
    {dirId : NodeId}
    {later : OvlNode}
    {ledger : Ledger}
    (stored : now.get? dirId = some later)
    (recorded : RecordedBy now later ledger)
    {name : Name}
    (live :
      ∀ {child}, later.getChild name = some child → now.Live child) :
    now.listed dirId name = ledger.view name := by
  unfold NodeArena.listed view
  rw [stored, Option.bind_some]
  have known := recorded.known name
  cases isChild : later.getChild name with
  | none =>
      rw [isChild, Option.isSome_none, Option.isSome_eq_false_iff,
        Option.isNone_iff_eq_none] at known
      rw [known]
      rfl
  | some child =>
      obtain ⟨below, belowStored⟩ := live isChild
      rw [recorded.child isChild belowStored]
      simp only [Option.bind_some, belowStored]
      rfl

/-- A node from before the directory was filled stands for what it stood for. -/
theorem kept_of_filled
    {start now : NodeArena}
    {dirId : NodeId}
    {node later : OvlNode}
    (filled : Filled dirId start now)
    (stored : start.get? dirId = some node)
    (laterStored : now.get? dirId = some later)
    (sameDir : later.isDir = node.isDir)
    {id : NodeId}
    {found : OvlNode}
    (isOld : id < start.nextId)
    (present : now.get? id = some found) :
    ∃ before, start.get? id = some before ∧
      found.layerIdx = before.layerIdx ∧ found.isDir = before.isDir ∧
      found.lastLayerIdx = before.lastLayerIdx := by
  obtain ⟨before, beforeStored, sameStem⟩ :=
    filled.stem_of_old isOld present
  refine ⟨before, beforeStored, congrArg (·.layerIdx) sameStem, ?_,
    congrArg (·.lastLayerIdx) sameStem⟩
  by_cases isDirId : id = dirId
  · subst isDirId
    rw [laterStored] at present
    rw [stored] at beforeStored
    cases present
    cases beforeStored
    exact sameDir
  · rw [filled.old id isOld isDirId, beforeStored] at present
    cases present
    rfl

/-- Every other directory lists what it listed. -/
theorem listed_of_filled
    {start now : NodeArena}
    {dirId : NodeId}
    {node later : OvlNode}
    (filled : Filled dirId start now)
    (stored : start.get? dirId = some node)
    (laterStored : now.get? dirId = some later)
    (sameDir : later.isDir = node.isDir)
    (startTree : start.Tree)
    {id : NodeId}
    (isOld : id < start.nextId)
    (other : id ≠ dirId)
    {name : Name}
    (live : ∀ {child}, now.Entry id name child → now.Live child) :
    now.listed id name = start.listed id name := by
  unfold NodeArena.listed
  have same := filled.old id isOld other
  rw [same]
  cases present : start.get? id with
  | none =>
      rfl
  | some found =>
      rw [Option.bind_some]
      cases isChild : found.getChild name with
      | none =>
          rfl
      | some child =>
          have entry : start.Entry id name child := ⟨found, present, isChild⟩
          obtain ⟨below, belowStored⟩ :=
            live ⟨found, same.trans present, isChild⟩
          obtain ⟨old, oldStored, sameLayer, sameKind, -⟩ :=
            kept_of_filled filled stored laterStored sameDir
              (startTree.entryBounded entry) belowStored
          rw [Option.bind_some, Option.bind_some, belowStored, oldStored,
            Option.map_some, Option.map_some, sameLayer, sameKind]

/-- A directory that has been filled with what the union shows there. -/
theorem unites_of_filled
    {start now : NodeArena}
    {dirId : NodeId}
    {path : Path}
    {node later : OvlNode}
    (tidy : TidyStack env disk)
    (startTree : start.Tree)
    (tree : now.Tree)
    (unites : start.Unites env disk)
    (filled : Filled dirId start now)
    (walkDir : start.Walk path dirId)
    (stored : start.get? dirId = some node)
    (laterStored : now.get? dirId = some later)
    (sameDir : later.isDir = node.isDir)
    (loaded : later.isLoaded = true)
    (recorded :
      RecordedBy now later
        (addLayers env disk path .empty ((stack env disk).dirs path))) :
    now.Unites env disk := by
  have kept :
      ∀ {id found}, id < start.nextId → now.get? id = some found →
        ∃ before, start.get? id = some before ∧
          found.layerIdx = before.layerIdx ∧ found.isDir = before.isDir ∧
          found.lastLayerIdx = before.lastLayerIdx :=
    kept_of_filled filled stored laterStored sameDir
  constructor
  · intro found present
    obtain ⟨old, oldStored, -, -, sameLast⟩ :=
      kept (startTree.bounded startTree.live_root) present
    rw [sameLast]
    exact unites.top oldStored
  · intro id found present unloaded
    by_cases isOld : id < start.nextId
    · by_cases isDirId : id = dirId
      · subst isDirId
        rw [laterStored] at present
        cases present
        rw [loaded] at unloaded
        cases unloaded
      · rw [filled.old id isOld isDirId] at present
        exact unites.blank present unloaded
    · exact filled.fresh (Nat.le_of_not_lt isOld) present
  · intro query name id found walk present
    rcases filled.walk_cases startTree walkDir walk with
      ⟨isOld, before⟩ | ⟨last, same, entry, -⟩
    · obtain ⟨old, oldStored, sameLayer, sameKind, sameLast⟩ :=
        kept isOld present
      rw [sameLayer, sameKind, sameLast]
      exact unites.placed before oldStored
    · obtain ⟨samePath, sameName⟩ := List.append_inj' same rfl
      obtain rfl := samePath
      obtain rfl := List.singleton_inj.mp sameName
      obtain ⟨parent, parentStored, isChild⟩ := entry
      rw [laterStored] at parentStored
      cases parentStored
      have child := recorded.child isChild present
      have plain : Plain name := by
        by_contra special
        rw [unlisted_addLayers special rfl] at child
        cases child
      obtain ⟨isShown, lastHeld⟩ :=
        @TidyStack.record env disk tidy query name plain
      refine ⟨plain, ?_, lastHeld _ child⟩
      rw [← isShown, view, child]
      rfl
  · intro query id found walk present isLoaded name plain
    rcases filled.walk_cases startTree walkDir walk with
      ⟨isOld, before⟩ | ⟨-, -, -, isNew⟩
    · by_cases isDirId : id = dirId
      · subst isDirId
        obtain rfl := before.unique startTree walkDir
        rw [← (tidy.record plain).1]
        exact listed_of_recorded laterStored recorded fun isChild =>
          walk.live_child tree ⟨later, laterStored, isChild⟩
      · have same := filled.old id isOld isDirId
        rw [listed_of_filled filled stored laterStored sameDir startTree isOld
          isDirId (walk.live_child tree)]
        rw [same] at present
        exact unites.read before present isLoaded name plain
    · rw [(filled.fresh isNew present).unloaded] at isLoaded
      cases isLoaded

/-- Loading one more directory. -/
theorem unites_loadDirImpl
    {sys : Sys}
    {dirId : NodeId}
    {node : OvlNode}
    {path : Path}
    (tidy : TidyStack env disk)
    (ok : TreeOk sys)
    (noFaults : sys.os.faults = [])
    (same : disk.Reordered sys.os.disk)
    (unites : sys.nodes.Unites env disk)
    (walk : sys.nodes.Walk path dirId)
    (stored : sys.nodes.get? dirId = some node)
    (isDir : node.isDir = true)
    (unloaded : node.isLoaded = false) :
    (loadDirImpl env dirId path (readStop dirId node) sys).1 = .ok () ∧
      (loadDirImpl env dirId path (readStop dirId node) sys).2.os = sys.os ∧
      (loadDirImpl env dirId path (readStop dirId node) sys).2.nodes.Unites
        env disk := by
  have blank := unites.blank stored unloaded
  obtain ⟨proper, reads⟩ := unites.layersRead tidy ok.tree walk stored isDir
  have recorded : RecordedBy sys.nodes node .empty := by
    refine ⟨fun name => (blank.noWhite name).symm, fun name => ?_, ?_⟩
    · simp [Ledger.empty, blank.noChild name]
    · intro name id below isChild
      rw [blank.noChild] at isChild
      cases isChild
  obtain ⟨isOk, left⟩ := @leaves_loadDir env dirId path sys.os noFaults proper
    _ (readStop dirId node) sys ⟨ok, rfl, node, stored, isDir, recorded⟩
  rw [loadRecord_reordered same, loadRecord_eq, reads] at left
  have begun : Filled dirId sys.nodes sys.nodes := by
    refine ⟨ok.tree.bounded ⟨node, stored⟩, le_rfl, fun _ _ _ => rfl, rfl,
      ?_, ?_⟩
    · intro id found isNew present
      exact absurd (ok.tree.bounded ⟨found, present⟩) (Nat.not_lt.mpr isNew)
    · rintro name id ⟨found, present, isChild⟩
      rw [stored] at present
      cases present
      rw [blank.noChild] at isChild
      cases isChild
  have filled := @fills_loadDirImpl env dirId sys.nodes path
    (readStop dirId node) sys begun
  obtain ⟨later, laterStored, laterDir, recorded⟩ := left.parent
  refine ⟨isOk, left.sameOs, ?_⟩
  exact unites_of_filled tidy ok.tree left.ok.tree unites filled walk stored
    laterStored (laterDir.trans isDir.symm)
    (isLoaded_loadDirImpl isOk laterStored laterDir) recorded

end Daemon

end FuseOverlay
