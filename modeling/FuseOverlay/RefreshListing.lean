import FuseOverlay.LoadingOrder
import FuseOverlay.Sample

namespace FuseOverlay

/-!
# Refreshing a directory

`REFRESH_DIR` forgets the children of a directory and loads it again, with the
last layer that the node recorded when it was made as the bound of the loop.  A
fresh mount finds that bound anew.  Both list the same names as long as the
layers that only one of the two bounds reaches do not have the directory.
-/

/-! ## How far a load reaches -/

/-- Whether a bound lets the layer loop reach a layer. -/
def reaches
    (lastLayerStop : Option Nat)
    (layerIdx : Nat) : Bool :=
  match lastLayerStop with
  | none => true
  | some last => last = 0 || layerIdx ≤ last

/-- A layer that only one of two bounds reaches does not have the directory. -/
def SameReach
    (disk : Disk)
    (path : Path)
    (first second : Option Nat) : Prop :=
  ∀ layerIdx, reaches first layerIdx ≠ reaches second layerIdx →
    ∀ dir, disk.placeAt (.layer layerIdx) path ≠ .dir dir

namespace Daemon

open Syscall

variable {env : Env} {disk : Disk} {path : Path}

/-- A loop that does not stop at a layer reaches the next one. -/
theorem reaches_succ
    {lastLayerStop : Option Nat}
    {layerIdx : Nat}
    (reached : reaches lastLayerStop layerIdx = true)
    (goesOn : stopsAt lastLayerStop layerIdx = false) :
    reaches lastLayerStop (layerIdx + 1) = true := by
  cases lastLayerStop with
  | none =>
      rfl
  | some last =>
      simp only [reaches, Bool.or_eq_true, decide_eq_true_eq] at reached ⊢
      simp only [stopsAt, Option.some.injEq, Bool.and_eq_false_iff,
        decide_eq_false_iff_not] at goesOn
      omega

/-- A bound at which the loop stops does not reach further. -/
theorem reaches_of_stopsAt
    {lastLayerStop : Option Nat}
    {layerIdx later : Nat}
    (stops : stopsAt lastLayerStop layerIdx = true)
    (isLater : layerIdx < later) :
    reaches lastLayerStop later = false := by
  cases lastLayerStop with
  | none =>
      simp [stopsAt] at stops
  | some last =>
      simp only [stopsAt, Option.some.injEq, Bool.and_eq_true,
        decide_eq_true_eq] at stops
      simp only [reaches, Bool.or_eq_false_iff, decide_eq_false_iff_not]
      omega

/-- A layer without the directory leaves the record alone. -/
theorem layerEffect_notDir
    {layerIdx : Nat}
    (notDir : ∀ dir, disk.placeAt (.layer layerIdx) path ≠ .dir dir)
    (ledger : Ledger) :
    (layerEffect env disk path layerIdx ledger).2 = ledger := by
  unfold layerEffect
  split
  · next st answer =>
      split
      · next isDir =>
          obtain ⟨dir, place⟩ := placeAt_of_statat answer isDir
          exact (notDir dir place).elim
      · rfl
  · rfl
  · rfl
  · rfl

/-- Layers without the directory leave the record alone. -/
theorem loadRecord_idle
    {lastLayerStop : Option Nat}
    (count start : Nat)
    (reached : reaches lastLayerStop start = true)
    (notDir :
      ∀ layerIdx, start ≤ layerIdx → reaches lastLayerStop layerIdx = true →
        ∀ dir, disk.placeAt (.layer layerIdx) path ≠ .dir dir)
    (ledger : Ledger) :
    loadRecord env disk path lastLayerStop (List.range' start count) ledger =
      ledger := by
  induction count generalizing start with
  | zero =>
      rfl
  | succ count inductionHypothesis =>
      have same := @layerEffect_notDir env disk path start
        (notDir start le_rfl reached) ledger
      rw [List.range'_succ]
      unfold loadRecord
      rcases effect : layerEffect env disk path start ledger with
        ⟨goesOn, now⟩
      rw [effect] at same
      simp only at same
      subst same
      split
      · next isEffect =>
          cases isEffect
          cases stops : stopsAt lastLayerStop start with
          | true =>
              rfl
          | false =>
              apply inductionHypothesis
              · exact reaches_succ reached stops
              · intro layerIdx further
                exact notDir layerIdx (by omega)
      · next isEffect =>
          cases isEffect
          rfl

/-- Two bounds that reach the same layers with the directory leave the same
record. -/
theorem loadRecord_sameReach
    {first second : Option Nat}
    (same : SameReach disk path first second)
    (count start : Nat)
    (firstReached : reaches first start = true)
    (secondReached : reaches second start = true)
    (ledger : Ledger) :
    loadRecord env disk path first (List.range' start count) ledger =
      loadRecord env disk path second (List.range' start count) ledger := by
  induction count generalizing start ledger with
  | zero =>
      rfl
  | succ count inductionHypothesis =>
      rw [List.range'_succ]
      unfold loadRecord
      rcases layerEffect env disk path start ledger with ⟨goesOn, now⟩
      cases goesOn with
      | none =>
          rfl
      | some cut =>
          cases cut with
          | true =>
              rfl
          | false =>
              simp only
              cases firstStops : stopsAt first start with
              | true =>
                  cases secondStops : stopsAt second start with
                  | true =>
                      rfl
                  | false =>
                      apply Eq.symm
                      apply loadRecord_idle
                      · exact reaches_succ secondReached secondStops
                      · intro layerIdx further isReached
                        apply same
                        rw [isReached, reaches_of_stopsAt firstStops further]
                        decide
              | false =>
                  cases secondStops : stopsAt second start with
                  | true =>
                      apply loadRecord_idle
                      · exact reaches_succ firstReached firstStops
                      · intro layerIdx further isReached
                        apply same
                        rw [isReached, reaches_of_stopsAt secondStops further]
                        decide
                  | false =>
                      exact inductionHypothesis _
                        (reaches_succ firstReached firstStops)
                        (reaches_succ secondReached secondStops) now

theorem loadRecord_layerIndices
    {first second : Option Nat}
    (same : SameReach disk path first second)
    (ledger : Ledger) :
    loadRecord env disk path first (layerIndices env) ledger =
      loadRecord env disk path second (layerIndices env) ledger := by
  have atStart : ∀ bound, reaches bound 0 = true := by
    intro bound
    cases bound <;> simp [reaches]
  unfold layerIndices
  rw [List.range_eq_range']
  exact loadRecord_sameReach same env.layers.length 0 (atStart first)
    (atStart second) ledger

end Daemon

/-! ## What a loaded directory lists -/

namespace Ledger

/-- The record of a directory that nothing was read of. -/
def empty : Ledger where
  child _ := none
  white _ := false

end Ledger

namespace NodeArena

/-- The layer and the type of the child that a directory lists by a name. -/
def listed
    (arena : NodeArena)
    (dirId : NodeId)
    (name : Name) :
    Option (Nat × Bool) :=
  ((arena.get? dirId).bind (·.getChild name)).bind fun id =>
    (arena.get? id).map fun node => (node.layerIdx, node.isDir)

end NodeArena

/-- What a record lists by a name. -/
def Ledger.listed
    (ledger : Ledger)
    (name : Name) :
    Option (Nat × Bool) :=
  (ledger.child name).map fun found => (found.layerIdx, found.isDir)

namespace Daemon

open Syscall Act

/-- A directory that was loaded from nothing lists its record. -/
theorem listed_of_traces
    {env : Env}
    {os : Os}
    {path : Path}
    {dirId : NodeId}
    {start : NodeArena}
    {ledger : Ledger}
    {sys : Sys}
    (records : Records os dirId ledger sys)
    (traced : Traced env os.disk path dirId start sys.nodes)
    (bare : ∀ name id, ¬ start.Entry dirId name id)
    (name : Name) :
    sys.nodes.listed dirId name = ledger.listed name := by
  obtain ⟨node, stored, -, recorded⟩ := records.parent
  have known := recorded.known name
  unfold NodeArena.listed Ledger.listed
  rw [stored]
  simp only [Option.bind_some]
  cases isChild : node.getChild name with
  | none =>
      rw [isChild, Option.isSome_none, Option.isSome_eq_false_iff,
        Option.isNone_iff_eq_none] at known
      rw [known]
      rfl
  | some id =>
      rcases traced.added ⟨node, stored, isChild⟩ with
        old | ⟨child, childStored, -⟩
      · exact (bare name id old).elim
      · rw [recorded.child isChild childStored]
        simp only [Option.bind_some, childStored]
        rfl

/-- An empty directory node is loaded and lists the record of the layers. -/
theorem listed_loadDirImpl
    {env : Env}
    {sys : Sys}
    {dirId : NodeId}
    {node : OvlNode}
    {path : Path}
    (ok : TreeOk sys)
    (noFaults : sys.os.faults = [])
    (proper : Disk.Proper path)
    (stored : sys.nodes.get? dirId = some node)
    (isDir : node.isDir = true)
    (noChild : ∀ name, node.getChild name = none)
    (noWhite : ∀ name, node.isWhiteout name = false)
    (lastLayerStop : Option Nat) :
    (loadDirImpl env dirId path lastLayerStop sys).1 = .ok () ∧
      (∃ loaded,
        (loadDirImpl env dirId path lastLayerStop sys).2.nodes.get? dirId =
          some loaded ∧ loaded.isDir = true ∧ loaded.isLoaded = true) ∧
      ∀ name,
        (loadDirImpl env dirId path lastLayerStop sys).2.nodes.listed dirId
            name =
          (loadRecord env sys.os.disk path lastLayerStop (layerIndices env)
            .empty).listed name := by
  have recorded : RecordedBy sys.nodes node .empty := by
    refine ⟨?_, ?_, ?_⟩
    · exact fun name => (noWhite name).symm
    · exact fun name => by simp [Ledger.empty, noChild name]
    · intro name id below isChild
      rw [noChild] at isChild
      cases isChild
  have records : Records sys.os dirId .empty sys :=
    ⟨ok, rfl, node, stored, isDir, recorded⟩
  have bare : ∀ name id, ¬ sys.nodes.Entry dirId name id := by
    rintro name id ⟨found, foundStored, isChild⟩
    rw [stored] at foundStored
    cases foundStored
    rw [noChild] at isChild
    cases isChild
  obtain ⟨isOk, left⟩ := @leaves_loadDir env dirId path sys.os noFaults
    proper _ lastLayerStop sys records
  have traces := @traces_loadDirImpl env sys.os path dirId sys.nodes noFaults
    proper lastLayerStop sys ⟨⟨_, records⟩, .refl ..⟩
  obtain ⟨loaded, loadedStored, loadedDir, -⟩ := left.parent
  refine ⟨isOk, ⟨loaded, loadedStored, loadedDir, ?_⟩, ?_⟩
  · exact isLoaded_loadDirImpl isOk loadedStored loadedDir
  · exact listed_of_traces left traces.2 bare

/-! ## The refresh -/

theorem listed_refreshDir
    {env : Env}
    {sys : Sys}
    {dirId : NodeId}
    {node : OvlNode}
    (ok : TreeOk sys)
    (noFaults : sys.os.faults = [])
    (proper : Disk.Proper (nodeParts sys.nodes dirId))
    (stored : sys.nodes.get? dirId = some node)
    (isDir : node.isDir = true)
    (name : Name) :
    (refreshDir env dirId sys).2.nodes.listed dirId name =
      (loadRecord env sys.os.disk (nodeParts sys.nodes dirId)
        (some node.lastLayerIdx) (layerIndices env) .empty).listed name := by
  let cleared : Sys :=
    { sys with nodes := sys.nodes.modify dirId OvlNode.clearChildren }
  have clearedStored :
      cleared.nodes.get? dirId = some node.clearChildren := by
    simp [cleared, NodeArena.get?_modify, stored]
  have noWhite : ∀ name, node.clearChildren.isWhiteout name = false := by
    intro name
    cases kind : node.dirState <;>
      simp [OvlNode.clearChildren, OvlNode.isWhiteout, kind]
  obtain ⟨isOk, -, listed⟩ := @listed_loadDirImpl env cleared dirId
    node.clearChildren (nodeParts sys.nodes dirId)
    ⟨ok.tree.clear dirId, ok.listed⟩ noFaults proper clearedStored
    ((OvlNode.isDir_clearChildren node).trans isDir)
    (OvlNode.getChild_clearChildren node) noWhite (some node.lastLayerIdx)
  have ran : refreshDir env dirId sys =
      (loadDirImpl env dirId (nodeParts sys.nodes dirId)
        (some node.lastLayerIdx) >>= fun _ => pure Reply.ok) cleared := by
    have found : Daemon.node dirId sys = (.ok node, sys) := by
      unfold Daemon.node
      rw [Act.bind_ok (show getNode dirId sys = (.ok (some node), sys) from by
        rw [← stored]; rfl)]
      rfl
    unfold refreshDir
    rw [Act.bind_ok found]
    simp only [isDir]
    rfl
  rw [ran]
  rcases loaded : loadDirImpl env dirId (nodeParts sys.nodes dirId)
      (some node.lastLayerIdx) cleared with ⟨outcome, later⟩
  rw [loaded] at isOk listed
  simp only at isOk
  subst isOk
  rw [Act.bind_ok loaded]
  exact listed name

/-! ## A fresh load -/

/-- What `lookup` and `opendir` run to read a directory; the root is loaded
without a bound. -/
def readDir
    (env : Env)
    (dirId : NodeId) :
    Daemon Unit :=
  if dirId = rootId then ensureRootLoaded env
  else do
    let _ ← reloadDir env dirId

/-- The bound with which a directory is read. -/
def readStop
    (dirId : NodeId)
    (node : OvlNode) :
    Option Nat :=
  if dirId = rootId then none else some node.lastLayerIdx

/-- A directory of which nothing was read. -/
structure Unread
    (nodes : NodeArena)
    (dirId : NodeId)
    (node : OvlNode) : Prop where
  stored : nodes.get? dirId = some node
  isDir : node.isDir = true
  unloaded : node.isLoaded = false
  noChild : ∀ name, node.getChild name = none
  noWhite : ∀ name, node.isWhiteout name = false

theorem listed_readDir
    {env : Env}
    {sys : Sys}
    {dirId : NodeId}
    {node : OvlNode}
    (ok : TreeOk sys)
    (noFaults : sys.os.faults = [])
    (unread : Unread sys.nodes dirId node)
    (proper : Disk.Proper (nodeParts sys.nodes dirId))
    (name : Name) :
    (readDir env dirId sys).2.nodes.listed dirId name =
      (loadRecord env sys.os.disk (nodeParts sys.nodes dirId)
        (readStop dirId node) (layerIndices env) .empty).listed name := by
  obtain ⟨stored, isDir, unloaded, noChild, noWhite⟩ := unread
  obtain ⟨isOk, -, listed⟩ := @listed_loadDirImpl env sys dirId node
    (nodeParts sys.nodes dirId) ok noFaults proper stored isDir noChild
    noWhite (readStop dirId node)
  have asked : getNode dirId sys = (.ok (some node), sys) := by
    rw [← stored]
    rfl
  rw [← listed name]
  congr 2
  unfold readDir readStop at *
  by_cases isRoot : dirId = rootId
  · subst isRoot
    have atRoot : nodeParts sys.nodes rootId = [] :=
      NodeArena.Walk.root.nodeParts_eq ok.tree.linkedTree
    simp only [↓reduceIte, atRoot]
    unfold ensureRootLoaded
    rw [Act.bind_ok asked]
    simp only [Option.map_some, Option.getD_some, unloaded,
      Bool.false_eq_true, ↓reduceIte]
  · simp only [isRoot, ↓reduceIte] at isOk ⊢
    rcases ran : loadDirImpl env dirId (nodeParts sys.nodes dirId)
        (some node.lastLayerIdx) sys with ⟨outcome, later⟩
    rw [ran] at isOk
    simp only at isOk
    subst isOk
    have loads : reloadDir env dirId sys = (.ok true, later) := by
      unfold reloadDir
      rw [Act.bind_ok asked]
      simp only [unloaded, Bool.false_eq_true, ↓reduceIte]
      rw [Act.bind_ok (show nodePath dirId sys =
        (.ok (nodeParts sys.nodes dirId), sys) from rfl), Act.bind_ok ran]
      rfl
    rw [Act.bind_ok loads]
    rfl

/-- The command reaches the directory of the number. -/
theorem ioctl_refresh
    {env : Env}
    {sys : Sys}
    {ino : UInt64}
    {dirId : NodeId}
    {node : OvlNode}
    (resolved : sys.forest.resolve ino = some dirId)
    (stored : sys.nodes.get? dirId = some node)
    (fh : Nat) :
    ioctl env ino fh false .refreshDir sys = refreshDir env dirId sys := by
  have checked :
      (Act.check (!false) .ENOSYS : Daemon Unit) sys = (.ok (), sys) := rfl
  have live : sys.nodes.containsKey dirId = true := by
    change (sys.nodes.get? dirId).isSome = true
    rw [stored]
    rfl
  have answered : resolveIno ino sys = (.ok (some dirId), sys) := by
    rw [← resolved]
    rfl
  have present : resolveNode ino sys = (.ok dirId, sys) := by
    unfold resolveNode presentOr
    rw [Act.bind_ok answered,
      Act.bind_ok (show (Act.orFail (some dirId) .ENOENT : Daemon NodeId) sys =
        (.ok dirId, sys) from rfl),
      Act.bind_ok (show Act.gets (fun sys : Sys =>
        sys.nodes.containsKey dirId) sys = (.ok true, sys) from by
          rw [Act.gets_apply, live])]
    rfl
  unfold ioctl
  rw [Act.bind_ok checked, Act.bind_ok present]

end Daemon

/-! ## Refreshed and fresh directories -/

namespace Sys

open Daemon

/-- The layers were changed from outside. -/
def withDisk
    (sys : Sys)
    (disk : Disk) :
    Sys :=
  { sys with os := { sys.os with disk := disk } }

/-- The command to read a directory again. -/
def refresh
    (ino : UInt64)
    (fh : Nat)
    (inos : List UInt64)
    (now : Timespec) :
    Call :=
  ⟨.ioctl ino fh false .refreshDir, [], inos, now⟩

end Sys

namespace Sample

/-- A directory on the first of two lower layers. -/
def lowerDir : Disk :=
  disk 2 [(⟨.layer 1, [ascii "d"]⟩, obj .dir [] 11)]

/-- The directory appears on the second one too, with a file. -/
def grownDir : Disk :=
  disk 2 [(⟨.layer 1, [ascii "d"]⟩, obj .dir [] 11),
    (⟨.layer 2, [ascii "d"]⟩, obj .dir [] 12),
    (⟨.layer 2, [ascii "d", ascii "f"]⟩, obj .reg [] 13)]

/-- A file appears where the directory was already. -/
def filledDir : Disk :=
  disk 2 [(⟨.layer 1, [ascii "d"]⟩, obj .dir [] 11),
    (⟨.layer 1, [ascii "d", ascii "f"]⟩, obj .reg [] 13)]

/-- The directory is looked up, and so its last layer is recorded. -/
def lookDir : List Call :=
  [call (.lookup 1 (ascii "d"))]

/-- The mount over the old layers, which then change. -/
def staleDir (old : Disk) : Sys :=
  .run (env 2) (.mount (env 2) old) lookDir

/-- A mount over the changed layers that has listed its root. -/
def listedRoot (layers : Disk) : Sys :=
  { Sys.run (env 2) (.mount (env 2) layers) [call (.opendir 1)] with
    os := (Sys.mount (env 2) layers).os }

end Sample

namespace Sys

open Sample Daemon

/-- A directory of which nothing was read, as a test. -/
theorem unread_of_test
    {nodes : NodeArena}
    {dirId : NodeId}
    {lastLayerIdx : Nat}
    (tests :
      (nodes.get? dirId).map (fun node =>
        (node.lastLayerIdx,
          match node.dirState with
          | .dir children whiteouts loaded =>
              children.toList.isEmpty && decide (whiteouts = ∅) && !loaded
          | .notADir => false)) = some (lastLayerIdx, true)) :
    ∃ node, Unread nodes dirId node ∧ node.lastLayerIdx = lastLayerIdx := by
  obtain ⟨node, stored, isNode⟩ := Option.map_eq_some_iff.mp tests
  simp only [Prod.mk.injEq] at isNode
  obtain ⟨isLast, empty⟩ := isNode
  cases kind : node.dirState with
  | notADir =>
      rw [kind] at empty
      cases empty
  | dir children whiteouts loaded =>
      rw [kind] at empty
      simp only [Bool.and_eq_true, decide_eq_true_eq,
        Bool.not_eq_true'] at empty
      obtain ⟨⟨noChildren, noWhiteouts⟩, unloaded⟩ := empty
      refine ⟨node, ⟨stored, ?_, ?_, ?_, ?_⟩, isLast⟩
      · simp [OvlNode.isDir, kind]
      · simp [OvlNode.isLoaded, kind, unloaded]
      · intro name
        simp only [OvlNode.getChild, kind]
        cases found : children.get? name with
        | none =>
            rfl
        | some id =>
            have listed := FMap.mem_toList_iff.mpr found
            rw [List.isEmpty_iff.mp noChildren] at listed
            cases listed
      · intro name
        simp [OvlNode.isWhiteout, kind, noWhiteouts]

theorem treeOk_listedRoot
    (layers : Disk) :
    TreeOk (listedRoot layers) := by
  have ok := @treeOk_run (env 2) _ (treeOk_mount (env 2) layers)
    [call (.opendir 1)]
  exact ⟨ok.tree, ok.listed⟩

end Sys

end FuseOverlay
