import FuseOverlay.Looking
import FuseOverlay.RenameFlags
import FuseOverlay.Sample
import FuseOverlay.TableSteps
import FuseOverlay.WhiteoutRuns

namespace FuseOverlay

/-!
# The shortcut of lookup

`lookup` first tries to answer under the read lock, from children, whiteouts
and inode table alone.  Where it answers so, the slow path would give the same
answer: it asks children before whiteouts, but no name is both; a directory
that it loads first keeps its path and its place in the table; and it registers
a node that is registered already.
-/

open Act (Agrees Keeps Holds Gives Never)

/-! ## Paths -/

namespace NodeArena

/-- What of a node does not depend on its children. -/
def placeOf (node : OvlNode) :
    (Option NodeId × Name × Bool) × Nat × Bool × Option Name × InodeKey :=
  ((node.parent, node.name, node.isDir), node.layerIdx, node.hidden,
    node.hiddenPath, ⟨node.tmpIno, node.tmpDev⟩)

/-- The nodes of `start` are still there, with other children at most. -/
structure Outlasts
    (start later : NodeArena) : Prop where
  nextId : start.nextId ≤ later.nextId
  old :
    ∀ id, id < start.nextId →
      (later.get? id).map placeOf = (start.get? id).map placeOf

namespace Outlasts

variable {start later : NodeArena}

theorem refl
    (arena : NodeArena) :
    arena.Outlasts arena :=
  ⟨le_rfl, fun _ _ => rfl⟩

theorem modify
    (outlasts : start.Outlasts later)
    (id : NodeId)
    {change : OvlNode → OvlNode}
    (samePlace : ∀ node, placeOf (change node) = placeOf node) :
    start.Outlasts (later.modify id change) where
  nextId := outlasts.nextId
  old := by
    intro query isOld
    rw [← outlasts.old query isOld, get?_modify]
    split
    · next same =>
        subst same
        rw [Option.map_map]
        exact congrArg (Option.map · _) (funext samePlace)
    · rfl

theorem insert
    (outlasts : start.Outlasts later)
    (new : OvlNode) :
    start.Outlasts (later.insert new).2 where
  nextId := outlasts.nextId.trans (Nat.le_succ _)
  old := by
    intro query isOld
    rw [← outlasts.old query isOld, get?_insert, if_neg]
    exact Nat.ne_of_lt (isOld.trans_le outlasts.nextId)

/-- A node of the start is still stored, in its place. -/
theorem stored
    (outlasts : start.Outlasts later)
    (bounded : ∀ {id}, start.Live id → id < start.nextId)
    {id : NodeId}
    {node : OvlNode}
    (stored : start.get? id = some node) :
    ∃ found, later.get? id = some found ∧ placeOf found = placeOf node := by
  have same := outlasts.old id (bounded ⟨node, stored⟩)
  rw [stored, Option.map_some, Option.map_eq_some_iff] at same
  exact same

/-- A path that ends stays what it was. -/
theorem ascends
    (outlasts : start.Outlasts later)
    (bounded : ∀ {id}, start.Live id → id < start.nextId)
    {id : NodeId}
    {parts : List Name}
    (ascends : start.Ascends id parts) :
    later.Ascends id parts := by
  induction ascends with
  | top stored noParent =>
      obtain ⟨found, foundStored, same⟩ := outlasts.stored bounded stored
      refine .top foundStored ?_
      rw [show found.parent = _ from congrArg (·.1.1) same]
      exact noParent
  | gone absent old =>
      have same := outlasts.old _ old
      rw [absent, Option.map_none, Option.map_eq_none_iff] at same
      exact .gone same (old.trans_le outlasts.nextId)
  | @step id parent node parts stored isParent above inductionHypothesis =>
      obtain ⟨found, foundStored, same⟩ := outlasts.stored bounded stored
      have sameName : found.name = node.name := congrArg (·.1.2.1) same
      have sameParent : found.parent = node.parent := congrArg (·.1.1) same
      rw [← sameName]
      exact .step foundStored (sameParent.trans isParent) inductionHypothesis

end Outlasts

end NodeArena

namespace Syscall

variable {env : Env} {os : Os}

/-! ## System calls without a fault -/

theorem agrees_query_noFaults
    {α : Type}
    (noFaults : os.faults = [])
    (read : Disk → Except Errno α) :
    Agrees (fun first second => first = os ∧ second = os) (query read) := by
  rintro first second ⟨rfl, rfl⟩
  rw [query_noFaults noFaults]
  exact ⟨rfl, rfl, rfl⟩

/-- Without a fault, looking at a layer changes nothing. -/
theorem reading_noFaults
    (noFaults : os.faults = []) :
    Reading env fun first second => first = os ∧ second = os where
  statat := fun _ _ => agrees_query_noFaults noFaults _
  fileExists := fun _ _ => agrees_query_noFaults noFaults _
  opendir := fun _ _ => agrees_query_noFaults noFaults _
  readlinkat := fun _ _ => agrees_query_noFaults noFaults _
  mark := fun _ _ _ _ => agrees_query_noFaults noFaults _
  owner := fun _ _ _ _ _ _ => agrees_query_noFaults noFaults _
  handle := fun _ _ _ => .gets fun first second same => by
    rw [same.1, same.2]

end Syscall

namespace Daemon

open Syscall Whiteout

variable {env : Env} {errno : Errno}

theorem looking_noFaults
    {os : Os}
    (noFaults : os.faults = []) :
    Looking env (fun first second => first = os ∧ second = os)
      (fun _ => True) fun first second => first = second ∧ first.os = os where
  reading := reading_noFaults noFaults
  hiddenStat := fun _ _ => agrees_query_noFaults noFaults _
  os := by
    rintro first _ ⟨rfl, same⟩
    exact ⟨same, same⟩
  setOs := by
    rintro first _ ⟨rfl, -⟩ _ _ ⟨rfl, rfl⟩
    exact ⟨rfl, rfl⟩
  nodes := fun _ _ related => congrArg Sys.nodes related.1
  hides := fun _ _ _ _ _ _ => .inr trivial
  setNodes := by
    rintro first _ ⟨rfl, same⟩ nodes _
    exact ⟨rfl, same⟩
  inodes := fun _ _ related => congrArg Sys.inodes related.1
  setInodes := by
    rintro first _ ⟨rfl, same⟩ inodes
    exact ⟨rfl, same⟩
  dirs := fun _ _ related =>
    ⟨congrArg Sys.openDirs related.1, congrArg Sys.nextDh related.1⟩
  setDirs := by
    rintro first _ ⟨rfl, same⟩ dirs next
    exact ⟨rfl, same⟩

/-! ## Loading does not fail -/

theorem never_loadNewEntry
    (parentId : NodeId)
    (path : Path)
    (layerIdx : Nat)
    (entry : DirEntry) :
    Never errno (loadNewEntry env parentId path layerIdx entry) := by
  refine .bind (never_lift (never_isWhFile _ _ _)) fun whited => ?_
  split
  · exact never_modifyNode _ _
  · split
    · refine .bind (.gets _) fun parent => ?_
      exact .runIf (never_modifyNode _ _)
    · refine .bind (never_lift ?_) fun device => ?_
      · unfold isDeviceEntry
        split
        · refine .bind (.attempt _) fun found => ?_
          split
          · exact .pure _
          · exact .pure _
        · exact .pure _
      · split
        · exact never_modifyNode _ _
        · refine .bind (never_lift ?_) fun found => ?_
          · unfold entryAttr
            simp only
            split
            · exact .pure _
            · refine .bind (.attempt _) fun found => ?_
              split
              · exact .pure _
              · exact .pure _
          · refine .bind (.bind ?_ fun _ => ?_) fun _ => .pure ()
            · exact fun _ failed => by cases failed
            · exact .bind (never_modifyNode _ _) fun _ => .pure _

theorem never_loadEntry
    (parentId : NodeId)
    (path : Path)
    (layerIdx : Nat)
    (entry : DirEntry) :
    Never errno (loadEntry env parentId path layerIdx entry) := by
  unfold loadEntry
  split
  · exact .pure ()
  · refine .bind (.gets _) fun parent => ?_
    split
    · exact never_modifyNode _ _
    · split
      · exact .pure ()
      · exact never_loadNewEntry parentId path layerIdx entry

theorem never_loadLayer
    (parentId : NodeId)
    (path : Path)
    (lastLayerStop : Option Nat)
    (layerIdx : Nat) :
    Never errno (loadLayer env parentId path lastLayerStop layerIdx) := by
  refine .bind (never_lift (.attempt _)) fun outcome => ?_
  split
  · split
    · refine .map ?_ _
      refine .bind (never_lift (.attempt _)) fun opened => ?_
      split
      · exact .pure _
      · refine .bind (.each (fun entry => ?_) _) fun _ => ?_
        · exact never_loadEntry parentId path layerIdx entry
        · exact .bind (never_lift (.attempt _)) fun cut => .pure _
    · exact .pure none
  · exact .pure _
  · exact .pure _
  · exact .pure none

theorem never_loadLayers
    (parentId : NodeId)
    (path : Path)
    (lastLayerStop : Option Nat)
    (layers : List Nat) :
    Never errno (loadLayers env parentId path lastLayerStop layers) := by
  induction layers with
  | nil =>
      exact .pure ()
  | cons layerIdx rest inductionHypothesis =>
      refine .bind (never_loadLayer parentId path lastLayerStop layerIdx)
        fun outcome => ?_
      split
      · exact inductionHypothesis
      · exact .pure ()

theorem never_reloadDir
    (nodeId : NodeId) :
    Never errno (reloadDir env nodeId) := by
  refine .bind (.gets _) fun found => ?_
  split
  · exact .pure true
  · split
    · exact .pure true
    · refine .bind (.gets _) fun path => ?_
      refine .bind (.bind ?_ fun _ => ?_) fun _ => .pure true
      · exact never_loadLayers nodeId path _ _
      · exact never_modifyNode _ _

/-! ## Loading changes the children alone -/

theorem loadRule_outlasts
    (start : NodeArena)
    (parentId : NodeId) :
    LoadRule parentId start.Outlasts where
  adds := by
    intro arena child _ _ outlasts
    refine (outlasts.insert child).modify parentId fun node => ?_
    unfold NodeArena.placeOf OvlNode.insertChild
    split
    · next isState =>
        simp [OvlNode.isDir, isState]
    · rfl
  marks := by
    intro arena name outlasts _
    refine outlasts.modify parentId fun node => ?_
    unfold NodeArena.placeOf OvlNode.insertWhiteout
    split
    · next isState =>
        simp [OvlNode.isDir, isState]
    · rfl
  dates := fun id _ outlasts => outlasts.modify id fun _ => rfl
  ends := by
    intro arena outlasts
    refine outlasts.modify parentId fun node => ?_
    unfold NodeArena.placeOf OvlNode.markLoaded
    split
    · next isState =>
        simp [OvlNode.isDir, isState]
    · rfl

/-- What loading a directory leaves as it was. -/
structure Reloaded
    (sys later : Sys) : Prop where
  os : later.os = sys.os
  inodes : later.inodes = sys.inodes
  nodes : sys.nodes.Outlasts later.nodes

theorem Reloaded.refl
    (sys : Sys) :
    Reloaded sys sys :=
  ⟨rfl, rfl, .refl sys.nodes⟩

theorem reloadDir_true
    (nodeId : NodeId) :
    Gives (fun _ => True) (reloadDir env nodeId)
      fun loaded _ => loaded = true := by
  refine Gives.getsBind fun found => ?_
  split
  · exact Gives.pure fun _ _ => rfl
  · split
    · exact Gives.pure fun _ _ => rfl
    · refine Gives.getsBind fun path => ?_
      exact Gives.bind (fun _ _ _ _ _ => trivial) fun _ =>
        Gives.pure fun _ _ => rfl

theorem reloadDir_reloaded
    {sys : Sys}
    (noFaults : sys.os.faults = [])
    (nodeId : NodeId) :
    ∃ later, reloadDir env nodeId sys = (.ok true, later) ∧
      Reloaded sys later := by
  obtain ⟨value, returned⟩ :
      ∃ value, (reloadDir env nodeId sys).1 = .ok value :=
    Never.returns (fun _ => never_reloadDir nodeId) sys
  have sameOs : (reloadDir env nodeId sys).2.os = sys.os :=
    ((looking_noFaults noFaults).reloadDir nodeId sys sys ⟨rfl, rfl⟩).2.2
  have sameInodes : (reloadDir env nodeId sys).2.inodes = sys.inodes := by
    exact (beside_table (· = sys.inodes)).reloadDir nodeId sys rfl
  have outlasts :
      sys.nodes.Outlasts (reloadDir env nodeId sys).2.nodes := by
    refine (?_ : Keeps (fun now => sys.nodes.Outlasts now.nodes) _) sys
      (.refl sys.nodes)
    exact keeps_reloadDir fun path stop =>
      (loadRule_outlasts sys.nodes nodeId).loadDirImpl path stop
  rcases ran : reloadDir env nodeId sys with ⟨outcome, later⟩
  rw [ran] at returned sameOs sameInodes outlasts
  cases returned
  cases reloadDir_true nodeId sys value later trivial ran
  exact ⟨later, rfl, sameOs, sameInodes, outlasts⟩

theorem ensureRootLoaded_reloaded
    {sys : Sys}
    (noFaults : sys.os.faults = []) :
    Reloaded sys (ensureRootLoaded env sys).2 where
  os := ((looking_noFaults noFaults).ensureRootLoaded sys sys ⟨rfl, rfl⟩).2.2
  inodes := (beside_table (· = sys.inodes)).ensureRootLoaded sys rfl
  nodes := by
    refine (?_ : Keeps (fun now => sys.nodes.Outlasts now.nodes) _) sys
      (.refl sys.nodes)
    refine Keeps.bind (Keeps.gets _) fun root => ?_
    split
    · exact Keeps.pure ()
    · exact (loadRule_outlasts sys.nodes rootId).loadDirImpl [] none

/-! ## The replied attributes -/

/-- The call on the node of one place. -/
theorem doStatWithPath_of_place
    {first second : OvlNode}
    (samePlace : NodeArena.placeOf second = NodeArena.placeOf first)
    (path : Path) :
    doStatWithPath env second path = doStatWithPath env first path := by
  have sameLayer : second.layerIdx = first.layerIdx :=
    congrArg (·.2.1) samePlace
  have sameHidden : second.hidden = first.hidden :=
    congrArg (·.2.2.1) samePlace
  have sameHiddenPath : second.hiddenPath = first.hiddenPath :=
    congrArg (·.2.2.2.1) samePlace
  unfold doStatWithPath
  rw [sameLayer, sameHidden, sameHiddenPath]

theorem never_getStInoWithPath
    (node : OvlNode)
    (path : Path) :
    Never errno (getStInoWithPath env node path) := by
  unfold getStInoWithPath
  split
  · exact .pure _
  · refine .bind ?_ fun _ => .pure _
    unfold rawStIno
    split
    · exact .bind (.gets _) fun _ => .pure _
    · exact .pure _

/-- Attributes are replied exactly if the call on the layer returns. -/
theorem rplStatWithPath_returns_iff
    {sys : Sys}
    {id : NodeId}
    {found : OvlNode}
    (stored : sys.nodes.get? id = some found)
    (path : Path) :
    (∃ st, (rplStatWithPath env id path sys).1 = .ok st) ↔
      ∃ st, (doStatWithPath env found path sys.os).1 = .ok st := by
  have isNode : node id sys = (.ok found, sys) := by
    change Act.orFail (sys.nodes.get? id) Errno.ENOENT sys = _
    rw [stored]
    rfl
  rw [show rplStatWithPath env id path sys = _ from Act.bind_ok isNode _]
  constructor
  · rintro ⟨st, returned⟩
    obtain ⟨raw, later, called, -⟩ := Act.bind_returns returned
    refine ⟨raw, ?_⟩
    exact congrArg Prod.fst called
  · rintro ⟨raw, called⟩
    obtain ⟨below, _, hasLayer, -⟩ := Act.bind_returns called
    have isLayer := (Act.orFail_returns hasLayer).1
    rcases ran : doStatWithPath env found path sys.os with ⟨outcome, os⟩
    rw [ran] at called
    cases called
    rw [Act.bind_ok (lift_apply ran)]
    refine Never.returns (fun errno => ?_) _
    refine .bind (never_lift ?_) fun layer => ?_
    · unfold layer
      rw [isLayer]
      exact .pure below
    · refine .bind (never_lift (.attempt _)) fun overridden => ?_
      refine .bind (never_lift (never_getStInoWithPath found path))
        fun ino => .gets _

/-- Loading a directory does not take the attributes of a node away. -/
theorem Reloaded.rplStatWithPath
    {sys later : Sys}
    (reloaded : Reloaded sys later)
    (bounded : ∀ {id}, sys.nodes.Live id → id < sys.nodes.nextId)
    {id : NodeId}
    (live : sys.nodes.Live id)
    {path : Path}
    {st : Stat}
    (replied : (rplStatWithPath env id path sys).1 = .ok st) :
    ∃ st, (Daemon.rplStatWithPath env id path later).1 = .ok st := by
  obtain ⟨found, stored⟩ := live
  obtain ⟨again, storedLater, samePlace⟩ :=
    reloaded.nodes.stored bounded stored
  obtain ⟨raw, called⟩ := (rplStatWithPath_returns_iff stored path).mp
    ⟨st, replied⟩
  refine (rplStatWithPath_returns_iff storedLater path).mpr ⟨raw, ?_⟩
  rw [doStatWithPath_of_place samePlace, reloaded.os]
  exact called

/-! ## Registering a registered node -/

end Daemon

namespace InodeTable

/-- The number and the lookup counter of a key. -/
def counter
    (inodes : InodeTable)
    (key : InodeKey) :
    Option (UInt64 × Int64) :=
  (inodes.getByKey key).map fun entry => (entry.fuseIno, entry.lookups)

/-- A live node of the entry is found by its own path. -/
theorem register_again
    {inodes : InodeTable}
    {arena : NodeArena}
    {ino dev : UInt64}
    {entry : OvlIno}
    {id : NodeId}
    (known : inodes.getByKey ⟨ino, dev⟩ = some entry)
    (member : id ∈ entry.nodes)
    (live : arena.Live id)
    (order : HashOrder)
    (mode : Mode) :
    inodes.register order arena id ino dev mode =
      some (entry.fuseIno,
        { inodes with
          table := inodes.table.set ⟨ino, dev⟩
            { entry with nodes := entry.nodes.filter arena.containsKey } }) := by
  obtain ⟨node, stored⟩ := live
  have among : id ∈ entry.nodes.filter arena.containsKey :=
    List.mem_filter.mpr ⟨member, NodeArena.containsKey_iff.mpr ⟨node, stored⟩⟩
  have filled : (entry.nodes.filter arena.containsKey).isEmpty = false := by
    rw [List.isEmpty_eq_false_iff]
    exact List.ne_nil_of_mem among
  change inodes.table.get? ⟨ino, dev⟩ = some entry at known
  unfold register
  simp only [known, filled, Bool.false_eq_true, ↓reduceIte]
  -- the node itself is the duplicate
  refine if_pos (List.any_eq_true.mpr ⟨id, among, ?_⟩)
  simp [stored]

/-- Dropping dead nodes from an entry touches no counter. -/
theorem counter_incLookup_set
    {inodes : InodeTable}
    {key : InodeKey}
    {entry : OvlIno}
    (known : inodes.getByKey key = some entry)
    (nodes : List NodeId)
    (query : InodeKey) :
    ({ inodes with
      table := inodes.table.set key { entry with nodes := nodes }
      }.incLookup key).counter query =
      (inodes.incLookup key).counter query := by
  change inodes.table.get? key = some entry at known
  unfold counter incLookup getByKey
  simp only [FMap.get?_modify]
  split
  · next same =>
      subst same
      simp [known]
  · next different =>
      rw [FMap.get?_set_of_ne _ different]

end InodeTable

namespace Daemon

open Syscall Whiteout

variable {env : Env} {sys : Sys}

/-! ## The two paths -/

/--
What the fast path replies, the slow path replies: the same error, or an entry
of the same number, with the same counters.
-/
def Shortcut
    (fast : Except Errno (Option Reply) × Sys)
    (slow : Except Errno Reply × Sys) : Prop :=
  match fast.1 with
  | .ok none => True
  | .error errno =>
      slow.1 = .error errno ∧
        ∀ key, slow.2.inodes.counter key = fast.2.inodes.counter key
  | .ok (some reply) =>
      (∃ quick full, reply = .entry quick ∧ slow.1 = .ok (.entry full) ∧
        full.ino = quick.ino) ∧
        ∀ key, slow.2.inodes.counter key = fast.2.inodes.counter key

theorem presentOr_dead
    {id : NodeId}
    (dead : sys.nodes.get? id = none)
    (errno : Errno) :
    presentOr (some id) errno sys = (.error errno, sys) := by
  rw [presentOr_apply, if_neg]
  intro contained
  obtain ⟨found, stored⟩ := NodeArena.containsKey_iff.mp contained
  rw [dead] at stored
  cases stored

theorem presentOr_live
    {id : NodeId}
    {found : OvlNode}
    (stored : sys.nodes.get? id = some found)
    (errno : Errno) :
    presentOr (some id) errno sys = (.ok id, sys) := by
  rw [presentOr_apply, if_pos (NodeArena.containsKey_iff.mpr ⟨found, stored⟩)]

theorem doLookupFile_whiteout
    {parent : UInt64}
    {name : Name}
    {parentId : NodeId}
    {pnode : OvlNode}
    (resolved : sys.forest.resolve parent = some parentId)
    (stored : sys.nodes.get? parentId = some pnode)
    (isWhite : pnode.isWhiteout name = true)
    (absent : pnode.getChild name = none) :
    doLookupFile env parent name sys = (.ok none, sys) := by
  have asked : resolveIno parent sys = (.ok (some parentId), sys) := by
    rw [← resolved]
    rfl
  have found : getNode parentId sys = (.ok (some pnode), sys) := by
    rw [← stored]
    rfl
  unfold doLookupFile
  rw [Act.bind_ok asked]
  simp only
  rw [Act.bind_ok found]
  simp only [absent, isWhite, Bool.true_or, ↓reduceIte]
  rfl

theorem keeps_rplStatWithPath
    (kept : Forest → Prop)
    (nodeId : NodeId)
    (path : Path) :
    Keeps (fun sys => kept sys.forest)
      (rplStatWithPath env nodeId path) := by
  refine Keeps.bind (Keeps.bind (Keeps.gets _) fun _ => Keeps.orFail _ _)
    fun found => ?_
  refine Keeps.bind (keeps_lift kept _) fun st => ?_
  refine Keeps.bind (keeps_lift kept _) fun layer => ?_
  refine Keeps.bind (keeps_lift kept _) fun overridden => ?_
  exact Keeps.bind (keeps_lift kept _) fun ino => Keeps.gets _

/-- A registered node is replied under its number and counted once. -/
theorem lookupIno_known
    {id : NodeId}
    {found : OvlNode}
    {entry : OvlIno}
    (known : sys.inodes.getByKey ⟨found.tmpIno, found.tmpDev⟩ = some entry)
    (member : id ∈ entry.nodes)
    (live : sys.nodes.Live id)
    (numbered : found.tmpIno ≠ 0 ∨ found.isDir)
    (mode : Mode) :
    ∃ later, lookupIno env id found mode sys = (.ok entry.fuseIno, later) ∧
      ∀ query, later.inodes.counter query =
        (sys.inodes.incLookup ⟨found.tmpIno, found.tmpDev⟩).counter query := by
  have registered :=
    InodeTable.register_again known member live env.order mode
  have ran :
      register env id found.tmpIno found.tmpDev mode sys =
        (.ok (some entry.fuseIno),
          { sys with
            inodes := { sys.inodes with
              table := sys.inodes.table.set ⟨found.tmpIno, found.tmpDev⟩
                { entry with
                  nodes := entry.nodes.filter sys.nodes.containsKey } } }) := by
    unfold register
    rw [registered]
  unfold lookupIno
  rw [if_pos numbered, Act.bind_ok ran]
  exact ⟨_, rfl, InodeTable.counter_incLookup_set known _⟩

/-- The load of a directory that the slow path makes for its link count. -/
theorem runIf_reloadDir
    (noFaults : sys.os.faults = [])
    (nodeId : NodeId)
    (wanted : Bool) :
    ∃ later,
      (Act.runIf wanted (do
        let loaded ← reloadDir env nodeId
        Act.check loaded Errno.EIO) : Daemon Unit) sys = (.ok (), later) ∧
      Reloaded sys later := by
  cases wanted with
  | false =>
      exact ⟨sys, rfl, .refl sys⟩
  | true =>
      obtain ⟨later, ran, reloaded⟩ := reloadDir_reloaded noFaults nodeId
      refine ⟨later, ?_, reloaded⟩
      change (reloadDir env nodeId >>= fun loaded =>
        Act.check loaded Errno.EIO) sys = _
      rw [Act.bind_ok ran]
      rfl

/-- The slow path on a cached child that is registered. -/
theorem lookupSlow_known
    (noFaults : sys.os.faults = [])
    (tree : sys.nodes.Tree)
    {parent : UInt64}
    {name : Name}
    {parentId childId : NodeId}
    {child : OvlNode}
    {parts : List Name}
    {entry : OvlIno}
    {st : Stat}
    (resolved : sys.forest.resolve parent = some parentId)
    (isEntry : sys.nodes.Entry parentId name childId)
    (stored : sys.nodes.get? childId = some child)
    (shown : child.hidden = false)
    (ascends : sys.nodes.Ascends childId parts)
    (numbered : child.tmpIno ≠ 0 ∨ child.isDir)
    (known : sys.inodes.getByKey ⟨child.tmpIno, child.tmpDev⟩ = some entry)
    (member : childId ∈ entry.nodes)
    (replied :
      (rplStatWithPath env childId (nodeParts sys.nodes childId) sys).1 =
        .ok st) :
    ∃ full later,
      lookupSlow env parent name sys = (.ok (.entry full), later) ∧
      full.ino = entry.fuseIno ∧
      ∀ query, later.inodes.counter query =
        (sys.inodes.incLookup ⟨child.tmpIno, child.tmpDev⟩).counter query := by
  obtain ⟨middle, loaded, reloaded⟩ := @runIf_reloadDir env sys noFaults childId
    (!env.config.staticNlink && child.isDir)
  obtain ⟨found, foundStored, samePlace⟩ :=
    reloaded.nodes.stored tree.bounded stored
  have samePath :
      nodeParts middle.nodes childId = nodeParts sys.nodes childId := by
    rw [(reloaded.nodes.ascends tree.bounded ascends).nodeParts_eq,
      ascends.nodeParts_eq]
  have foundShown : found.hidden = false :=
    (congrArg (·.2.2.1) samePlace).trans shown
  have sameKey :
      (⟨found.tmpIno, found.tmpDev⟩ : InodeKey) =
        ⟨child.tmpIno, child.tmpDev⟩ :=
    congrArg (·.2.2.2.2) samePlace
  have foundNumbered : found.tmpIno ≠ 0 ∨ found.isDir := by
    rw [show found.tmpIno = child.tmpIno from congrArg InodeKey.ino sameKey,
      show found.isDir = child.isDir from congrArg (·.1.2.2) samePlace]
    exact numbered
  -- the attributes are read once more, in the state that loading left
  obtain ⟨full, again⟩ :=
    reloaded.rplStatWithPath tree.bounded ⟨child, stored⟩ replied
  rw [← samePath, ← rplStat_shown foundStored foundShown] at again
  rcases ran : rplStat env childId middle with ⟨outcome, after⟩
  rw [ran] at again
  cases again
  have sameForest : after.forest = middle.forest := by
    have kept := @keeps_rplStatWithPath env (· = middle.forest) childId
      (nodeParts middle.nodes childId) middle rfl
    rw [← rplStat_shown foundStored foundShown, ran] at kept
    exact kept
  have sameNodes : after.nodes = middle.nodes := congrArg (·.nodes) sameForest
  have sameInodes : after.inodes = sys.inodes :=
    (congrArg (·.inodes) sameForest).trans reloaded.inodes
  rw [← sameNodes] at foundStored
  rw [← sameKey, ← sameInodes] at known
  obtain ⟨later, counted, counters⟩ :=
    @lookupIno_known env after childId found entry known member
      ⟨found, foundStored⟩ foundNumbered full.mode
  refine ⟨{ full with ino := entry.fuseIno }, later, ?_, rfl, ?_⟩
  · unfold lookupSlow
    rw [Act.bind_ok (doLookupFile_cached resolved isEntry),
      Act.bind_ok (presentOr_live stored _), Act.bind_ok (node_apply stored),
      Act.bind_ok loaded, Act.bind_ok ran, Act.bind_ok (node_apply foundStored),
      Act.bind_ok counted]
    rfl
  · intro query
    rw [counters, sameInodes, sameKey]

/-- What the fast path does once it has the directory. -/
def fastChild
    (env : Env)
    (childId : NodeId) :
    Daemon (Option Reply) := do
  let child ← node childId
  Act.check (!child.hidden) .ENOENT
  let key : InodeKey := ⟨child.tmpIno, child.tmpDev⟩
  match ← Act.gets fun sys => sys.inodes.getByKey key with
  | none => pure none
  | some entry =>
      if childId ∈ entry.nodes then do
        let path ← nodePath childId
        match ← (rplStatWithPath env childId path).attempt with
        | .error _ => pure none
        | .ok st => do
            incLookup key
            pure (some (.entry { st with ino := entry.fuseIno }))
      else
        pure none

/-- The fast path in a directory. -/
theorem lookupFast_dir
    {parent : UInt64}
    {name : Name}
    {parentId : NodeId}
    {pnode : OvlNode}
    (resolved : sys.forest.resolve parent = some parentId)
    (stored : sys.nodes.get? parentId = some pnode) :
    lookupFast env parent name sys =
      if pnode.isWhiteout name then (.error .ENOENT, sys)
      else
        match pnode.getChild name with
        | none => (.ok none, sys)
        | some childId => fastChild env childId sys := by
  have asked : resolveIno parent sys = (.ok (some parentId), sys) := by
    rw [← resolved]
    rfl
  have found : getNode parentId sys = (.ok (some pnode), sys) := by
    rw [← stored]
    rfl
  unfold lookupFast
  rw [Act.bind_ok asked]
  simp only
  rw [Act.bind_ok found]
  simp only
  cases isWhite : pnode.isWhiteout name with
  | true =>
      exact Act.bind_error (Act.check_false rfl _ sys) _
  | false =>
      rw [Act.bind_ok (Act.check_true (show (!false) = true from rfl) _ sys)]
      cases pnode.getChild name with
      | none =>
          rfl
      | some childId =>
          rfl

/-- The fast path in no directory. -/
theorem lookupFast_nowhere
    {parent : UInt64}
    {name : Name}
    (nowhere :
      ∀ id, sys.forest.resolve parent = some id → sys.nodes.get? id = none) :
    lookupFast env parent name sys = (.ok none, sys) := by
  unfold lookupFast
  cases resolved : sys.forest.resolve parent with
  | none =>
      rw [Act.bind_ok (show resolveIno parent sys = (.ok none, sys) by
        rw [← resolved]; rfl)]
      rfl
  | some id =>
      rw [Act.bind_ok (show resolveIno parent sys = (.ok (some id), sys) by
        rw [← resolved]; rfl)]
      simp only
      rw [Act.bind_ok (show getNode id sys = (.ok none, sys) by
        rw [← nowhere id resolved]; rfl)]
      rfl

/-- The fast path on a child that is shown. -/
theorem fastChild_cases
    {childId : NodeId}
    {child : OvlNode}
    (stored : sys.nodes.get? childId = some child)
    (shown : child.hidden = false) :
    (fastChild env childId sys).1 = .ok none ∨
      ∃ entry st,
        sys.inodes.getByKey ⟨child.tmpIno, child.tmpDev⟩ = some entry ∧
        childId ∈ entry.nodes ∧
        (rplStatWithPath env childId (nodeParts sys.nodes childId) sys).1 =
          .ok st ∧
        (fastChild env childId sys).1 =
          .ok (some (.entry { st with ino := entry.fuseIno })) ∧
        (fastChild env childId sys).2.inodes =
          sys.inodes.incLookup ⟨child.tmpIno, child.tmpDev⟩ := by
  have start :
      fastChild env childId sys = _ := Act.bind_ok (node_apply stored) _
  rw [start, Act.bind_ok (Act.check_true (by rw [shown]; rfl) _ sys),
    Act.bind_ok (Act.gets_apply _ sys)]
  cases known : sys.inodes.getByKey ⟨child.tmpIno, child.tmpDev⟩ with
  | none =>
      exact .inl rfl
  | some entry =>
  simp only
  split
  · next member =>
      rw [Act.bind_ok (show nodePath childId sys =
        (.ok (nodeParts sys.nodes childId), sys) from rfl)]
      rcases ran : rplStatWithPath env childId (nodeParts sys.nodes childId)
        sys with ⟨outcome, after⟩
      rw [Act.bind_ok (show Act.attempt _ sys = (.ok outcome, after) by
        rw [Act.attempt_apply, ran])]
      cases outcome with
      | error errno =>
          exact .inl rfl
      | ok st =>
          have kept := @keeps_rplStatWithPath env (· = sys.forest) childId
            (nodeParts sys.nodes childId) sys rfl
          rw [ran] at kept
          have sameInodes : after.inodes = sys.inodes :=
            congrArg (·.inodes) kept
          refine .inr ⟨entry, st, rfl, member, rfl, rfl, ?_⟩
          rw [← sameInodes]
          rfl
  · exact .inl rfl

/-- The two paths on a cached child. -/
theorem shortcut_child
    (noFaults : sys.os.faults = [])
    (tree : sys.nodes.Tree)
    {parent : UInt64}
    {name : Name}
    {parentId childId : NodeId}
    (resolved : sys.forest.resolve parent = some parentId)
    (isEntry : sys.nodes.Entry parentId name childId)
    (shown : sys.nodes.ShownAt childId)
    (ascends : ∃ parts, sys.nodes.Ascends childId parts)
    (numbered :
      ∀ child, sys.nodes.get? childId = some child →
        child.tmpIno ≠ 0 ∨ child.isDir) :
    Shortcut (fastChild env childId sys)
      (lookupSlow env parent name sys) := by
  cases stored : sys.nodes.get? childId with
  | none =>
      have dead : node childId sys = (.error .ENOENT, sys) := by
        change Act.orFail (sys.nodes.get? childId) Errno.ENOENT sys = _
        rw [stored]
        rfl
      unfold fastChild lookupSlow
      rw [Act.bind_error dead,
        Act.bind_ok (doLookupFile_cached resolved isEntry),
        Act.bind_error (presentOr_dead stored _)]
      exact ⟨rfl, fun _ => rfl⟩
  | some child =>
      obtain ⟨parts, ascends⟩ := ascends
      have childShown := shown child stored
      unfold Shortcut
      rcases @fastChild_cases env sys childId child stored childShown with
        undecided | ⟨entry, st, known, member, replied, fast, counted⟩
      · rw [undecided]
        trivial
      · obtain ⟨full, later, slow, number, counters⟩ :=
          lookupSlow_known noFaults tree resolved isEntry stored childShown
            ascends (numbered child stored) known member replied
        rw [fast, slow, counted]
        exact ⟨⟨_, full, rfl, rfl, number⟩, counters⟩

end Daemon

namespace Sys

open Daemon

/-- A cached child under the name is a directory or has a number. -/
def Numbered
    (sys : Sys)
    (parent : UInt64)
    (name : Name) : Prop :=
  ∀ parentId childId child,
    sys.forest.resolve parent = some parentId →
    sys.nodes.Entry parentId name childId →
    sys.nodes.get? childId = some child →
    child.tmpIno ≠ 0 ∨ child.isDir

/-- `compute_path` of a cached child under the name returns. -/
def Ascending
    (sys : Sys)
    (parent : UInt64)
    (name : Name) : Prop :=
  ∀ parentId childId,
    sys.forest.resolve parent = some parentId →
    sys.nodes.Entry parentId name childId →
    ∃ parts, sys.nodes.Ascends childId parts

/-- Without masked children the fast path is a shortcut. -/
theorem shortcut_of_clear
    {env : Env}
    {sys : Sys}
    (noFaults : sys.os.faults = [])
    (tree : sys.nodes.Tree)
    (clear : sys.nodes.Clear)
    {parent : UInt64}
    {name : Name}
    (numbered : sys.Numbered parent name)
    (ascending : sys.Ascending parent name) :
    Shortcut (lookupFast env parent name sys)
      (lookupSlow env parent name sys) := by
  by_cases nowhere :
      ∀ id, sys.forest.resolve parent = some id → sys.nodes.get? id = none
  · rw [lookupFast_nowhere nowhere]
    trivial
  · simp only [not_forall] at nowhere
    obtain ⟨parentId, resolved, isStored⟩ := nowhere
    obtain ⟨pnode, stored⟩ := Option.ne_none_iff_exists'.mp isStored
    rw [lookupFast_dir resolved stored]
    split
    · next isWhite =>
        -- the slow path asks the children first, and they do not have it
        have absent := clear.apart stored isWhite
        unfold lookupSlow
        rw [Act.bind_ok
          (doLookupFile_whiteout resolved stored isWhite absent)]
        exact ⟨rfl, fun _ => rfl⟩
    · cases isChild : pnode.getChild name with
      | none =>
          trivial
      | some childId =>
          have isEntry : sys.nodes.Entry parentId name childId :=
            ⟨pnode, stored, isChild⟩
          exact shortcut_child noFaults tree resolved isEntry
            (fun child below => clear.shows isEntry (by simp) below)
            (ascending _ _ resolved isEntry)
            fun child => numbered _ _ child resolved isEntry

/--
The fast path of a lookup is a sound shortcut, and no name is both a child and
a whiteout, in every state that is reached without masking a cached child.
-/
theorem lookup_shortcut
    {env : Env}
    {disk : Disk}
    {calls : List Call}
    (unmasking : UnmaskingRun env (mount env disk) calls) :
    (∀ id node name,
      (run env (mount env disk) calls).nodes.get? id = some node →
      node.isWhiteout name = true → node.getChild name = none) ∧
    ∀ call : Call, call.faults = [] → ∀ parent name,
      (run env (mount env disk) calls).Numbered parent name →
      (run env (mount env disk) calls).Ascending parent name →
      Shortcut
        (lookupFast env parent name
          ((run env (mount env disk) calls).begin call))
        (lookupSlow env parent name
          ((run env (mount env disk) calls).begin call)) := by
  have ok := @treeOk_run env _ (treeOk_mount env disk) calls
  have clear := unmasking.clear (treeOk_mount env disk) (clear_mount env disk)
  generalize run env (mount env disk) calls = sys at *
  refine ⟨fun id node name => clear.apart, ?_⟩
  intro call noFaults parent name numbered ascending
  exact @shortcut_of_clear env (sys.begin call) noFaults ok.tree clear parent
    name numbered ascending

open Sample

theorem lookup_shortcut_again :
    (∃ st, (lookupFast (env 0) 1 (ascii "a")
        (foundUpper.begin lookupFile)).1 = .ok (some (.entry st)) ∧
      st.ino = 11) ∧
    Shortcut
      (lookupFast (env 0) 1 (ascii "a") (foundUpper.begin lookupFile))
      (lookupSlow (env 0) 1 (ascii "a") (foundUpper.begin lookupFile)) := by
  have unmasking :
      UnmaskingRun (env 0) (mount (env 0) upperFile) [lookupFile] :=
    ⟨trivial, trivial⟩
  have isChild :
      (foundUpper.nodes.get? 1).bind (·.getChild (ascii "a")) = some 2 := by
    decide +kernel
  have isRoot : (foundUpper.nodes.get? 1).map (·.parent) = some none := by
    decide +kernel
  have isFile :
      (foundUpper.nodes.get? 2).map (fun node => (node.parent, node.tmpIno)) =
        some (some 1, 11) := by
    decide +kernel
  obtain ⟨root, rootStored, rootTop⟩ := Option.map_eq_some_iff.mp isRoot
  obtain ⟨file, fileStored, placed⟩ := Option.map_eq_some_iff.mp isFile
  have onlyChild :
      ∀ parentId childId, foundUpper.forest.resolve 1 = some parentId →
        foundUpper.nodes.Entry parentId (ascii "a") childId → childId = 2 := by
    rintro parentId childId resolved ⟨node, stored, isEntry⟩
    cases show some 1 = some parentId from resolved
    rw [stored, Option.bind_some, isEntry] at isChild
    exact Option.some.inj isChild
  refine ⟨⟨fileStat 11 1, ?_, rfl⟩, ?_⟩
  · decide +kernel
  · refine (lookup_shortcut unmasking).2 lookupFile rfl 1 (ascii "a") ?_ ?_
    · intro parentId childId child resolved entry stored
      cases onlyChild parentId childId resolved entry
      have same : some file = some child := fileStored.symm.trans stored
      cases same
      refine .inl ?_
      rw [show file.tmpIno = 11 from congrArg Prod.snd placed]
      decide
    · intro parentId childId resolved entry
      cases onlyChild parentId childId resolved entry
      exact ⟨_, .step fileStored (congrArg Prod.fst placed)
        (.top rootStored rootTop)⟩

/-- A file on the upper layer, and its whiteout on a lower one. -/
def whitedBelow : Disk :=
  disk 1 [(⟨.layer 0, [ascii "a"]⟩, obj .reg [] 11),
    (⟨.layer 1, [ascii ".wh.a"]⟩, obj .reg [] 12)]

/-- The file is looked up, and then a directory `.wh.a` is made. -/
def maskedFile : Sys :=
  run (env 1) (mount (env 1) whitedBelow)
    [lookupFile, call (.mkdir ⟨0, 0⟩ 1 (ascii ".wh.a") ⟨some .dir, 0o755⟩)]

theorem lookup_shortcut_masked :
    (∃ node, maskedFile.nodes.get? 1 = some node ∧
      node.isWhiteout (ascii "a") = true ∧
      node.getChild (ascii "a") = some 2) ∧
    (lookupFast (env 1) 1 (ascii "a") (maskedFile.begin lookupFile)).1 =
      .error .ENOENT ∧
    ∃ st, (lookupSlow (env 1) 1 (ascii "a")
      (maskedFile.begin lookupFile)).1 = .ok (.entry st) ∧ st.ino = 11 := by
  refine ⟨?_, ?_, fileStat 11 1, ?_, rfl⟩
  · have both :
        (maskedFile.nodes.get? 1).map (fun node =>
          (node.isWhiteout (ascii "a"), node.getChild (ascii "a"))) =
          some (true, some 2) := by
      decide +kernel
    obtain ⟨node, stored, marks⟩ := Option.map_eq_some_iff.mp both
    exact ⟨node, stored, congrArg Prod.fst marks, congrArg Prod.snd marks⟩
  · decide +kernel
  · decide +kernel

end Sys

end FuseOverlay
