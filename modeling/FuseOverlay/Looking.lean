import FuseOverlay.Lib.Twin
import FuseOverlay.FileRequests

namespace FuseOverlay

/-!
# Requests that only look, in two states at once

`Reading` is a relation of two disks on which every call that looks at a layer
answers the same, `Looking` one of two states that have the same tree and the
same table over such disks.  Lookups, loads and directory streams reply the
same in states of a looking relation and keep it.
-/

open Act (Agrees Couples)

/-- The change leaves alone whether and where the node is hidden. -/
def OvlNode.SameHiding (change : OvlNode → OvlNode) : Prop :=
  ∀ node,
    (change node).hidden = node.hidden ∧
      (change node).hiddenPath = node.hiddenPath

namespace OvlNode

/-- Not hidden and with no name to go to. -/
def Unhidden (node : OvlNode) : Prop :=
  node.hidden = false ∧ node.hiddenPath = none

/-- A hidden node lies under a name that is safe to use. -/
def HiddenIn
    (safe : Name → Prop)
    (node : OvlNode) : Prop :=
  node.Unhidden ∨ safe (node.hiddenPath.getD [])

theorem HiddenIn.change
    {safe : Name → Prop}
    {node : OvlNode}
    {change : OvlNode → OvlNode}
    (hiddenIn : node.HiddenIn safe)
    (same : SameHiding change) :
    (change node).HiddenIn safe := by
  unfold HiddenIn Unhidden
  rw [(same node).1, (same node).2]
  exact hiddenIn

theorem sameHiding_dirState
    {change : OvlNode → OvlNode}
    (only :
      ∀ node, ∃ dirState, change node = { node with dirState := dirState }) :
    SameHiding change := by
  intro node
  obtain ⟨dirState, shape⟩ := only node
  rw [shape]
  exact ⟨rfl, rfl⟩

theorem sameHiding_markLoaded :
    SameHiding markLoaded :=
  sameHiding_dirState fun node => by
    unfold markLoaded
    split
    · exact ⟨_, rfl⟩
    · exact ⟨node.dirState, rfl⟩

theorem sameHiding_insertChild
    (name : Name)
    (childId : NodeId) :
    SameHiding fun node => node.insertChild name childId :=
  sameHiding_dirState fun node => by
    unfold insertChild
    split
    · exact ⟨_, rfl⟩
    · exact ⟨node.dirState, rfl⟩

theorem sameHiding_insertWhiteout
    (name : Name) :
    SameHiding fun node => node.insertWhiteout name :=
  sameHiding_dirState fun node => by
    unfold insertWhiteout
    split
    · exact ⟨_, rfl⟩
    · exact ⟨node.dirState, rfl⟩

end OvlNode

namespace Syscall

open Whiteout

/-! ## Calls on the layers -/

/-- The calls that look at a layer answer the same. -/
structure Reading
    (env : Env)
    (rel : Os → Os → Prop) : Prop where
  statat :
    ∀ layerIdx path, Agrees rel (statat (.layer layerIdx) path)
  fileExists :
    ∀ layerIdx path, Agrees rel (fileExists (.layer layerIdx) path)
  opendir :
    ∀ layerIdx path, Agrees rel (opendir env layerIdx path)
  readlinkat :
    ∀ layerIdx path, Agrees rel (readlinkat (.layer layerIdx) path)
  mark :
    ∀ layerIdx path attr, attr ∈ opaqueXattrs →
      Agrees rel (getxattr env (.layer layerIdx) path attr 16)
  owner :
    ∀ layerIdx found path attr, env.layers[layerIdx]? = some found →
      Override.overrideXattr found.statOverrideMode = some attr →
      Agrees rel (getxattr env (.layer layerIdx) path attr 64)
  handle :
    ∀ layer layerIdx path,
      Agrees rel (getNfsFilehandle layer layerIdx path)

namespace Reading

variable {env : Env} {rel : Os → Os → Prop} (reading : Reading env rel)

include reading

theorem hasOpaqueXattr
    (layerIdx : Nat)
    (path : Path)
    (attrs : List Name)
    (marks : ∀ attr ∈ attrs, attr ∈ opaqueXattrs) :
    Agrees rel
      (Whiteout.hasOpaqueXattr env (.layer layerIdx) path attrs) := by
  induction attrs with
  | nil =>
      exact .pure false
  | cons attr rest inductionHypothesis =>
      have later := inductionHypothesis fun query member =>
        marks query (List.mem_cons_of_mem attr member)
      unfold Whiteout.hasOpaqueXattr
      refine .bind (.attempt ?_) fun value => ?_
      · exact reading.mark layerIdx path attr (marks attr List.mem_cons_self)
      · split
        · split
          · exact .pure true
          · exact later
        · exact later

theorem isDirectoryOpaque
    (layerIdx : Nat)
    (path : Path) :
    Agrees rel (Whiteout.isDirectoryOpaque env (.layer layerIdx) path) := by
  refine .bind (reading.hasOpaqueXattr layerIdx path _ fun _ => id)
    fun marked => ?_
  split
  · exact .pure true
  · refine .bind (.attempt (reading.fileExists _ _)) fun found => ?_
    split
    · exact .pure _
    · exact .pure _
    · exact .fail _

theorem isWhFile
    (layerIdx : Nat)
    (parentPath : Path)
    (name : Name) :
    Agrees rel (Syscall.isWhFile layerIdx parentPath name) :=
  .bind (.attempt (reading.fileExists _ _)) fun _ => .pure _

theorem isDeviceEntry
    (layerIdx : Nat)
    (path : Path)
    (entry : DirEntry) :
    Agrees rel (Syscall.isDeviceEntry layerIdx path entry) := by
  unfold Syscall.isDeviceEntry
  split
  · refine .bind (.attempt (reading.statat _ _)) fun found => ?_
    split
    · exact .pure _
    · exact .pure _
  · exact .pure _

theorem entryAttr
    (layerIdx : Nat)
    (path : Path)
    (entry : DirEntry) :
    Agrees rel (Syscall.entryAttr env layerIdx path entry) := by
  unfold Syscall.entryAttr
  simp only
  split
  · exact .pure _
  · refine .bind (.attempt (reading.statat _ _)) fun found => ?_
    split
    · exact .pure _
    · exact .pure _

/-- The attribute that is read is the one of the layer's mode. -/
theorem overrideMode
    {layerIdx : Nat}
    {found : Layer}
    (stored : env.layers[layerIdx]? = some found)
    (path : Path)
    (st : Stat) :
    Agrees rel (Syscall.overrideMode env layerIdx found path st) := by
  unfold Syscall.overrideMode
  cases isOverride : Override.overrideXattr found.statOverrideMode with
  | none =>
      exact .pure st
  | some attr =>
      simp only
      split
      · refine .bind (.attempt ?_) fun value => ?_
        · exact reading.owner layerIdx found path attr stored isOverride
        · split
          · split
            · exact .ofExcept _
            · exact .fail _
          · exact .pure st
          · exact .pure st
          · exact .fail _
      · exact .pure st

theorem getStInoWithPath
    (node : OvlNode)
    (path : Path) :
    Agrees rel (Syscall.getStInoWithPath env node path) := by
  unfold Syscall.getStInoWithPath
  split
  · exact .pure _
  · refine .bind ?_ fun raw => .pure _
    unfold rawStIno
    split
    · exact .bind (reading.handle _ _ _) fun handle => .pure _
    · exact .pure _

end Reading

end Syscall

namespace Daemon

open Syscall Whiteout

variable {env : Env} {α : Type}

/--
The states have one tree and one table over disks that read the same, and
hidden nodes lie under safe names.
-/
structure Looking
    (env : Env)
    (osRel : Os → Os → Prop)
    (safe : Name → Prop)
    (rel : Sys → Sys → Prop) : Prop where
  reading : Reading env osRel
  hiddenStat :
    ∀ wd, safe wd → Agrees osRel (fstatat ⟨.workdir, []⟩ wd)
  os : ∀ first second, rel first second → osRel first.os second.os
  setOs :
    ∀ first second, rel first second → ∀ os os', osRel os os' →
      rel { first with os := os } { second with os := os' }
  nodes : ∀ first second, rel first second → first.nodes = second.nodes
  hides :
    ∀ first second, rel first second → ∀ id node,
      first.nodes.get? id = some node → node.HiddenIn safe
  setNodes :
    ∀ first second, rel first second → ∀ nodes : NodeArena,
      (∀ id node, nodes.get? id = some node → node.HiddenIn safe) →
      rel { first with nodes := nodes } { second with nodes := nodes }
  inodes : ∀ first second, rel first second → first.inodes = second.inodes
  setInodes :
    ∀ first second, rel first second → ∀ inodes,
      rel { first with inodes := inodes } { second with inodes := inodes }
  dirs :
    ∀ first second, rel first second →
      first.openDirs = second.openDirs ∧ first.nextDh = second.nextDh
  setDirs :
    ∀ first second, rel first second → ∀ dirs next,
      rel { first with openDirs := dirs, nextDh := next }
        { second with openDirs := dirs, nextDh := next }

namespace Looking

variable
  {osRel : Os → Os → Prop}
  {safe : Name → Prop}
  {rel : Sys → Sys → Prop}
  (looking : Looking env osRel safe rel)

include looking

/-! ## Actions on nodes -/

theorem lift
    {act : Syscall α}
    (agrees : Agrees osRel act) :
    Agrees rel (liftM act : Daemon α) := by
  intro first second related
  obtain ⟨same, later⟩ :=
    agrees first.os second.os (looking.os first second related)
  exact ⟨same, looking.setOs first second related _ _ later⟩

/-- What is read from the tree and the table alone. -/
theorem treeGets
    (read : NodeArena → InodeTable → α) :
    Agrees rel
      (Act.gets fun sys => read sys.nodes sys.inodes : Daemon α) := by
  refine .gets fun first second related => ?_
  rw [looking.nodes first second related, looking.inodes first second related]

theorem getNode
    (id : NodeId) :
    Agrees rel (Daemon.getNode id) :=
  looking.treeGets fun nodes _ => nodes.get? id

theorem node
    (id : NodeId) :
    Agrees rel (Daemon.node id) :=
  .bind (looking.getNode id) fun _ => .orFail _ _

/-- A stored node is hidden, if at all, under a safe name. -/
theorem nodeGiving
    (id : NodeId) :
    Couples rel rel (OvlNode.HiddenIn safe) (Daemon.node id) := by
  have reads :
      Couples rel rel
        (fun found => ∀ node, found = some node → node.HiddenIn safe)
        (Daemon.getNode id) := by
    refine Couples.gets (fun first second related => ?_)
      fun first second related => looking.hides first second related id
    rw [looking.nodes first second related]
  exact reads.bind (fun _ holds => Couples.orFail holds)
    fun _ _ related => related

theorem nodePath
    (id : NodeId) :
    Agrees rel (Daemon.nodePath id) :=
  looking.treeGets fun nodes _ => nodeParts nodes id

theorem resolveIno
    (ino : UInt64) :
    Agrees rel (Daemon.resolveIno ino) :=
  looking.treeGets fun nodes inodes => lookupNodeId nodes inodes ino

theorem modifyNode
    (id : NodeId)
    {change : OvlNode → OvlNode}
    (same : OvlNode.SameHiding change) :
    Agrees rel (Daemon.modifyNode id change) := by
  refine .modify fun first second related => ?_
  rw [← looking.nodes first second related]
  refine looking.setNodes first second related _ fun query node stored => ?_
  have old := looking.hides first second related
  rw [NodeArena.get?_modify] at stored
  split at stored
  · obtain ⟨before, beforeStored, rfl⟩ := Option.map_eq_some_iff.mp stored
    exact (old id before beforeStored).change same
  · exact old query node stored

theorem insertNode
    {node : OvlNode}
    (unhidden : node.Unhidden) :
    Agrees rel (Daemon.insertNode node) := by
  intro first second related
  have sameNodes := looking.nodes first second related
  refine ⟨?_, ?_⟩
  · change Except.ok first.nodes.nextId = Except.ok second.nodes.nextId
    rw [sameNodes]
  · change rel { first with nodes := (first.nodes.insert node).2 }
      { second with nodes := (second.nodes.insert node).2 }
    rw [← sameNodes]
    refine looking.setNodes first second related _ fun query found stored => ?_
    rw [NodeArena.get?_insert] at stored
    split at stored
    · cases stored
      exact .inl unhidden
    · exact looking.hides first second related query found stored

theorem register
    (id : NodeId)
    (ino dev : UInt64)
    (mode : Mode) :
    Agrees rel (Daemon.register env id ino dev mode) := by
  intro first second related
  have sameTable :
      second.inodes.register env.order second.nodes id ino dev mode =
        first.inodes.register env.order first.nodes id ino dev mode := by
    rw [looking.nodes first second related,
      looking.inodes first second related]
  unfold Daemon.register
  rw [sameTable]
  split
  · exact ⟨rfl, related⟩
  · exact ⟨rfl, looking.setInodes first second related _⟩

/-- A change of the table alone. -/
theorem modifyInodes
    (change : InodeTable → InodeTable) :
    Agrees rel (Act.modify fun sys =>
      { sys with inodes := change sys.inodes } : Daemon Unit) := by
  refine .modify fun first second related => ?_
  rw [← looking.inodes first second related]
  exact looking.setInodes first second related _

theorem incLookup
    (key : InodeKey) :
    Agrees rel (Daemon.incLookup key) :=
  looking.modifyInodes (·.incLookup key)

theorem isPresent
    (found : Option NodeId) :
    Agrees rel (Daemon.isPresent found) := by
  cases found with
  | none =>
      exact .pure false
  | some id =>
      exact looking.treeGets fun nodes _ => nodes.containsKey id

theorem presentOr
    (found : Option NodeId)
    (errno : Errno) :
    Agrees rel (Daemon.presentOr found errno) := by
  refine .bind (.orFail _ _) fun id => ?_
  refine .bind (looking.treeGets fun nodes _ => nodes.containsKey id)
    fun live => ?_
  exact .bind (.check _ _) fun _ => .pure id

theorem resolveNode
    (ino : UInt64) :
    Agrees rel (Daemon.resolveNode ino) :=
  .bind (looking.resolveIno ino) fun _ => looking.presentOr _ _

/-! ## Owners and modes -/

omit looking in
/-- A sequence that goes on with a layer of the mount. -/
theorem layerBind
    {layerIdx : Nat}
    {next : Layer → Daemon α}
    (found :
      ∀ layer, env.layers[layerIdx]? = some layer →
        Agrees rel (next layer)) :
    Agrees rel
      ((liftM (layer env layerIdx) : Daemon Layer) >>= next) := by
  unfold layer
  cases stored : env.layers[layerIdx]? with
  | none =>
      exact fun _ _ related => ⟨rfl, related⟩
  | some layer =>
      exact fun first second related => found layer stored first second related

theorem doStatWithPath
    {node : OvlNode}
    (hides : node.HiddenIn safe)
    (path : Path) :
    Agrees rel (liftM (Syscall.doStatWithPath env node path) :
      Daemon Stat) := by
  refine looking.lift (.bind (.orFail _ _) fun _ => ?_)
  split
  · next isHidden =>
      rcases hides with unhidden | isSafe
      · exact absurd isHidden (by simp [unhidden.1])
      · exact looking.hiddenStat _ isSafe
  · exact looking.reading.statat _ _

theorem rplStatWithPath
    (nodeId : NodeId)
    (path : Path) :
    Agrees rel (Daemon.rplStatWithPath env nodeId path) := by
  refine (looking.nodeGiving nodeId).bindAgrees fun found hides => ?_
  refine .bind (looking.doStatWithPath hides path) fun st => ?_
  refine layerBind fun layer stored => ?_
  refine .bind
    (looking.lift (.attempt (looking.reading.overrideMode stored path st)))
    fun overridden => ?_
  refine .bind (looking.lift (looking.reading.getStInoWithPath found path))
    fun ino => ?_
  refine .gets fun first second related => ?_
  have sameLinks :
      ∀ nlink, replyNlink env first found nlink =
        replyNlink env second found nlink := by
    intro nlink
    unfold replyNlink
    rw [looking.nodes first second related,
      looking.inodes first second related]
  simp only [sameLinks]

theorem rplStat
    (nodeId : NodeId) :
    Agrees rel (Daemon.rplStat env nodeId) := by
  refine .bind (looking.node nodeId) fun found => ?_
  split
  · exact looking.rplStatWithPath nodeId _
  · exact .bind (looking.nodePath nodeId) fun path =>
      looking.rplStatWithPath nodeId path

/-! ## Loading -/

theorem insertChildNode
    (parentId : NodeId)
    {child : OvlNode}
    (unhidden : child.Unhidden) :
    Agrees rel (Daemon.insertChildNode parentId child) := by
  refine .bind (looking.insertNode unhidden) fun childId => ?_
  exact .bind (looking.modifyNode _ (OvlNode.sameHiding_insertChild _ _))
    fun _ => .pure childId

theorem loadNormalEntry
    (parentId : NodeId)
    (path : Path)
    (layerIdx : Nat)
    (entry : DirEntry) :
    Agrees rel
      (Daemon.loadNormalEntry env parentId path layerIdx entry) := by
  refine .bind (looking.lift (looking.reading.entryAttr layerIdx path entry))
    fun attr => ?_
  exact .bind (looking.insertChildNode _ ⟨rfl, rfl⟩) fun _ => .pure ()

theorem loadNewEntry
    (parentId : NodeId)
    (path : Path)
    (layerIdx : Nat)
    (entry : DirEntry) :
    Agrees rel (Daemon.loadNewEntry env parentId path layerIdx entry) := by
  refine .bind (looking.lift (looking.reading.isWhFile _ _ _)) fun whited => ?_
  split
  · exact looking.modifyNode _ (OvlNode.sameHiding_insertWhiteout _)
  · cases whPrefixName entry.name with
    | some name =>
        refine .bind (looking.getNode parentId) fun parent => ?_
        exact .runIf (looking.modifyNode _ (OvlNode.sameHiding_insertWhiteout _))
    | none =>
        refine .bind (looking.lift (looking.reading.isDeviceEntry _ _ _))
          fun isDevice => ?_
        split
        · exact looking.modifyNode _ (OvlNode.sameHiding_insertWhiteout _)
        · exact looking.loadNormalEntry parentId path layerIdx entry

theorem loadEntry
    (parentId : NodeId)
    (path : Path)
    (layerIdx : Nat)
    (entry : DirEntry) :
    Agrees rel (Daemon.loadEntry env parentId path layerIdx entry) := by
  unfold Daemon.loadEntry
  split
  · exact .pure ()
  · refine .bind (looking.getNode parentId) fun parent => ?_
    split
    · exact looking.modifyNode _ fun _ => ⟨rfl, rfl⟩
    · split
      · exact .pure ()
      · exact looking.loadNewEntry parentId path layerIdx entry

theorem loadStream
    (parentId : NodeId)
    (path : Path)
    (layerIdx : Nat)
    (stop : Bool) :
    Agrees rel (Daemon.loadStream env parentId path layerIdx stop) := by
  refine .bind (looking.lift (.attempt (looking.reading.opendir layerIdx path)))
    fun listing => ?_
  cases listing with
  | error errno =>
      exact .pure stop
  | ok entries =>
      refine .bind (.each (looking.loadEntry parentId path layerIdx) entries)
        fun _ => ?_
      refine .bind
        (looking.lift (.attempt (looking.reading.isDirectoryOpaque layerIdx path)))
        fun cut => ?_
      exact .pure _

theorem loadLayer
    (parentId : NodeId)
    (path : Path)
    (lastLayerStop : Option Nat)
    (layerIdx : Nat) :
    Agrees rel
      (Daemon.loadLayer env parentId path lastLayerStop layerIdx) := by
  refine .bind (looking.lift (.attempt (looking.reading.statat _ path)))
    fun found => ?_
  split
  · split
    · exact .map _ (looking.loadStream parentId path layerIdx _)
    · exact .pure none
  · exact .pure _
  · exact .pure _
  · exact .pure none

theorem loadLayers
    (parentId : NodeId)
    (path : Path)
    (lastLayerStop : Option Nat)
    (indices : List Nat) :
    Agrees rel
      (Daemon.loadLayers env parentId path lastLayerStop indices) := by
  induction indices with
  | nil =>
      exact .pure ()
  | cons layerIdx rest inductionHypothesis =>
      refine .bind (looking.loadLayer parentId path lastLayerStop layerIdx)
        fun stop => ?_
      split
      · exact inductionHypothesis
      · exact .pure ()

theorem loadDirImpl
    (parentId : NodeId)
    (path : Path)
    (lastLayerStop : Option Nat) :
    Agrees rel (Daemon.loadDirImpl env parentId path lastLayerStop) :=
  .bind (looking.loadLayers parentId path lastLayerStop _) fun _ =>
    looking.modifyNode _ OvlNode.sameHiding_markLoaded

theorem ensureRootLoaded :
    Agrees rel (Daemon.ensureRootLoaded env) := by
  refine .bind (looking.getNode rootId) fun root => ?_
  split
  · exact .pure ()
  · exact looking.loadDirImpl _ _ _

theorem reloadDir
    (nodeId : NodeId) :
    Agrees rel (Daemon.reloadDir env nodeId) := by
  refine .bind (looking.getNode nodeId) fun found => ?_
  cases found with
  | none =>
      exact .pure true
  | some node =>
      simp only
      split
      · exact .pure true
      · refine .bind (looking.nodePath nodeId) fun path => ?_
        exact .bind (looking.loadDirImpl _ _ _) fun _ => .pure true

/-! ## Lookup -/

/-- A node that a layer loop hands on is not hidden. -/
def CleanStep : LazyStep → Prop
  | .done => True
  | .next found _ => ∀ child, found = some child → child.Unhidden

theorem whitedOut
    (parentId : NodeId)
    (name : Name) :
    Couples rel rel CleanStep (Daemon.whitedOut parentId name) :=
  .bindAfter (looking.modifyNode _ (OvlNode.sameHiding_insertWhiteout _))
    fun _ => .pure trivial

theorem lazyMissing
    (parentId : NodeId)
    (parentPath : Path)
    (name : Name)
    (layerIdx : Nat)
    (stop : Bool) :
    Couples rel rel CleanStep
      (Daemon.lazyMissing parentId parentPath name layerIdx stop) := by
  refine .bindAfter (looking.lift (looking.reading.isWhFile _ _ _))
    fun whited => ?_
  split
  · exact looking.whitedOut parentId name
  · exact .pure nofun

theorem lazyFound
    (parentId : NodeId)
    (parentPath : Path)
    (name : Name)
    (layerIdx : Nat)
    (stop : Bool)
    (st : Stat) :
    Couples rel rel CleanStep
      (Daemon.lazyFound env parentId parentPath name layerIdx stop st) := by
  refine .bindAfter (looking.lift (looking.reading.isWhFile _ _ _))
    fun whited => ?_
  split
  · exact looking.whitedOut parentId name
  · cases whPrefixName name with
    | some other =>
        exact looking.whitedOut parentId other
    | none =>
        have clean :
            ∀ cut, CleanStep (.next (some
              { OvlNode.new name layerIdx st.ino st.dev st.mode.isDir with
                mode := st.mode
                lastLayerIdx := layerIdx
                parent := some parentId }) cut) := by
          intro cut child same
          cases same
          exact ⟨rfl, rfl⟩
        simp only
        split
        · exact looking.whitedOut parentId name
        · split
          · refine .bindAfter (looking.lift (.attempt
              (looking.reading.isDirectoryOpaque layerIdx _))) fun cut => ?_
            exact .pure (clean _)
          · exact .pure (clean _)

theorem lazyLayer
    (parentId : NodeId)
    (parentPath : Path)
    (name : Name)
    (lastLayerIdx layerIdx : Nat)
    {found : Option OvlNode}
    (clean : ∀ child, found = some child → child.Unhidden) :
    Couples rel rel CleanStep
      (Daemon.lazyLayer env parentId parentPath name lastLayerIdx layerIdx
        found) := by
  refine .bindAfter (looking.lift (.attempt (looking.reading.statat _ _)))
    fun answer => ?_
  cases found with
  | some child =>
      split
      · exact .pure clean
      · exact .pure clean
      · exact .pure clean
      · exact .pure trivial
      · refine .pure fun later same => ?_
        cases same
        exact ⟨(clean child rfl).1, (clean child rfl).2⟩
  | none =>
      split
      · exact looking.lazyMissing _ _ _ _ _
      · exact looking.lazyMissing _ _ _ _ _
      · exact looking.lazyMissing _ _ _ _ _
      · exact .pure trivial
      · exact looking.lazyFound _ _ _ _ _ _

theorem lazyLayers
    (parentId : NodeId)
    (parentPath : Path)
    (name : Name)
    (lastLayerIdx : Nat)
    (indices : List Nat)
    {found : Option OvlNode}
    (clean : ∀ child, found = some child → child.Unhidden) :
    Couples rel rel (fun found => ∀ child, found = some child →
        child.Unhidden)
      (Daemon.lazyLayers env parentId parentPath name lastLayerIdx indices
        found) := by
  induction indices generalizing found with
  | nil =>
      exact .pure clean
  | cons layerIdx rest inductionHypothesis =>
      refine (looking.lazyLayer parentId parentPath name lastLayerIdx layerIdx
        clean).bind (fun step cleanStep => ?_) fun _ _ related => related
      split
      · exact .pure nofun
      · exact .pure cleanStep
      · exact inductionHypothesis cleanStep

theorem doLazyLookup
    (parentId : NodeId)
    (name : Name) :
    Agrees rel (Daemon.doLazyLookup env parentId name) := by
  refine .bind (looking.getNode parentId) fun found => ?_
  cases found with
  | none =>
      exact .pure none
  | some parent =>
      refine .bind (looking.nodePath parentId) fun parentPath => ?_
      have clean :
          ∀ child, (none : Option OvlNode) = some child →
            child.Unhidden := by
        intro child missing
        cases missing
      refine (looking.lazyLayers _ _ _ _ _ clean).bindAgrees
        fun found clean => ?_
      cases found with
      | none =>
          exact .pure none
      | some child =>
          refine .bind (looking.insertNode (clean child rfl))
            fun childId => ?_
          refine .bind (.runIf ?_) fun _ => ?_
          · exact .bind (looking.register _ _ _ _) fun _ => .pure ()
          · exact .bind (looking.modifyNode _
              (OvlNode.sameHiding_insertChild _ _)) fun _ => .pure _

theorem doLookupFile
    (parentIno : UInt64)
    (name : Name) :
    Agrees rel (Daemon.doLookupFile env parentIno name) := by
  refine .bind (looking.resolveIno parentIno) fun resolved => ?_
  cases resolved with
  | none =>
      exact .pure none
  | some parentId =>
      refine .bind (looking.getNode parentId) fun found => ?_
      cases found with
      | none =>
          exact .pure none
      | some parent =>
          simp only
          split
          · exact .pure _
          · split
            · exact .pure none
            · exact looking.doLazyLookup parentId name

/-! ## Directory streams -/

theorem selfEntry
    (label : Name)
    (nodeId : NodeId)
    (node : OvlNode)
    (path : Path) :
    Agrees rel (Daemon.selfEntry env label nodeId node path) := by
  refine .bind (looking.lift (looking.reading.getStInoWithPath node path)) fun ino => ?_
  exact .bind (.attempt (looking.rplStatWithPath nodeId path)) fun _ => .pure _

theorem childEntry
    (dirPath : Path)
    (entry : Name × NodeId) :
    Agrees rel (Daemon.childEntry env dirPath entry) := by
  refine .bind (looking.getNode entry.2) fun found => ?_
  cases found with
  | none =>
      exact .pure none
  | some child =>
      simp only
      split
      · exact .pure none
      · refine .bind (looking.lift (looking.reading.getStInoWithPath child _))
          fun ino => ?_
        exact .bind (.attempt (looking.rplStatWithPath _ _)) fun _ => .pure _

theorem childEntries
    (dirPath : Path)
    (entries : List (Name × NodeId)) :
    Agrees rel (Daemon.childEntries env dirPath entries) := by
  induction entries with
  | nil =>
      exact .pure []
  | cons entry rest inductionHypothesis =>
      refine .bind (looking.childEntry dirPath entry) fun first => ?_
      exact .bind inductionHypothesis fun _ => .pure _

theorem parentEntry
    (node : OvlNode)
    (self : HandleEntry) :
    Agrees rel (Daemon.parentEntry env node self) := by
  unfold Daemon.parentEntry
  simp only
  split
  · exact .pure _
  · refine .bind (looking.getNode _) fun found => ?_
    cases found with
    | none =>
        exact .pure _
    | some parent =>
        exact .bind (looking.nodePath _) fun path => looking.selfEntry _ _ _ path

theorem buildDirEntries
    (nodeId : NodeId) :
    Agrees rel (Daemon.buildDirEntries env nodeId) := by
  refine .bind (looking.reloadDir nodeId) fun _ => ?_
  refine .bind (looking.getNode nodeId) fun found => ?_
  cases found with
  | none =>
      exact .pure []
  | some node =>
      refine .bind (looking.nodePath nodeId) fun dirPath => ?_
      refine .bind (looking.selfEntry _ _ _ _) fun self => ?_
      refine .bind (looking.parentEntry _ _) fun parent => ?_
      exact .bind (looking.childEntries _ _) fun _ => .pure _

theorem handleEntries
    (fh offset : Nat) :
    Agrees rel (Daemon.handleEntries fh offset) := by
  refine .bind (.gets fun first second related => ?_) fun found => ?_
  · rw [(looking.dirs first second related).1]
  exact .bind (.orFail _ _) fun _ => .pure _

theorem plusIno
    (entry : HandleEntry) :
    Agrees rel (Daemon.plusIno env entry) := by
  unfold Daemon.plusIno
  split
  · exact .pure _
  · refine .bind (looking.getNode _) fun found => ?_
    cases found with
    | none =>
        exact .pure _
    | some node =>
        refine .bind (looking.register _ _ _ _) fun number => ?_
        cases number with
        | none =>
            exact .pure _
        | some fuseIno =>
            exact .bind (looking.incLookup _) fun _ => .pure _

theorem plusEntries
    (fits : Nat)
    (entries : List (HandleEntry × Nat)) :
    Agrees rel (Daemon.plusEntries env fits entries) := by
  induction entries generalizing fits with
  | nil =>
      cases fits <;> exact .pure []
  | cons entry rest inductionHypothesis =>
      cases fits with
      | zero =>
          exact .bind (looking.plusIno _) fun _ => .pure []
      | succ fits =>
          refine .bind (looking.plusIno _) fun fuseIno => ?_
          exact .bind (inductionHypothesis fits) fun _ => .pure _

/-! ## The requests -/

theorem lookupFast
    (parent : UInt64)
    (name : Name) :
    Agrees rel (Daemon.lookupFast env parent name) := by
  refine .bind (looking.resolveIno parent) fun resolved => ?_
  cases resolved with
  | none =>
      exact .pure none
  | some parentId =>
      refine .bind (looking.getNode parentId) fun found => ?_
      cases found with
      | none =>
          exact .pure none
      | some pnode =>
          refine .bind (.check _ _) fun _ => ?_
          split
          · exact .pure none
          · refine .bind (looking.node _) fun child => ?_
            refine .bind (.check _ _) fun _ => ?_
            refine .bind (looking.treeGets fun _ inodes =>
              inodes.getByKey _) fun listed => ?_
            cases listed with
            | none =>
                exact .pure none
            | some entry =>
                simp only
                split
                · refine .bind (looking.nodePath _) fun path => ?_
                  refine .bind (.attempt (looking.rplStatWithPath _ _))
                    fun answer => ?_
                  cases answer with
                  | error errno =>
                      exact .pure none
                  | ok st =>
                      exact .bind (looking.incLookup _) fun _ => .pure _
                · exact .pure none

theorem lookupIno
    (nodeId : NodeId)
    (found : OvlNode)
    (mode : Mode) :
    Agrees rel (Daemon.lookupIno env nodeId found mode) := by
  unfold Daemon.lookupIno
  split
  · refine .bind (looking.register _ _ _ _) fun number => ?_
    refine .bind (.orFail _ _) fun fuseIno => ?_
    exact .bind (looking.incLookup _) fun _ => .pure fuseIno
  · exact .pure _

theorem lookupSlow
    (parent : UInt64)
    (name : Name) :
    Agrees rel (Daemon.lookupSlow env parent name) := by
  refine .bind (looking.doLookupFile parent name) fun found => ?_
  refine .bind (looking.presentOr _ _) fun nodeId => ?_
  refine .bind (looking.node nodeId) fun before => ?_
  refine .bind (.runIf ?_) fun _ => ?_
  · exact .bind (looking.reloadDir nodeId) fun _ => .check _ _
  · refine .bind (looking.rplStat nodeId) fun st => ?_
    refine .bind (looking.node nodeId) fun found => ?_
    exact .bind (looking.lookupIno _ _ _) fun _ => .pure _

theorem lookup
    (parent : UInt64)
    (name : Name) :
    Agrees rel (Daemon.lookup env parent name) := by
  refine .bind (.check _ _) fun _ => ?_
  refine .bind (looking.lookupFast parent name) fun reply => ?_
  cases reply with
  | some reply =>
      exact .pure reply
  | none =>
      exact looking.lookupSlow parent name

theorem getattr
    (ino : UInt64) :
    Agrees rel (Daemon.getattr env ino) := by
  unfold Daemon.getattr
  split
  · exact .bind looking.ensureRootLoaded fun _ =>
      .map _ (looking.rplStat rootId)
  · exact .bind (looking.resolveNode ino) fun nodeId =>
      .map _ (looking.rplStat nodeId)

theorem readlink
    (ino : UInt64) :
    Agrees rel (Daemon.readlink env ino) := by
  refine .bind (looking.resolveIno ino) fun resolved => ?_
  refine .bind (.orFail _ _) fun nodeId => ?_
  refine .bind (looking.nodePath nodeId) fun path => ?_
  refine .bind (looking.node nodeId) fun found => ?_
  refine .bind (looking.lift (.orFail _ _)) fun _ => ?_
  exact .map _ (looking.lift (looking.reading.readlinkat _ path))

theorem opendirOf
    (ino : UInt64) :
    Agrees rel (Daemon.opendirOf env ino) := by
  refine .bind (.runIf looking.ensureRootLoaded) fun _ => ?_
  refine .bind (looking.resolveIno ino) fun resolved => ?_
  refine .bind (.orFail _ _) fun nodeId => ?_
  refine .bind (looking.getNode nodeId) fun found => ?_
  refine .bind (.check _ _) fun _ => ?_
  refine .bind (looking.reloadDir nodeId) fun _ => ?_
  refine .bind (looking.buildDirEntries nodeId) fun entries => ?_
  intro first second related
  obtain ⟨sameDirs, sameNext⟩ := looking.dirs first second related
  simp only [← sameDirs, ← sameNext]
  exact ⟨trivial, looking.setDirs first second related _ _⟩

end Looking

end Daemon

/-- The request shows names, types and owners and changes no tree. -/
def Request.Observes : Request → Prop
  | .lookup .. => True
  | .forget .. => True
  | .getattr .. => True
  | .readlink .. => True
  | .opendir .. => True
  | .readdir .. => True
  | .readdirplus .. => True
  | .releasedir .. => True
  | _ => False

namespace Daemon

theorem Looking.observes
    {env : Env}
    {osRel : Os → Os → Prop}
    {safe : Name → Prop}
    {rel : Sys → Sys → Prop}
    (looking : Looking env osRel safe rel)
    {request : Request}
    (observes : request.Observes) :
    Agrees rel (handle env request) := by
  cases request with
  | lookup parent name =>
      exact looking.lookup parent name
  | forget ino nlookup =>
      exact .bind (looking.modifyInodes fun inodes =>
        (inodes.forget ino nlookup).2) fun _ => .pure _
  | getattr ino =>
      exact looking.getattr ino
  | readlink ino =>
      exact looking.readlink ino
  | opendir ino =>
      exact looking.opendirOf ino
  | readdir fh offset fits =>
      exact .bind (looking.handleEntries fh offset) fun _ => .pure _
  | readdirplus fh offset fits =>
      exact .bind (looking.handleEntries fh offset) fun entries =>
        .map _ (looking.plusEntries fits entries)
  | releasedir fh =>
      refine .bind (.modify fun first second related => ?_) fun _ => .pure _
      obtain ⟨sameDirs, sameNext⟩ := looking.dirs first second related
      have later := looking.setDirs first second related
        (first.openDirs.remove fh) first.nextDh
      rw [sameDirs, sameNext] at later
      rw [sameDirs, sameNext]
      exact later
  | _ =>
      exact observes.elim

end Daemon

end FuseOverlay
