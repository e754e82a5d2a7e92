import FuseOverlay.LookupCounts
import FuseOverlay.TreeInvariant

namespace FuseOverlay

/-!
# What the requests do to the inode table

The handlers reach the inode table by `register`, `inc_lookup`,
`remove_node_id` and `forget` only.  A property of the table that `register`
and `remove_node_id` keep is kept by everything a handler does before it counts
a lookup.
-/

open Act (Keeps Holds)

/-- A property of the table that linking and unlinking nodes keep. -/
structure TableRule (kept : InodeTable → Prop) : Prop where
  register :
    ∀ {inodes inodes' : InodeTable} {order arena nodeId ino dev mode fuseIno},
      kept inodes →
      inodes.register order arena nodeId ino dev mode =
        some (fuseIno, inodes') →
      kept inodes'
  removeNodeId :
    ∀ {inodes : InodeTable} {key nodeId}, kept inodes →
      kept (inodes.removeNodeId key nodeId)

/-- The counts of the kernel are such a property. -/
theorem InodeTable.Counted.rule
    (held : UInt64 → Nat) :
    TableRule (Counted held) where
  register counted registered := (counted.register registered).1
  removeNodeId counted := counted.removeNodeId _ _

namespace Daemon

open Syscall Whiteout

variable {env : Env}

/-- The requests that neither count lookups nor forget them. -/
def countsNothing : Request → Bool
  | .lookup .. | .forget .. | .mknod .. | .mkdir .. | .symlink .. | .link ..
  | .create .. | .readdirplus .. => false
  | _ => true

/-- A property that calm actions and every change of the nodes keep. -/
structure Beside (kept : Sys → Prop) : Prop where
  calm : ∀ {α : Type} {act : Daemon α}, Calm act → Keeps kept act
  nodes : ∀ {sys : Sys} nodes, kept sys → kept { sys with nodes := nodes }

/-- A property that linking and unlinking nodes keeps too. -/
structure LinkRule
    (env : Env)
    (kept : Sys → Prop) : Prop extends Beside kept where
  registers :
    ∀ id ino dev mode, Keeps kept (Daemon.register env id ino dev mode)
  unlinks :
    ∀ {sys : Sys} key id, kept sys →
      kept { sys with inodes := sys.inodes.removeNodeId key id }

namespace Beside

variable {kept : Sys → Prop} (beside : Beside kept)

include beside

theorem lift
    {α : Type}
    (act : Syscall α) :
    Keeps kept (liftM act : Daemon α) :=
  beside.calm (.lift act)

/-- A change of the nodes alone. -/
theorem modifyNode
    (id : NodeId)
    (change : OvlNode → OvlNode) :
    Keeps kept (Daemon.modifyNode id change) :=
  fun _ holds => beside.nodes _ holds

theorem insertNode
    (node : OvlNode) :
    Keeps kept (Daemon.insertNode node) :=
  fun _ holds => beside.nodes _ holds

theorem removeNode
    (id : NodeId) :
    Keeps kept (Daemon.removeNode id) := by
  refine .bind (Keeps.gets _) fun found => ?_
  cases found with
  | none =>
      exact Keeps.pure ()
  | some node =>
      refine .bind (Keeps.modify fun _ holds => beside.nodes _ holds)
        fun _ => ?_
      exact beside.calm (calm_dropNode node)

/-! ## Loading -/

theorem insertChildNode
    (parentId : NodeId)
    (child : OvlNode) :
    Keeps kept (Daemon.insertChildNode parentId child) := by
  refine .bind (beside.insertNode child) fun childId => ?_
  exact .bind (beside.modifyNode parentId _) fun _ => Keeps.pure childId

theorem loadNewEntry
    (parentId : NodeId)
    (path : Path)
    (layerIdx : Nat)
    (entry : DirEntry) :
    Keeps kept (Daemon.loadNewEntry env parentId path layerIdx entry) := by
  refine .bind (beside.lift _) fun whited => ?_
  split
  · exact beside.modifyNode parentId _
  · split
    · refine .bind (Keeps.gets _) fun parent => ?_
      exact Keeps.runIf (beside.modifyNode parentId _)
    · refine .bind (beside.lift _) fun device => ?_
      split
      · exact beside.modifyNode parentId _
      · refine .bind (beside.lift _) fun found => ?_
        exact .bind (beside.insertChildNode parentId _) fun _ => Keeps.pure ()

theorem loadEntry
    (parentId : NodeId)
    (path : Path)
    (layerIdx : Nat)
    (entry : DirEntry) :
    Keeps kept (Daemon.loadEntry env parentId path layerIdx entry) := by
  unfold Daemon.loadEntry
  split
  · exact Keeps.pure ()
  · refine .bind (Keeps.gets _) fun parent => ?_
    split
    · exact beside.modifyNode _ _
    · split
      · exact Keeps.pure ()
      · exact beside.loadNewEntry parentId path layerIdx entry

theorem loadLayer
    (parentId : NodeId)
    (path : Path)
    (lastLayerStop : Option Nat)
    (layerIdx : Nat) :
    Keeps kept (Daemon.loadLayer env parentId path lastLayerStop layerIdx) := by
  refine .bind (beside.lift _) fun outcome => ?_
  split
  · split
    · refine Keeps.map (?_ : Keeps kept (Daemon.loadStream env parentId path _ _))
      refine .bind (beside.lift _) fun opened => ?_
      split
      · exact Keeps.pure _
      · refine .bind (Keeps.each (fun entry =>
          beside.loadEntry parentId path layerIdx entry) _) fun _ => ?_
        exact .bind (beside.lift _) fun cut => Keeps.pure _
    · exact Keeps.pure none
  · exact Keeps.pure _
  · exact Keeps.pure _
  · exact Keeps.pure none

theorem loadLayers
    (parentId : NodeId)
    (path : Path)
    (lastLayerStop : Option Nat)
    (layers : List Nat) :
    Keeps kept (Daemon.loadLayers env parentId path lastLayerStop layers) := by
  induction layers with
  | nil =>
      exact Keeps.pure ()
  | cons layerIdx rest inductionHypothesis =>
      refine .bind (beside.loadLayer parentId path lastLayerStop layerIdx)
        fun outcome => ?_
      split
      · exact inductionHypothesis
      · exact Keeps.pure ()

theorem loadDirImpl
    (parentId : NodeId)
    (path : Path)
    (lastLayerStop : Option Nat) :
    Keeps kept (Daemon.loadDirImpl env parentId path lastLayerStop) :=
  .bind (beside.loadLayers parentId path lastLayerStop _) fun _ =>
    beside.modifyNode parentId _

theorem ensureRootLoaded :
    Keeps kept (Daemon.ensureRootLoaded env) := by
  refine .bind (Keeps.gets _) fun root => ?_
  split
  · exact Keeps.pure ()
  · exact beside.loadDirImpl rootId [] none

theorem reloadDir
    (nodeId : NodeId) :
    Keeps kept (Daemon.reloadDir env nodeId) := by
  refine .bind (Keeps.gets _) fun found => ?_
  cases found with
  | none =>
      exact Keeps.pure true
  | some node =>
      simp only
      split
      · exact Keeps.pure true
      · refine .bind (Keeps.gets _) fun path => ?_
        exact .bind (beside.loadDirImpl nodeId path _) fun _ =>
          Keeps.pure true

theorem buildDirEntries
    (nodeId : NodeId) :
    Keeps kept (Daemon.buildDirEntries env nodeId) := by
  refine .bind (beside.reloadDir nodeId) fun _ => ?_
  refine .bind (Keeps.gets _) fun found => ?_
  cases found with
  | none =>
      exact Keeps.pure []
  | some node =>
      refine .bind (Keeps.gets _) fun path => ?_
      refine .bind (beside.calm (calm_selfEntry _ nodeId node path)) fun self => ?_
      refine .bind (beside.calm (calm_parentEntry node self)) fun parent => ?_
      refine .bind (beside.calm (calm_childEntries path _)) fun rest => ?_
      exact Keeps.pure _

/-! ## Lazy lookup -/

theorem whitedOut
    (parentId : NodeId)
    (name : Name) :
    Keeps kept (Daemon.whitedOut parentId name) :=
  .bind (beside.modifyNode parentId _) fun _ => Keeps.pure _

theorem lazyMissing
    (parentId : NodeId)
    (parentPath : Path)
    (name : Name)
    (layerIdx : Nat)
    (stop : Bool) :
    Keeps kept (Daemon.lazyMissing parentId parentPath name layerIdx stop) := by
  refine .bind (beside.lift _) fun whited => ?_
  split
  · exact beside.whitedOut parentId name
  · exact Keeps.pure _

theorem lazyFound
    (parentId : NodeId)
    (parentPath : Path)
    (name : Name)
    (layerIdx : Nat)
    (stop : Bool)
    (st : Stat) :
    Keeps kept
      (Daemon.lazyFound env parentId parentPath name layerIdx stop st) := by
  refine .bind (beside.lift _) fun whited => ?_
  split
  · exact beside.whitedOut parentId name
  · split
    · exact beside.whitedOut parentId _
    · split
      · exact beside.whitedOut parentId name
      · split
        · exact .bind (beside.lift _) fun cut => Keeps.pure _
        · exact Keeps.pure _

theorem lazyLayer
    (parentId : NodeId)
    (parentPath : Path)
    (name : Name)
    (lastLayerIdx layerIdx : Nat)
    (found : Option OvlNode) :
    Keeps kept (Daemon.lazyLayer env parentId parentPath name lastLayerIdx layerIdx
      found) := by
  refine .bind (beside.lift _) fun outcome => ?_
  cases found with
  | some child =>
      split <;> exact Keeps.pure _
  | none =>
      split
      · exact beside.lazyMissing parentId parentPath name layerIdx _
      · exact beside.lazyMissing parentId parentPath name layerIdx _
      · exact beside.lazyMissing parentId parentPath name layerIdx _
      · exact Keeps.pure _
      · exact beside.lazyFound parentId parentPath name layerIdx _ _

theorem lazyLayers
    (parentId : NodeId)
    (parentPath : Path)
    (name : Name)
    (lastLayerIdx : Nat)
    (layers : List Nat)
    (found : Option OvlNode) :
    Keeps kept (Daemon.lazyLayers env parentId parentPath name lastLayerIdx layers
      found) := by
  induction layers generalizing found with
  | nil =>
      exact Keeps.pure found
  | cons layerIdx rest inductionHypothesis =>
      refine .bind (beside.lazyLayer parentId parentPath name lastLayerIdx
        layerIdx found) fun step => ?_
      split
      · exact Keeps.pure none
      · exact Keeps.pure _
      · exact inductionHypothesis _

/-! ## Parts of requests -/

theorem presentOr
    (found : Option NodeId)
    (errno : Errno) :
    Keeps kept (Daemon.presentOr found errno) := by
  refine .bind (Keeps.orFail _ _) fun id => ?_
  refine .bind (Keeps.gets _) fun live => ?_
  exact .bind (Keeps.check _ _) fun _ => Keeps.pure id

theorem hideNode
    (nodeId : NodeId)
    (unlinkSrc : Bool) :
    Keeps kept (Daemon.hideNode env nodeId unlinkSrc) := by
  refine .bind (Keeps.check _ _) fun _ => ?_
  refine .bind (beside.lift _) fun wd => ?_
  refine .bind (Keeps.runIf ?_) fun _ => ?_
  · refine Keeps.bind (Keeps.gets _) fun path => ?_
    refine .bind (beside.calm (.node nodeId)) fun found => ?_
    refine .bind (Keeps.gets _) fun whited => ?_
    refine .bind (Keeps.gets _) fun parentPath => ?_
    exact beside.lift _
  · refine .bind (beside.calm (.node nodeId)) fun found => ?_
    refine .bind (beside.modifyNode nodeId _) fun _ => ?_
    split
    · exact Keeps.pure ()
    · exact beside.modifyNode _ _

theorem checkMovable
    (srcId : NodeId) :
    Keeps kept (Daemon.checkMovable env srcId) := by
  refine .bind (beside.calm (.node srcId)) fun src => ?_
  refine Keeps.runIf ?_
  refine Keeps.bind (beside.reloadDir srcId) fun _ => ?_
  refine .bind (beside.calm (.node srcId)) fun src => ?_
  exact Keeps.check _ _

theorem clearDestination
    (dstId : NodeId) :
    Keeps kept (Daemon.clearDestination env dstId) := by
  refine .bind (beside.calm (.node dstId)) fun dst => ?_
  refine Keeps.runIf ?_
  refine Keeps.bind (beside.reloadDir dstId) fun _ => ?_
  refine .bind (Keeps.gets _) fun visible => ?_
  refine .bind (Keeps.check _ _) fun _ => ?_
  refine .bind (Keeps.gets _) fun dstPath => ?_
  exact .bind (beside.lift _) fun _ => Keeps.pure ()

theorem takeChild
    (parentId : NodeId)
    (name : Name) :
    Keeps kept (Daemon.takeChild parentId name) := by
  refine .bind (Keeps.gets _) fun parent => ?_
  exact .bind (beside.modifyNode parentId _) fun _ => Keeps.pure _

theorem exchangeNodes
    (sparentId dparentId : NodeId)
    (name newname : Name) :
    Keeps kept (Daemon.exchangeNodes sparentId dparentId name newname) := by
  refine .bind (beside.takeChild sparentId name) fun srcChild => ?_
  refine .bind (beside.takeChild dparentId newname) fun dstChild => ?_
  refine .bind (Keeps.orFail _ _) fun sid => ?_
  refine .bind (Keeps.orFail _ _) fun did => ?_
  refine .bind (Keeps.gets _) fun foundSrc => ?_
  refine .bind (Keeps.orFail _ _) fun snode => ?_
  refine .bind (Keeps.gets _) fun foundDst => ?_
  refine .bind (Keeps.orFail _ _) fun dnode => ?_
  refine .bind (beside.modifyNode sid _) fun _ => ?_
  refine .bind (beside.modifyNode did _) fun _ => ?_
  refine .bind (beside.modifyNode dparentId _) fun _ => ?_
  exact beside.modifyNode sparentId _

theorem moveNode
    (sparentId dparentId : NodeId)
    (name newname : Name) :
    Keeps kept (Daemon.moveNode sparentId dparentId name newname) := by
  refine .bind (beside.takeChild sparentId name) fun child => ?_
  cases child with
  | none =>
      exact Keeps.pure ()
  | some childId =>
      exact .bind (beside.modifyNode childId _) fun _ => beside.modifyNode dparentId _

theorem getattr
    (ino : UInt64) :
    Keeps kept (Daemon.getattr env ino) := by
  unfold Daemon.getattr
  split
  · exact .bind beside.ensureRootLoaded fun _ =>
      beside.calm (.map (.rplStat rootId))
  · refine .bind (beside.calm (calm_resolveNode ino)) fun nodeId => ?_
    exact beside.calm (.map (.rplStat nodeId))

theorem opendirOf
    (ino : UInt64) :
    Keeps kept (Daemon.opendirOf env ino) := by
  refine .bind (Keeps.runIf beside.ensureRootLoaded) fun _ => ?_
  refine .bind (Keeps.gets _) fun resolved => ?_
  refine .bind (Keeps.orFail _ _) fun nodeId => ?_
  refine .bind (Keeps.gets _) fun found => ?_
  refine .bind (Keeps.check _ _) fun _ => ?_
  refine .bind (beside.reloadDir nodeId) fun _ => ?_
  refine .bind (beside.buildDirEntries nodeId) fun entries => ?_
  exact beside.calm (calm_storeDir entries)

theorem ioctl
    (ino : UInt64)
    (fh : Nat)
    (compat : Bool)
    (command : IoctlCommand) :
    Keeps kept (Daemon.ioctl env ino fh compat command) := by
  refine .bind (Keeps.check _ _) fun _ => ?_
  refine .bind (beside.calm (calm_resolveNode ino)) fun nodeId => ?_
  cases command with
  | refreshDir =>
      refine .bind (beside.calm (.node nodeId)) fun found => ?_
      refine .bind (Keeps.check _ _) fun _ => ?_
      refine .bind (Keeps.gets _) fun path => ?_
      refine .bind (beside.modifyNode nodeId _) fun _ => ?_
      exact .bind (beside.loadDirImpl nodeId path _) fun _ => Keeps.pure _
  | set =>
      exact beside.calm (calm_ioctlFlags nodeId true fh)
  | get =>
      exact beside.calm (calm_ioctlFlags nodeId false fh)
  | other =>
      exact Keeps.fail _

end Beside

namespace LinkRule

variable {kept : Sys → Prop} (rule : LinkRule env kept)

include rule

theorem adoptChild
    (parentId : NodeId)
    (child : OvlNode) :
    Keeps kept (Daemon.adoptChild env parentId child) := by
  refine .bind (rule.insertNode child) fun childId => ?_
  refine .bind (Keeps.runIf (Keeps.bind (rule.registers childId _ _ _)
    fun _ => Keeps.pure ())) fun _ => ?_
  exact .bind (rule.modifyNode parentId _) fun _ => Keeps.pure _

theorem doLazyLookup
    (parentId : NodeId)
    (name : Name) :
    Keeps kept (Daemon.doLazyLookup env parentId name) := by
  refine .bind (Keeps.gets _) fun found => ?_
  cases found with
  | none =>
      exact Keeps.pure none
  | some parent =>
      refine .bind (Keeps.gets _) fun parentPath => ?_
      refine .bind (rule.lazyLayers parentId parentPath name _ _ none)
        fun child => ?_
      cases child with
      | none =>
          exact Keeps.pure none
      | some child =>
          exact rule.adoptChild parentId child

theorem doLookupFile
    (parentIno : UInt64)
    (name : Name) :
    Keeps kept (Daemon.doLookupFile env parentIno name) := by
  refine .bind (Keeps.gets _) fun resolved => ?_
  cases resolved with
  | none =>
      exact Keeps.pure none
  | some parentId =>
      refine .bind (Keeps.gets _) fun found => ?_
      cases found with
      | none =>
          exact Keeps.pure none
      | some parent =>
          simp only
          split
          · exact Keeps.pure _
          · split
            · exact Keeps.pure none
            · exact rule.doLazyLookup parentId name

theorem checkFree
    (parent : UInt64)
    (name : Name) :
    Keeps kept (Daemon.checkFree env parent name) := by
  refine .bind (rule.doLookupFile parent name) fun found => ?_
  refine .bind (rule.calm (calm_isPresent found)) fun present => ?_
  exact Keeps.check _ _

theorem createsOverWhiteout
    (parent : UInt64)
    (name : Name) :
    Keeps kept (Daemon.createsOverWhiteout env parent name) := by
  refine .bind (rule.doLookupFile parent name) fun found => ?_
  refine .bind (rule.calm (calm_isPresent found)) fun present => ?_
  refine .bind (Keeps.check _ _) fun _ => ?_
  split
  · exact Keeps.pure true
  · exact Keeps.gets _

/-! ## Removing and renaming -/

theorem removeFromTree
    (pnodeId : NodeId)
    (name : Name) :
    Keeps kept (Daemon.removeFromTree pnodeId name) := by
  refine .bind (Keeps.gets _) fun pnode => ?_
  split
  · exact Keeps.pure ()
  · next removedId isChild =>
      refine .bind (rule.modifyNode pnodeId _) fun _ => ?_
      refine .bind (Keeps.gets _) fun found => ?_
      cases found with
      | none =>
          exact Keeps.pure ()
      | some removed =>
          refine .bind (Keeps.modify fun _ holds =>
          rule.unlinks _ _ holds) fun _ => ?_
          exact rule.removeNode removedId

theorem doRm
    (parent : UInt64)
    (name : Name)
    (isDir : Bool) :
    Keeps kept (Daemon.doRm env parent name isDir) := by
  refine .bind (rule.doLookupFile parent name) fun looked => ?_
  refine .bind (rule.presentOr looked _) fun nodeId => ?_
  refine .bind (Keeps.runIf (Keeps.bind (rule.reloadDir nodeId) fun _ =>
    Keeps.bind (Keeps.gets _) fun empty => Keeps.check _ _)) fun _ => ?_
  refine .bind (rule.calm (calm_getNodeUp nodeId)) fun _ => ?_
  refine .bind (Keeps.gets _) fun resolved => ?_
  refine .bind (Keeps.orFail _ _) fun pnodeId => ?_
  refine .bind (rule.calm (calm_getNodeUp pnodeId)) fun _ => ?_
  refine .bind (rule.hideNode nodeId true) fun _ => ?_
  refine .bind (rule.removeFromTree pnodeId name) fun _ => ?_
  exact Keeps.pure _

theorem prepareDestination
    (newparent : UInt64)
    (newname : Name)
    (flags : UInt32) :
    Keeps kept (Daemon.prepareDestination env newparent newname flags) := by
  refine .bind (rule.doLookupFile newparent newname) fun found => ?_
  refine .bind (rule.calm (calm_isPresent found)) fun present => ?_
  split
  · refine .bind (Keeps.check _ _) fun _ => ?_
    exact Keeps.runIf (rule.clearDestination _)
  · exact Keeps.pure ()

theorem dropReplaced
    (newparent : UInt64)
    (dparentId : NodeId)
    (newname : Name) :
    Keeps kept (Daemon.dropReplaced env newparent dparentId newname) := by
  refine .bind (rule.doLookupFile newparent newname) fun found => ?_
  refine .bind (rule.calm (calm_isPresent found)) fun present => ?_
  split
  · next dstId =>
      refine .bind (rule.calm (.node dstId)) fun dst => ?_
      refine .bind (Keeps.modify fun _ holds =>
          rule.unlinks _ _ holds) fun _ => ?_
      exact .bind (rule.modifyNode dparentId _) fun _ => rule.removeNode dstId
  · exact Keeps.pure ()

theorem rename
    (parent : UInt64)
    (name : Name)
    (newparent : UInt64)
    (newname : Name)
    (flags : UInt32) :
    Keeps kept (Daemon.rename env parent name newparent newname flags) := by
  refine .bind (rule.lift _) fun _ => ?_
  refine .bind (rule.doLookupFile parent name) fun looked => ?_
  refine .bind (rule.presentOr looked _) fun srcId => ?_
  refine .bind (rule.checkMovable srcId) fun _ => ?_
  refine .bind (rule.calm (calm_getNodeUp srcId)) fun _ => ?_
  refine .bind (Keeps.gets _) fun resolved => ?_
  refine .bind (Keeps.orFail _ _) fun sparentId => ?_
  refine .bind (rule.calm (calm_getNodeUp sparentId)) fun _ => ?_
  refine .bind (Keeps.gets _) fun resolvedNew => ?_
  refine .bind (Keeps.orFail _ _) fun dparentId => ?_
  refine .bind (rule.calm (calm_getNodeUp dparentId)) fun _ => ?_
  refine .bind (Keeps.gets _) fun srcPath => ?_
  refine .bind (Keeps.gets _) fun dparentPath => ?_
  refine .bind (rule.prepareDestination newparent newname flags)
    fun _ => ?_
  refine .bind (Keeps.gets _) fun src => ?_
  refine .bind (Keeps.runIf (Keeps.bind (rule.lift _) fun _ =>
    Keeps.pure ())) fun _ => ?_
  refine .bind (rule.lift _) fun _ => ?_
  refine .bind (Keeps.gets _) fun srcNow => ?_
  refine .bind ?_ fun _ => ?_
  · refine .bind (rule.modifyNode sparentId _) fun _ => ?_
    refine .bind (rule.modifyNode dparentId _) fun _ => ?_
    split
    · exact rule.exchangeNodes sparentId dparentId name newname
    · exact .bind (rule.dropReplaced newparent dparentId newname)
        fun _ => rule.moveNode sparentId dparentId name newname
  · refine .bind (Keeps.runIf (Keeps.bind (Keeps.gets _) fun path =>
      Keeps.bind (rule.lift _) fun _ => Keeps.pure ())) fun _ => ?_
    exact Keeps.pure _

/-! ## Requests -/

/-- What linking and unlinking nodes keep, such a request keeps. -/
theorem handle
    {request : Request}
    (plain : countsNothing request = true)
    (releases :
      ∀ fh, request = .releasedir fh → Keeps kept (releasedir fh)) :
    Keeps kept (Daemon.handle env request) := by
  by_cases released : ∃ fh, request = .releasedir fh
  · obtain ⟨fh, rfl⟩ := released
    exact releases fh rfl
  by_cases leaves : leavesTree request = true
  · exact rule.calm (calm_handle leaves (not_exists.mp released))
  cases request with
  | getattr ino =>
      exact rule.getattr ino
  | unlink parent name =>
      exact rule.doRm parent name false
  | rmdir parent name =>
      exact rule.doRm parent name true
  | rename parent name newparent newname flags =>
      exact rule.rename parent name newparent newname flags
  | opendir ino =>
      exact rule.opendirOf ino
  | ioctl ino fh compat command =>
      exact rule.ioctl ino fh compat command
  | lookup parent name => cases plain
  | forget ino nlookup => cases plain
  | mknod caller parent name mode rdev => cases plain
  | mkdir caller parent name mode => cases plain
  | symlink caller parent name target => cases plain
  | link ino newparent newname => cases plain
  | create caller parent name mode flags => cases plain
  | readdirplus fh offset fits => cases plain
  | _ =>
      exact (leaves rfl).elim

/-- A property that counting keeps too is kept by all that removes nothing. -/
theorem growth
    (counts : ∀ key, Keeps kept (incLookup key)) :
    GrowthRule env kept where
  calm := rule.calm
  loads := rule.loadDirImpl
  clears := fun nodeId => rule.modifyNode nodeId _
  looksUp := rule.doLookupFile
  registers := by
    rintro id ino dev mode sys ⟨holds, live⟩
    refine ⟨rule.registers id ino dev mode sys holds, ?_⟩
    unfold Daemon.register
    split <;> exact live
  counts := counts
  creates := by
    intro parentId name st isDir
    refine .bind (rule.insertNode _) fun childId => ?_
    refine .bind (rule.registers _ _ _ _) fun answer => ?_
    refine .bind (Keeps.orFail _ _) fun fuseIno => ?_
    refine .bind (counts _) fun _ => ?_
    refine .bind (Keeps.gets _) fun parent => ?_
    refine .bind (Keeps.check _ _) fun _ => ?_
    exact .bind (rule.modifyNode _ _) fun _ => Keeps.pure _

end LinkRule

/-! ## Properties of the table -/

/-- An action that keeps a property of the table. -/
def Tabled
    {α : Type}
    (kept : InodeTable → Prop)
    (act : Daemon α) : Prop :=
  Keeps (fun sys => kept sys.inodes) act

/-- Calm actions and changes of the nodes leave the table as it is. -/
theorem beside_table
    (kept : InodeTable → Prop) :
    Beside fun sys => kept sys.inodes where
  calm := by
    intro α act calm sys holds
    obtain ⟨-, sameTable⟩ :=
      calm sys.forest sys ⟨NodeArena.SameShape.refl _, rfl⟩
    rw [sameTable]
    exact holds
  nodes := fun _ holds => holds

theorem linkRule_of_tableRule
    {kept : InodeTable → Prop}
    (rule : TableRule kept) :
    LinkRule env fun sys => kept sys.inodes where
  toBeside := beside_table kept
  registers := by
    intro id ino dev mode sys holds
    unfold Daemon.register
    split
    · exact holds
    · next fuseIno inodes registered =>
        exact rule.register holds registered
  unlinks := fun _ _ holds => rule.removeNodeId holds

end Daemon

end FuseOverlay
