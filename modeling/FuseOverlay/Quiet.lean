import FuseOverlay.FileRequests
import FuseOverlay.SyscallSteps

namespace FuseOverlay

/-!
# Actions that change no tree and no handle

Most of what the program does is looking: at the layers, to fill the cached
nodes and the inode table.  `Reads` is said of system calls that leave the
trees alone, `Quiet` of actions of the daemon that leave trees and open files
alone, whatever they do to nodes, table and directory handles.
-/

open Act (Keeps)

namespace Syscall

/-- The system calls keep whatever holds of the trees. -/
def Reads
    {α : Type}
    (act : Syscall α) : Prop :=
  ∀ kept : Disk → Prop, Keeps (fun os => kept os.disk) act

namespace Reads

variable {α β : Type}

theorem pure
    (value : α) :
    Reads (Pure.pure value : Syscall α) :=
  fun _ => Keeps.pure value

theorem fail
    (errno : Errno) :
    Reads (Act.fail errno : Syscall α) :=
  fun _ => Keeps.fail errno

theorem gets
    (read : Os → α) :
    Reads (Act.gets read : Syscall α) :=
  fun _ => Keeps.gets read

theorem ofExcept
    (outcome : Except Errno α) :
    Reads (Act.ofExcept outcome : Syscall α) :=
  fun _ => Keeps.ofExcept outcome

theorem orFail
    (value : Option α)
    (errno : Errno) :
    Reads (Act.orFail value errno : Syscall α) :=
  fun _ => Keeps.orFail value errno

theorem check
    (test : Bool)
    (errno : Errno) :
    Reads (Act.check test errno) :=
  fun _ => Keeps.check test errno

theorem query
    (read : Disk → Except Errno α) :
    Reads (Syscall.query read) :=
  fun kept => @keeps_query α kept read

theorem bind
    {first : Syscall α}
    {next : α → Syscall β}
    (firstReads : Reads first)
    (nextReads : ∀ value, Reads (next value)) :
    Reads (first >>= next) :=
  fun kept => Keeps.bind (firstReads kept) fun value => nextReads value kept

theorem attempt
    {act : Syscall α}
    (reads : Reads act) :
    Reads act.attempt :=
  fun kept => Keeps.attempt (reads kept)

end Reads

open Whiteout

variable {env : Env}

/-! ## What the program reads -/

theorem reads_nextStIno :
    Reads nextStIno := by
  intro kept os holds
  unfold nextStIno
  split <;> exact holds

theorem reads_nextWdName :
    Reads nextWdName :=
  fun _ _ holds => holds

theorem reads_layer
    (layerIdx : Nat) :
    Reads (layer env layerIdx) :=
  .orFail _ _

theorem reads_hasOpaqueXattr
    (root : Root)
    (path : Path)
    (attrs : List Name) :
    Reads (hasOpaqueXattr env root path attrs) := by
  induction attrs with
  | nil =>
      exact .pure false
  | cons attr rest inductionHypothesis =>
      apply Reads.bind (.attempt (.query _))
      intro value
      split
      · split
        · exact .pure true
        · exact inductionHypothesis
      · exact inductionHypothesis

theorem reads_isDirectoryOpaque
    (root : Root)
    (path : Path) :
    Reads (isDirectoryOpaque env root path) := by
  apply Reads.bind (reads_hasOpaqueXattr root path opaqueXattrs)
  intro marked
  split
  · exact .pure true
  · apply Reads.bind (.attempt (.query _))
    intro found
    split
    · exact .pure _
    · exact .pure false
    · exact .fail _

theorem reads_isWhFile
    (layerIdx : Nat)
    (parentPath : Path)
    (name : Name) :
    Reads (isWhFile layerIdx parentPath name) :=
  .bind (.attempt (.query _)) fun _ => .pure _

theorem reads_isDeviceEntry
    (layerIdx : Nat)
    (path : Path)
    (entry : DirEntry) :
    Reads (isDeviceEntry layerIdx path entry) := by
  unfold isDeviceEntry
  split
  · apply Reads.bind (.attempt (.query _))
    intro found
    split <;> exact .pure _
  · exact .pure false

theorem reads_entryAttr
    (layerIdx : Nat)
    (path : Path)
    (entry : DirEntry) :
    Reads (entryAttr env layerIdx path entry) := by
  unfold entryAttr
  simp only
  split
  · exact .pure _
  · apply Reads.bind (.attempt (.query _))
    intro found
    split <;> exact .pure _

theorem reads_overrideMode
    (layerIdx : Nat)
    (found : Layer)
    (path : Path)
    (st : Stat) :
    Reads (overrideMode env layerIdx found path st) := by
  unfold overrideMode
  split
  · exact .pure st
  · split
    · apply Reads.bind (.attempt (.query _))
      intro value
      split
      · split
        · exact .ofExcept _
        · exact .fail _
      · exact .pure st
      · exact .pure st
      · exact .fail _
    · exact .pure st

theorem reads_doStatWithPath
    (node : OvlNode)
    (path : Path) :
    Reads (doStatWithPath env node path) := by
  apply Reads.bind (reads_layer _)
  intro found
  split <;> exact .query _

theorem reads_getStInoWithPath
    (node : OvlNode)
    (path : Path) :
    Reads (getStInoWithPath env node path) := by
  have raw : Reads (rawStIno env node path) := by
    unfold rawStIno
    split
    · exact .bind (.gets _) fun handle => .pure _
    · exact .pure _
  unfold getStInoWithPath
  split
  · exact .pure _
  · exact .bind raw fun ino => .pure _

theorem reads_checkNamemax
    (name : Name) :
    Reads (checkNamemax env name) := by
  have limit : Reads (getFsNamemax env) := by
    apply Reads.bind (.attempt (.query _))
    intro found
    split <;> exact .pure _
  exact .bind limit fun namemax => .check _ _

theorem reads_readFile
    (fd : Fd)
    (offset size : Nat) :
    Reads (readFile fd offset size) :=
  .bind (.check _ _) fun _ => .bind (.query _) fun _ => .pure _

theorem reads_restoreMode
    (fd : Fd)
    (writeCache : Bool) :
    Reads (restoreMode fd writeCache) := by
  unfold restoreMode
  split
  · apply Reads.bind (.attempt (.query _))
    intro found
    split <;> exact .pure _
  · exact .pure none

theorem reads_currentOverride
    (fd : Option Fd)
    (attr : Name)
    (st : Stat) :
    Reads (currentOverride env fd attr st) := by
  unfold currentOverride
  simp only
  split
  · exact .pure _
  · apply Reads.bind (.attempt (.query _))
    intro found
    split <;> exact .pure _

/-- An open that neither makes nor empties a file. -/
theorem reads_safeOpenat
    {flags : OpenFlags}
    (noCreat : flags.creat = false)
    (noTrunc : flags.trunc = false)
    (base : Loc)
    (path : Path)
    (perm : UInt32) :
    Reads (safeOpenat env base path flags perm) := by
  intro kept
  refine Keeps.bind (reads_nextStIno kept) fun ino => ?_
  refine @keeps_call _ kept _ fun {disk fd later} holds ran => ?_
  have same : later = disk := by
    simp only [noCreat, Bool.false_and, Bool.false_eq_true, ↓reduceIte] at ran
    split at ran
    · cases ran
    · split at ran
      · cases ran
      · split at ran
        · cases ran
        · unfold openObj at ran
          simp only [noCreat, noTrunc, Bool.or_false, Bool.false_and,
            Bool.false_eq_true, ↓reduceIte] at ran
          split at ran
          · cases ran
          · split at ran
            · cases ran
              rfl
            · split at ran
              · cases ran
              · split at ran
                · cases ran
                · split at ran
                  · cases ran
                  · cases ran
                    rfl
  rw [same]
  exact holds

end Syscall

namespace Daemon

open Syscall Whiteout

/-- The action keeps whatever holds of the trees and the open files. -/
def Quiet
    {α : Type}
    (act : Daemon α) : Prop :=
  ∀ kept : Disk → FMap Nat Fd → Nat → Prop,
    Keeps (fun sys => kept sys.os.disk sys.openFiles sys.nextFh) act

namespace Quiet

variable {α β : Type} {env : Env}

theorem pure
    (value : α) :
    Quiet (Pure.pure value : Daemon α) :=
  fun _ => Keeps.pure value

theorem fail
    (errno : Errno) :
    Quiet (Act.fail errno : Daemon α) :=
  fun _ => Keeps.fail errno

theorem gets
    (read : Sys → α) :
    Quiet (Act.gets read : Daemon α) :=
  fun _ => Keeps.gets read

theorem orFail
    (value : Option α)
    (errno : Errno) :
    Quiet (Act.orFail value errno : Daemon α) :=
  fun _ => Keeps.orFail value errno

theorem check
    (test : Bool)
    (errno : Errno) :
    Quiet (Act.check test errno) :=
  fun _ => Keeps.check test errno

theorem bind
    {first : Daemon α}
    {next : α → Daemon β}
    (firstQuiet : Quiet first)
    (nextQuiet : ∀ value, Quiet (next value)) :
    Quiet (first >>= next) :=
  fun kept => Keeps.bind (firstQuiet kept) fun value => nextQuiet value kept

theorem map
    {act : Daemon α}
    {transform : α → β}
    (quiet : Quiet act) :
    Quiet (transform <$> act) :=
  fun kept => Keeps.map (quiet kept)

theorem attempt
    {act : Daemon α}
    (quiet : Quiet act) :
    Quiet act.attempt :=
  fun kept => Keeps.attempt (quiet kept)

theorem runIf
    {test : Bool}
    {act : Daemon Unit}
    (quiet : Quiet act) :
    Quiet (Act.runIf test act) :=
  fun kept => Keeps.runIf (quiet kept)

theorem each
    {act : α → Daemon Unit}
    (quiet : ∀ item, Quiet (act item))
    (items : List α) :
    Quiet (Act.each act items) :=
  fun kept => Keeps.each (fun item => quiet item kept) items

theorem lift
    {act : Syscall α}
    (reads : Reads act) :
    Quiet (liftM act : Daemon α) :=
  fun kept sys holds =>
    reads (fun disk => kept disk sys.openFiles sys.nextFh) sys.os holds

theorem liftAttempt
    {act : Syscall α}
    (reads : Reads act) :
    Quiet (liftM act.attempt : Daemon (Except Errno α)) :=
  lift reads.attempt

theorem liftQuery
    (read : Disk → Except Errno α) :
    Quiet (liftM (Syscall.query read).attempt : Daemon (Except Errno α)) :=
  lift (.attempt (.query read))

/-! ## Nodes and the inode table -/

theorem modifyNode
    (id : NodeId)
    (change : OvlNode → OvlNode) :
    Quiet (Daemon.modifyNode id change) :=
  fun _ _ holds => holds

theorem insertNode
    (node : OvlNode) :
    Quiet (Daemon.insertNode node) :=
  fun _ _ holds => holds

theorem register
    (id : NodeId)
    (ino dev : UInt64)
    (mode : Mode) :
    Quiet (Daemon.register env id ino dev mode) := by
  intro kept sys holds
  unfold Daemon.register
  split <;> exact holds

theorem incLookup
    (key : InodeKey) :
    Quiet (Daemon.incLookup key) :=
  fun _ _ holds => holds

theorem node
    (id : NodeId) :
    Quiet (Daemon.node id) :=
  .bind (.gets _) fun _ => .orFail _ _

theorem insertChildNode
    (parentId : NodeId)
    (child : OvlNode) :
    Quiet (Daemon.insertChildNode parentId child) :=
  .bind (.insertNode child) fun _ => .bind (.modifyNode _ _) fun _ => .pure _

/-! ## Attributes -/

theorem rplStatWithPath
    (nodeId : NodeId)
    (path : Path) :
    Quiet (Daemon.rplStatWithPath env nodeId path) := by
  apply Quiet.bind (.node nodeId)
  intro found
  apply Quiet.bind (.lift (reads_doStatWithPath found path))
  intro st
  apply Quiet.bind (.lift (reads_layer _))
  intro layer
  apply Quiet.bind (.liftAttempt (reads_overrideMode _ layer path st))
  intro overridden
  apply Quiet.bind (.lift (reads_getStInoWithPath found path))
  intro ino
  exact .gets _

theorem rplStat
    (nodeId : NodeId) :
    Quiet (Daemon.rplStat env nodeId) := by
  apply Quiet.bind (.node nodeId)
  intro found
  split
  · exact .rplStatWithPath nodeId _
  · exact .bind (.gets _) fun path => .rplStatWithPath nodeId path

/-! ## Loading -/

theorem loadNewEntry
    (parentId : NodeId)
    (path : Path)
    (layerIdx : Nat)
    (entry : DirEntry) :
    Quiet (Daemon.loadNewEntry env parentId path layerIdx entry) := by
  apply Quiet.bind (.lift (reads_isWhFile _ _ _))
  intro whited
  split
  · exact .modifyNode parentId _
  · split
    · apply Quiet.bind (.gets _)
      intro parent
      exact .runIf (.modifyNode parentId _)
    · apply Quiet.bind (.lift (reads_isDeviceEntry _ _ _))
      intro device
      split
      · exact .modifyNode parentId _
      · apply Quiet.bind (.lift (reads_entryAttr _ _ _))
        intro found
        exact .bind (.insertChildNode parentId _) fun _ => .pure ()

theorem loadEntry
    (parentId : NodeId)
    (path : Path)
    (layerIdx : Nat)
    (entry : DirEntry) :
    Quiet (Daemon.loadEntry env parentId path layerIdx entry) := by
  unfold Daemon.loadEntry
  split
  · exact .pure ()
  · apply Quiet.bind (.gets _)
    intro parent
    split
    · exact .modifyNode _ _
    · split
      · exact .pure ()
      · exact .loadNewEntry parentId path layerIdx entry

theorem loadStream
    (parentId : NodeId)
    (path : Path)
    (layerIdx : Nat)
    (stop : Bool) :
    Quiet (Daemon.loadStream env parentId path layerIdx stop) := by
  apply Quiet.bind (.liftQuery _)
  intro opened
  split
  · exact .pure stop
  · apply Quiet.bind (.each (.loadEntry parentId path layerIdx) _)
    intro _
    apply Quiet.bind (.liftAttempt (reads_isDirectoryOpaque _ _))
    intro cut
    exact .pure _

theorem loadLayer
    (parentId : NodeId)
    (path : Path)
    (lastLayerStop : Option Nat)
    (layerIdx : Nat) :
    Quiet (Daemon.loadLayer env parentId path lastLayerStop layerIdx) := by
  apply Quiet.bind (.liftQuery _)
  intro outcome
  split
  · split
    · exact .map (.loadStream parentId path layerIdx _)
    · exact .pure none
  · exact .pure _
  · exact .pure _
  · exact .pure none

theorem loadLayers
    (parentId : NodeId)
    (path : Path)
    (lastLayerStop : Option Nat)
    (layers : List Nat) :
    Quiet (Daemon.loadLayers env parentId path lastLayerStop layers) := by
  induction layers with
  | nil =>
      exact .pure ()
  | cons layerIdx rest inductionHypothesis =>
      apply Quiet.bind (.loadLayer parentId path lastLayerStop layerIdx)
      intro outcome
      split
      · exact inductionHypothesis
      · exact .pure ()

theorem loadDirImpl
    (parentId : NodeId)
    (path : Path)
    (lastLayerStop : Option Nat) :
    Quiet (Daemon.loadDirImpl env parentId path lastLayerStop) :=
  .bind (.loadLayers parentId path lastLayerStop _) fun _ =>
    .modifyNode parentId _

theorem ensureRootLoaded :
    Quiet (Daemon.ensureRootLoaded env) := by
  apply Quiet.bind (.gets _)
  intro root
  split
  · exact .pure ()
  · exact .loadDirImpl rootId [] none

theorem reloadDir
    (nodeId : NodeId) :
    Quiet (Daemon.reloadDir env nodeId) := by
  apply Quiet.bind (.gets _)
  intro found
  split
  · exact .pure true
  · split
    · exact .pure true
    · apply Quiet.bind (.gets _)
      intro path
      exact .bind (.loadDirImpl nodeId path _) fun _ => .pure true

/-! ## Lazy lookup -/

theorem whitedOut
    (parentId : NodeId)
    (name : Name) :
    Quiet (Daemon.whitedOut parentId name) :=
  .bind (.modifyNode parentId _) fun _ => .pure _

theorem lazyMissing
    (parentId : NodeId)
    (parentPath : Path)
    (name : Name)
    (layerIdx : Nat)
    (stop : Bool) :
    Quiet (Daemon.lazyMissing parentId parentPath name layerIdx stop) := by
  apply Quiet.bind (.lift (reads_isWhFile _ _ _))
  intro whited
  split
  · exact .whitedOut parentId name
  · exact .pure _

theorem lazyFound
    (parentId : NodeId)
    (parentPath : Path)
    (name : Name)
    (layerIdx : Nat)
    (stop : Bool)
    (st : Stat) :
    Quiet (Daemon.lazyFound env parentId parentPath name layerIdx stop st) := by
  apply Quiet.bind (.lift (reads_isWhFile _ _ _))
  intro whited
  split
  · exact .whitedOut parentId name
  · split
    · exact .whitedOut parentId _
    · split
      · exact .whitedOut parentId name
      · split
        · apply Quiet.bind (.liftAttempt (reads_isDirectoryOpaque _ _))
          intro cut
          exact .pure _
        · exact .pure _

theorem lazyLayer
    (parentId : NodeId)
    (parentPath : Path)
    (name : Name)
    (lastLayerIdx layerIdx : Nat)
    (found : Option OvlNode) :
    Quiet (Daemon.lazyLayer env parentId parentPath name lastLayerIdx layerIdx
      found) := by
  apply Quiet.bind (.liftQuery _)
  intro outcome
  cases found with
  | some child =>
      split <;> exact .pure _
  | none =>
      split
      · exact .lazyMissing parentId parentPath name layerIdx _
      · exact .lazyMissing parentId parentPath name layerIdx _
      · exact .lazyMissing parentId parentPath name layerIdx _
      · exact .pure _
      · exact .lazyFound parentId parentPath name layerIdx _ _

theorem lazyLayers
    (parentId : NodeId)
    (parentPath : Path)
    (name : Name)
    (lastLayerIdx : Nat)
    (layers : List Nat)
    (found : Option OvlNode) :
    Quiet (Daemon.lazyLayers env parentId parentPath name lastLayerIdx layers
      found) := by
  induction layers generalizing found with
  | nil =>
      exact .pure found
  | cons layerIdx rest inductionHypothesis =>
      apply Quiet.bind (.lazyLayer parentId parentPath name lastLayerIdx
        layerIdx found)
      intro step
      split
      · exact .pure none
      · exact .pure _
      · exact inductionHypothesis _

theorem adoptChild
    (parentId : NodeId)
    (child : OvlNode) :
    Quiet (Daemon.adoptChild env parentId child) := by
  apply Quiet.bind (.insertNode child)
  intro childId
  apply Quiet.bind
  · exact .runIf (.bind (.register _ _ _ _) fun _ => .pure ())
  · intro _
    exact .bind (.modifyNode parentId _) fun _ => .pure _

theorem doLookupFile
    (parentIno : UInt64)
    (name : Name) :
    Quiet (Daemon.doLookupFile env parentIno name) := by
  have lazily :
      ∀ parentId, Quiet (Daemon.doLazyLookup env parentId name) := by
    intro parentId
    apply Quiet.bind (.gets _)
    intro found
    split
    · exact .pure none
    · apply Quiet.bind (.gets _)
      intro path
      apply Quiet.bind (.lazyLayers parentId path name _ _ none)
      intro child
      split
      · exact .pure none
      · exact .adoptChild parentId _
  apply Quiet.bind (.gets _)
  intro resolved
  split
  · exact .pure none
  · apply Quiet.bind (.gets _)
    intro found
    split
    · exact .pure none
    · split
      · exact .pure _
      · split
        · exact .pure none
        · exact lazily _

/-! ## Listing -/

theorem selfEntry
    (label : Name)
    (nodeId : NodeId)
    (node : OvlNode)
    (path : Path) :
    Quiet (Daemon.selfEntry env label nodeId node path) := by
  apply Quiet.bind (.lift (reads_getStInoWithPath node path))
  intro ino
  exact .bind (.attempt (.rplStatWithPath nodeId path)) fun _ => .pure _

theorem childEntry
    (dirPath : Path)
    (entry : Name × NodeId) :
    Quiet (Daemon.childEntry env dirPath entry) := by
  apply Quiet.bind (.gets _)
  intro found
  split
  · exact .pure none
  · split
    · exact .pure none
    · apply Quiet.bind (.lift (reads_getStInoWithPath _ _))
      intro ino
      exact .bind (.attempt (.rplStatWithPath entry.2 _)) fun _ => .pure _

theorem childEntries
    (dirPath : Path)
    (entries : List (Name × NodeId)) :
    Quiet (Daemon.childEntries env dirPath entries) := by
  induction entries with
  | nil =>
      exact .pure []
  | cons entry rest inductionHypothesis =>
      apply Quiet.bind (.childEntry dirPath entry)
      intro first
      exact .bind inductionHypothesis fun others => .pure _

theorem parentEntry
    (node : OvlNode)
    (self : HandleEntry) :
    Quiet (Daemon.parentEntry env node self) := by
  unfold Daemon.parentEntry
  simp only
  split
  · exact .pure _
  · apply Quiet.bind (.gets _)
    intro found
    split
    · exact .pure _
    · exact .bind (.gets _) fun path => .selfEntry _ _ _ path

theorem buildDirEntries
    (nodeId : NodeId) :
    Quiet (Daemon.buildDirEntries env nodeId) := by
  apply Quiet.bind (.reloadDir nodeId)
  intro _
  apply Quiet.bind (.gets _)
  intro found
  split
  · exact .pure []
  · apply Quiet.bind (.gets _)
    intro path
    apply Quiet.bind (.selfEntry _ nodeId _ path)
    intro self
    apply Quiet.bind (.parentEntry _ self)
    intro parent
    exact .bind (.childEntries path _) fun rest => .pure _

/-! ## Parts of requests -/

theorem isPresent
    (found : Option NodeId) :
    Quiet (Daemon.isPresent found) := by
  unfold Daemon.isPresent
  split
  · exact .pure false
  · exact .gets _

theorem presentOr
    (found : Option NodeId)
    (errno : Errno) :
    Quiet (Daemon.presentOr found errno) :=
  .bind (.orFail _ _) fun _ => .bind (.gets _) fun _ =>
    .bind (.check _ _) fun _ => .pure _

theorem resolveNode
    (ino : UInt64) :
    Quiet (Daemon.resolveNode ino) :=
  .bind (.gets _) fun found => .presentOr found _

theorem checkFree
    (parent : UInt64)
    (name : Name) :
    Quiet (Daemon.checkFree env parent name) :=
  .bind (.doLookupFile parent name) fun found =>
    .bind (.isPresent found) fun _ => .check _ _

theorem createAndRegisterChild
    (parentId : NodeId)
    (name : Name)
    (st : Stat)
    (isDir : Bool) :
    Quiet (Daemon.createAndRegisterChild env parentId name st isDir) := by
  apply Quiet.bind (.insertNode _)
  intro childId
  apply Quiet.bind (.register childId _ _ _)
  intro registered
  apply Quiet.bind (.orFail _ _)
  intro fuseIno
  apply Quiet.bind (.incLookup _)
  intro _
  apply Quiet.bind (.gets _)
  intro parent
  apply Quiet.bind (.check _ _)
  intro _
  exact .bind (.modifyNode parentId _) fun _ => .pure _

theorem statAndRegisterChild
    (parentId : NodeId)
    (name : Name)
    (path : Path) :
    Quiet (Daemon.statAndRegisterChild env parentId name path) := by
  apply Quiet.bind (.lift (.query _))
  intro st
  exact .bind (.createAndRegisterChild parentId name st _) fun _ => .pure _

theorem checkEmpty
    (nodeId : NodeId) :
    Quiet (Daemon.checkEmpty env nodeId) :=
  .bind (.reloadDir nodeId) fun _ => .bind (.gets _) fun _ => .check _ _

theorem checkMovable
    (srcId : NodeId) :
    Quiet (Daemon.checkMovable env srcId) := by
  apply Quiet.bind (.node srcId)
  intro src
  apply Quiet.runIf
  apply Quiet.bind (.reloadDir srcId)
  intro _
  exact .bind (.node srcId) fun _ => .check _ _

theorem createsOverWhiteout
    (parent : UInt64)
    (name : Name) :
    Quiet (Daemon.createsOverWhiteout env parent name) := by
  apply Quiet.bind (.doLookupFile parent name)
  intro found
  apply Quiet.bind (.isPresent found)
  intro present
  apply Quiet.bind (.check _ _)
  intro _
  split
  · exact .pure true
  · exact .gets _

theorem takeChild
    (parentId : NodeId)
    (name : Name) :
    Quiet (Daemon.takeChild parentId name) :=
  .bind (.gets _) fun _ => .bind (.modifyNode parentId _) fun _ => .pure _

theorem exchangeNodes
    (sparentId dparentId : NodeId)
    (name newname : Name) :
    Quiet (Daemon.exchangeNodes sparentId dparentId name newname) := by
  apply Quiet.bind (.takeChild sparentId name)
  intro srcChild
  apply Quiet.bind (.takeChild dparentId newname)
  intro dstChild
  apply Quiet.bind (.orFail _ _)
  intro sid
  apply Quiet.bind (.orFail _ _)
  intro did
  apply Quiet.bind (.gets _)
  intro foundSrc
  apply Quiet.bind (.orFail _ _)
  intro snode
  apply Quiet.bind (.gets _)
  intro foundDst
  apply Quiet.bind (.orFail _ _)
  intro dnode
  apply Quiet.bind (.modifyNode sid _)
  intro _
  apply Quiet.bind (.modifyNode did _)
  intro _
  exact .bind (.modifyNode dparentId _) fun _ => .modifyNode sparentId _

theorem moveNode
    (sparentId dparentId : NodeId)
    (name newname : Name) :
    Quiet (Daemon.moveNode sparentId dparentId name newname) := by
  apply Quiet.bind (.takeChild sparentId name)
  intro child
  split
  · exact .pure ()
  · exact .bind (.modifyNode _ _) fun _ => .modifyNode dparentId _

theorem getFile
    (fh : Nat) :
    Quiet (Daemon.getFile fh) :=
  .bind (.gets _) fun _ => .orFail _ _

/-! ## Requests -/

theorem lookupFast
    (parent : UInt64)
    (name : Name) :
    Quiet (Daemon.lookupFast env parent name) := by
  apply Quiet.bind (.gets _)
  intro resolved
  split
  · exact .pure none
  · apply Quiet.bind (.gets _)
    intro found
    split
    · exact .pure none
    · apply Quiet.bind (.check _ _)
      intro _
      split
      · exact .pure none
      · apply Quiet.bind (.node _)
        intro child
        apply Quiet.bind (.check _ _)
        intro _
        apply Quiet.bind (.gets _)
        intro entry
        split
        · exact .pure none
        · split
          · apply Quiet.bind (.gets _)
            intro path
            apply Quiet.bind (.attempt (.rplStatWithPath _ path))
            intro outcome
            split
            · exact .pure none
            · exact .bind (.incLookup _) fun _ => .pure _
          · exact .pure none

theorem lookupSlow
    (parent : UInt64)
    (name : Name) :
    Quiet (Daemon.lookupSlow env parent name) := by
  have number :
      ∀ nodeId found mode, Quiet (Daemon.lookupIno env nodeId found mode) := by
    intro nodeId found mode
    unfold Daemon.lookupIno
    split
    · apply Quiet.bind (.register nodeId _ _ mode)
      intro registered
      apply Quiet.bind (.orFail _ _)
      intro fuseIno
      exact .bind (.incLookup _) fun _ => .pure _
    · exact .pure _
  apply Quiet.bind (.doLookupFile parent name)
  intro found
  apply Quiet.bind (.presentOr found _)
  intro nodeId
  apply Quiet.bind (.node nodeId)
  intro before
  apply Quiet.bind
  · exact .runIf (.bind (.reloadDir nodeId) fun _ => .check _ _)
  · intro _
    apply Quiet.bind (.rplStat nodeId)
    intro st
    apply Quiet.bind (.node nodeId)
    intro later
    exact .bind (number nodeId later _) fun _ => .pure _

theorem lookup
    (parent : UInt64)
    (name : Name) :
    Quiet (Daemon.lookup env parent name) := by
  apply Quiet.bind (.check _ _)
  intro _
  apply Quiet.bind (.lookupFast parent name)
  intro fast
  split
  · exact .pure _
  · exact .lookupSlow parent name

theorem forget
    (ino nlookup : UInt64) :
    Quiet (Daemon.forget ino nlookup) :=
  fun _ _ holds => holds

theorem getattr
    (ino : UInt64) :
    Quiet (Daemon.getattr env ino) := by
  unfold Daemon.getattr
  split
  · exact .bind .ensureRootLoaded fun _ => .map (.rplStat rootId)
  · exact .bind (.resolveNode ino) fun nodeId => .map (.rplStat nodeId)

theorem readlink
    (ino : UInt64) :
    Quiet (Daemon.readlink env ino) := by
  apply Quiet.bind (.gets _)
  intro resolved
  apply Quiet.bind (.orFail _ _)
  intro nodeId
  apply Quiet.bind (.gets _)
  intro path
  apply Quiet.bind (.node nodeId)
  intro found
  apply Quiet.bind (.lift (reads_layer _))
  intro _
  exact .map (.lift (.query _))

theorem read
    (fh offset size : Nat) :
    Quiet (Daemon.read fh offset size) :=
  .bind (.getFile fh) fun fd => .map (.lift (reads_readFile fd _ _))

theorem fsync
    (fh : Nat) :
    Quiet (Daemon.fsync env fh) :=
  .bind (.check _ _) fun _ => .bind (.getFile fh) fun _ =>
    .bind (.lift (.query _)) fun _ => .pure _

theorem getxattrOf
    (ino : UInt64)
    (attr : Name)
    (size : Nat) :
    Quiet (Daemon.getxattrOf env ino attr size) := by
  apply Quiet.bind (.check _ _)
  intro _
  apply Quiet.bind (.check _ _)
  intro _
  apply Quiet.bind (.resolveNode ino)
  intro nodeId
  apply Quiet.bind (.gets _)
  intro path
  apply Quiet.bind (.node nodeId)
  intro found
  apply Quiet.bind (.lift (reads_layer _))
  intro layer
  apply Quiet.bind (.orFail _ _)
  intro encoded
  exact .bind (.lift (.query _)) fun value => .pure _

theorem listxattrOf
    (ino : UInt64)
    (size : Nat) :
    Quiet (Daemon.listxattrOf env ino size) := by
  apply Quiet.bind (.check _ _)
  intro _
  apply Quiet.bind (.resolveNode ino)
  intro nodeId
  apply Quiet.bind (.gets _)
  intro path
  apply Quiet.bind (.node nodeId)
  intro found
  apply Quiet.bind (.lift (reads_layer _))
  intro layer
  apply Quiet.bind (.lift (.query _))
  intro names
  simp only
  split
  · exact .pure _
  · exact .bind (.check _ _) fun _ => .pure _

theorem opendirOf
    (ino : UInt64) :
    Quiet (Daemon.opendirOf env ino) := by
  apply Quiet.bind (.runIf .ensureRootLoaded)
  intro _
  apply Quiet.bind (.gets _)
  intro resolved
  apply Quiet.bind (.orFail _ _)
  intro nodeId
  apply Quiet.bind (.gets _)
  intro found
  apply Quiet.bind (.check _ _)
  intro _
  apply Quiet.bind (.reloadDir nodeId)
  intro _
  apply Quiet.bind (.buildDirEntries nodeId)
  intro entries kept sys holds
  exact holds

theorem handleEntries
    (fh offset : Nat) :
    Quiet (Daemon.handleEntries fh offset) :=
  .bind (.gets _) fun _ => .bind (.orFail _ _) fun _ => .pure _

theorem readdir
    (fh offset fits : Nat) :
    Quiet (Daemon.readdir fh offset fits) :=
  .bind (.handleEntries fh offset) fun _ => .pure _

theorem plusEntries
    (fits : Nat)
    (entries : List (HandleEntry × Nat)) :
    Quiet (Daemon.plusEntries env fits entries) := by
  have number : ∀ entry, Quiet (Daemon.plusIno env entry) := by
    intro entry
    unfold Daemon.plusIno
    split
    · exact .pure _
    · apply Quiet.bind (.gets _)
      intro found
      split
      · exact .pure _
      · apply Quiet.bind (.register _ _ _ _)
        intro registered
        split
        · exact .pure _
        · exact .bind (.incLookup _) fun _ => .pure _
  induction entries generalizing fits with
  | nil =>
      cases fits <;> exact .pure []
  | cons entry rest inductionHypothesis =>
      cases fits with
      | zero =>
          exact .bind (number entry.1) fun _ => .pure []
      | succ fits =>
          apply Quiet.bind (number entry.1)
          intro fuseIno
          exact .bind (inductionHypothesis fits) fun others => .pure _

theorem readdirplus
    (fh offset fits : Nat) :
    Quiet (Daemon.readdirplus env fh offset fits) :=
  .bind (.handleEntries fh offset) fun entries =>
    .map (.plusEntries fits entries)

theorem releasedir
    (fh : Nat) :
    Quiet (Daemon.releasedir fh) :=
  fun _ _ holds => holds

theorem refreshDir
    (nodeId : NodeId) :
    Quiet (Daemon.refreshDir env nodeId) := by
  apply Quiet.bind (.node nodeId)
  intro found
  apply Quiet.bind (.check _ _)
  intro _
  apply Quiet.bind (.gets _)
  intro path
  apply Quiet.bind (.modifyNode nodeId _)
  intro _
  exact .bind (.loadDirImpl nodeId path _) fun _ => .pure _

/-- The flag commands change what a copy-up changes. -/
theorem ioctlFlags
    {kept : Disk → FMap Nat Fd → Nat → Prop}
    {nodeId : NodeId}
    (copies :
      Keeps (fun sys => kept sys.os.disk sys.openFiles sys.nextFh)
        (Daemon.getNodeUp env nodeId))
    (isSet : Bool)
    (fh : Nat) :
    Keeps (fun sys => kept sys.os.disk sys.openFiles sys.nextFh)
      (Daemon.ioctlFlags env nodeId isSet fh) := by
  refine Keeps.bind (Keeps.runIf copies) fun _ => Quiet.bind (.gets _) ?_ kept
  intro path
  apply Quiet.bind (.node nodeId)
  intro found
  apply Quiet.bind (.gets _)
  intro handle
  split
  · exact .bind (.lift (.query _)) fun _ => .pure _
  · apply Quiet.bind (.lift (reads_layer _))
    intro layer
    apply Quiet.bind (.lift (reads_safeOpenat rfl rfl _ _ _))
    intro fd
    exact .bind (.lift (.query _)) fun _ => .pure _

end Quiet

end Daemon

end FuseOverlay
