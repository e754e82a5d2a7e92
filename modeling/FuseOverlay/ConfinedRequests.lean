import FuseOverlay.ConfinedCalls
import FuseOverlay.Sections
import FuseOverlay.TreeRequests

namespace FuseOverlay

/-!
# Requests that stay within a guard

A handler changes the trees only after `get_node_up` succeeded, which needs an
upper layer, and through open files.  With the open files under control every
request, and so every run of requests, keeps the trees within the guard.
-/

open Act (Keeps Holds Gives Yields)

/-- The trees are spared, and something holds of the open files. -/
def Sys.Confined
    (guard : Guard)
    (start : Disk)
    (files : FMap Nat Fd → Nat → Prop)
    (sys : Sys) : Prop :=
  Disk.Spared guard start sys.os.disk ∧ files sys.openFiles sys.nextFh

/-- A property of the open files that new tame ones keep. -/
structure FilesRule
    (guard : Guard)
    (files : FMap Nat Fd → Nat → Prop) : Prop where
  tame :
    ∀ {table next fh fd}, files table next → table.get? fh = some fd →
      guard.Tame fd
  opens :
    ∀ {table next fd}, files table next → guard.Tame fd →
      files (table.set next fd) (next + 1)

/-- The handle that `setattr` names lets it change attributes. -/
def SetAttr.Marks
    (guard : Guard)
    (change : SetAttr)
    (table : FMap Nat Fd) : Prop :=
  ∀ fd, change.fh.bind table.get? = some fd → guard.Marks fd

/-- The node is on the upper layer. -/
def Sys.AtUpper
    (nodeId : NodeId)
    (sys : Sys) : Prop :=
  ∀ found, sys.nodes.get? nodeId = some found → found.layerIdx = 0

namespace Daemon

open Syscall Whiteout

variable {env : Env} {guard : Guard} {start : Disk}
  {files : FMap Nat Fd → Nat → Prop}

/-! ## Looking and single calls -/

theorem Quiet.confined
    {α : Type}
    {act : Daemon α}
    (quiet : Quiet act) :
    Keeps (Sys.Confined guard start files) act :=
  quiet fun disk table next =>
    Disk.Spared guard start disk ∧ files table next

theorem confined_lift
    {α : Type}
    {act : Syscall α}
    (confined : Keeps (Os.Spared guard start) act) :
    Keeps (Sys.Confined guard start files) (liftM act : Daemon α) :=
  fun sys holds => ⟨confined sys.os holds.1, holds.2⟩

theorem yields_lift
    {α : Type}
    {act : Syscall α}
    {fact : α → Prop}
    (yields : Yields (Os.Spared guard start) act fact) :
    Yields (Sys.Confined guard start files) (liftM act : Daemon α) fact :=
  fun sys holds =>
    ⟨⟨(yields sys.os holds.1).1, holds.2⟩, (yields sys.os holds.1).2⟩

/-- A layer that is there. -/
theorem yields_layer
    (layerIdx : Nat) :
    Yields (Sys.Confined guard start files)
      (liftM (layer env layerIdx) : Daemon Layer)
      fun found => env.layers[layerIdx]? = some found :=
  yields_lift (Yields.orFail fun _ stored => stored)

/-! ## Copy-up -/

theorem confined_createOneDirectory
    (up : guard.Upper)
    (nodeId : NodeId) :
    Keeps (Sys.Confined guard start files)
      (createOneDirectory env nodeId) := by
  refine Keeps.bind (Keeps.gets _) fun path => ?_
  refine Keeps.bind (Quiet.node nodeId).confined fun found => ?_
  refine Keeps.bind (confined_lift (confined_copyDirectory up _ _))
    fun _ => ?_
  refine Keeps.bind (Quiet.modifyNode nodeId _).confined fun _ => ?_
  split
  · exact Keeps.pure ()
  · refine Keeps.bind (Keeps.gets _) fun parentPath => ?_
    refine Keeps.bind (confined_lift (Keeps.attempt ?_)) fun _ =>
      Keeps.pure ()
    exact @confined_deleteWhiteout guard start upperRoot none up.layer
      (fun _ same => by cases same) _ _

theorem confined_createNodeDirectory
    (up : guard.Upper)
    (fuel : Nat)
    (nodeId : NodeId) :
    Keeps (Sys.Confined guard start files)
      (createNodeDirectory env fuel nodeId) := by
  induction fuel generalizing nodeId with
  | zero =>
      exact Keeps.fail _
  | succ fuel inductionHypothesis =>
      refine Keeps.bind (Quiet.node nodeId).confined fun found => ?_
      split
      · exact Keeps.pure ()
      · split
        · exact confined_createOneDirectory up nodeId
        · next parentId _ =>
            refine Keeps.bind (Keeps.gets _) fun parent => ?_
            refine Keeps.bind (Keeps.runIf (inductionHypothesis parentId))
              fun _ => ?_
            exact confined_createOneDirectory up nodeId

theorem confined_createNodeDirectoryOf
    (up : guard.Upper)
    (nodeId : NodeId) :
    Keeps (Sys.Confined guard start files)
      (createNodeDirectoryOf env nodeId) :=
  Keeps.bind (Keeps.gets _) fun size =>
    confined_createNodeDirectory up (size + 1) nodeId

theorem confined_copyup
    (up : guard.Upper)
    (nodeId : NodeId) :
    Keeps (Sys.Confined guard start files) (copyup env nodeId) := by
  have marked :
      ∀ {act : Syscall Unit}, Keeps (Os.Spared guard start) act →
        Keeps (Sys.Confined guard start files) (do
          liftM act
          markUpper nodeId) :=
    fun confined => Keeps.bind (confined_lift confined) fun _ =>
      (Quiet.modifyNode nodeId _).confined
  refine Keeps.bind (Keeps.check _ _) fun _ => ?_
  refine Keeps.bind (Keeps.gets _) fun path => ?_
  refine Keeps.bind (Quiet.node nodeId).confined fun found => ?_
  refine Keeps.bind (yields_layer _).keeps fun _ => ?_
  refine Keeps.bind (confined_lift (Reads.query _).confined) fun st => ?_
  refine Keeps.bind (?_ : Keeps _ (copyupParent env found)) fun _ => ?_
  · unfold copyupParent
    split
    · exact Keeps.pure ()
    · exact confined_createNodeDirectoryOf up _
  · split
    · exact confined_createNodeDirectoryOf up nodeId
    · exact marked (confined_copySymlink up _ _ _)
    · exact marked (confined_copySpecial up _ _ _)
    · exact marked (confined_copySpecial up _ _ _)
    · exact marked (confined_copySpecial up _ _ _)
    · exact marked (confined_copySpecial up _ _ _)
    · exact marked (confined_copyRegular up _ _ _)
    · exact marked (confined_copyRegular up _ _ _)

/-- A node comes up only to an upper layer. -/
theorem yields_hasUpper
    (fits : guard.Fits env)
    (nodeId : NodeId) :
    Yields (Sys.Confined guard start files) (getNodeUp env nodeId)
      fun _ => hasUpper env = true := by
  have isUpper :
      Yields (Sys.Confined guard start files)
        (Act.check (hasUpper env) Errno.EROFS) fun _ => hasUpper env = true :=
    Yields.check id
  apply Yields.bind isUpper
  intro _ present
  refine Yields.ofKeeps ?_ fun _ => present
  refine Keeps.bind (Quiet.node nodeId).confined fun found => ?_
  split
  · exact Keeps.pure ()
  · exact confined_copyup (fits.upper present) nodeId

theorem yields_getNodeUp
    (fits : guard.Fits env)
    (nodeId : NodeId) :
    Yields (Sys.Confined guard start files) (getNodeUp env nodeId)
      fun _ => guard.Upper :=
  (yields_hasUpper fits nodeId).imp fun _ present => fits.upper present

/-- The end of a sequence decides what it gives. -/
theorem gives_after
    {α β : Type}
    {first : Daemon α}
    {next : α → Daemon β}
    {post : β → Sys → Prop}
    (nextGives : ∀ value, Gives (fun _ => True) (next value) post) :
    Gives (fun _ => True) (first >>= next) post :=
  Gives.bind (fun _ _ _ _ _ => trivial :
    Gives (fun _ => True) first fun _ _ => True) nextGives

theorem gives_markUpper
    (nodeId : NodeId) :
    Gives (fun _ => True) (markUpper nodeId)
      fun _ => Sys.AtUpper nodeId := by
  intro sys value later _ returned found stored
  cases returned
  have marked :
      (sys.nodes.modify nodeId fun node => { node with layerIdx := 0 }).get?
        nodeId = some found := stored
  rw [NodeArena.get?_modify, if_pos rfl] at marked
  obtain ⟨node, -, same⟩ := Option.map_eq_some_iff.mp marked
  rw [← same]

theorem gives_createNodeDirectory
    (fuel : Nat)
    (nodeId : NodeId) :
    Gives (fun _ => True) (createNodeDirectory env fuel nodeId)
      fun _ => Sys.AtUpper nodeId := by
  have one :
      Gives (fun _ => True) (createOneDirectory env nodeId)
        fun _ => Sys.AtUpper nodeId := by
    apply gives_after
    intro path
    apply gives_after
    intro found
    apply gives_after
    intro _
    refine Gives.bind (gives_markUpper nodeId) fun _ => ?_
    split
    · exact Gives.pure fun _ upper => upper
    · refine Gives.bind (Gives.ofKeeps (Keeps.gets _)) fun path => ?_
      exact Gives.bind (Gives.ofKeeps fun _ upper => upper)
        fun _ => Gives.pure fun _ upper => upper
  cases fuel with
  | zero =>
      exact Gives.fail
  | succ fuel =>
      intro sys value later _ returned
      unfold createNodeDirectory at returned
      obtain ⟨found, middle, read, rest⟩ :=
        Act.bind_returns (congrArg Prod.fst returned)
      rw [rest] at returned
      obtain ⟨stored, rfl⟩ := node_returns read
      split at returned
      · next isUp =>
          cases returned
          simp only [Bool.and_eq_true, decide_eq_true_eq] at isUp
          intro node storedNode
          cases stored.symm.trans storedNode
          exact isUp.1
      · cases above : found.parent with
        | none =>
            rw [above] at returned
            exact one _ _ _ trivial returned
        | some parentId =>
            rw [above] at returned
            exact gives_after (fun parent => gives_after fun _ => one)
              _ _ _ trivial returned

/-- A node that came up is on the upper layer. -/
theorem gives_getNodeUp
    (nodeId : NodeId) :
    Gives (fun _ => True) (getNodeUp env nodeId)
      fun _ => Sys.AtUpper nodeId := by
  have directory :
      Gives (fun _ => True) (createNodeDirectoryOf env nodeId)
        fun _ => Sys.AtUpper nodeId :=
    gives_after fun size => gives_createNodeDirectory (size + 1) nodeId
  have copies :
      Gives (fun _ => True) (copyup env nodeId)
        fun _ => Sys.AtUpper nodeId := by
    apply gives_after
    intro _
    apply gives_after
    intro path
    apply gives_after
    intro found
    apply gives_after
    intro _
    apply gives_after
    intro st
    apply gives_after
    intro _
    split
    · exact directory
    · exact gives_after fun _ => gives_markUpper nodeId
    · exact gives_after fun _ => gives_markUpper nodeId
    · exact gives_after fun _ => gives_markUpper nodeId
    · exact gives_after fun _ => gives_markUpper nodeId
    · exact gives_after fun _ => gives_markUpper nodeId
    · exact gives_after fun _ => gives_markUpper nodeId
    · exact gives_after fun _ => gives_markUpper nodeId
  apply gives_after
  intro _ sys value later _ returned
  obtain ⟨found, middle, read, rest⟩ :=
    Act.bind_returns (congrArg Prod.fst returned)
  rw [rest] at returned
  obtain ⟨stored, rfl⟩ := node_returns read
  split at returned
  · next isUp =>
      cases returned
      intro node storedNode
      cases stored.symm.trans storedNode
      exact isUp
  · exact copies _ _ _ trivial returned

/-- What `get_node_up` leaves when it succeeds. -/
theorem holds_getNodeUp
    (fits : guard.Fits env)
    (nodeId : NodeId) :
    Holds (Sys.Confined guard start files) (getNodeUp env nodeId)
      fun outcome sys => Sys.Confined guard start files sys ∧
        ∀ value, outcome = .ok value →
          guard.Upper ∧ sys.AtUpper nodeId := by
  intro sys confined
  obtain ⟨keeps, up⟩ := yields_getNodeUp fits nodeId sys confined
  refine ⟨keeps, fun value returned => ⟨up value returned, ?_⟩⟩
  exact gives_getNodeUp nodeId sys value _ trivial (Prod.ext returned rfl)

/-! ## Creating -/

theorem yields_prepareCreateParent
    (fits : guard.Fits env)
    (parent : UInt64) :
    Yields (Sys.Confined guard start files) (prepareCreateParent env parent)
      fun _ => guard.Upper := by
  apply Yields.after (Keeps.gets _)
  intro resolved
  apply Yields.after (Keeps.orFail _ _)
  intro pnodeId
  apply Yields.bind (yields_getNodeUp fits pnodeId)
  intro _ up
  apply Yields.after (Keeps.gets _)
  intro path
  exact Yields.pure up

theorem confined_inheritAcl
    {target : Fd}
    (marks : guard.Marks target)
    (parentId : NodeId) :
    Keeps (Sys.Confined guard start files)
      (inheritAcl env parentId target) := by
  unfold inheritAcl
  split
  · exact Keeps.pure ()
  · refine Keeps.bind (Keeps.gets _) fun path => ?_
    refine Keeps.bind (Keeps.gets _) fun found => ?_
    split
    · exact Keeps.pure ()
    · split
      · exact Keeps.pure ()
      · refine Keeps.bind
          (confined_lift (Keeps.attempt (Reads.query _).confined))
          fun value => ?_
        split
        · exact Keeps.pure ()
        · exact Keeps.pure ()
        · exact Keeps.bind (confined_lift
            (Keeps.attempt (confined_fsetxattr marks _ _))) fun _ =>
              Keeps.pure ()

theorem confined_inheritNewAcl
    (up : guard.Upper)
    (parentId : NodeId)
    (wd : Name)
    (flags : OpenFlags) :
    Keeps (Sys.Confined guard start files)
      (inheritNewAcl env parentId wd flags) := by
  have opens :
      Yields (Os.Spared guard start)
        (safeOpenat env workRoot [wd] flags 0) guard.Free :=
    yields_openInside up.work _ _ _
  apply Yields.bindKeeps (yields_lift opens.attempt)
  intro opened free
  split
  · next fd =>
      exact confined_inheritAcl (free fd rfl).marks parentId
  · exact Keeps.pure ()

theorem confined_deleteNewWhiteout
    (up : guard.Upper)
    {dir : Loc}
    (permits : guard.writable dir.root)
    (path : Path)
    (name : Name) :
    Keeps (Sys.Confined guard start files)
      (liftM (deleteWhiteout upperRoot (some dir) path name).attempt :
        Daemon (Except Errno Unit)) := by
  apply confined_lift
  apply Keeps.attempt
  apply @confined_deleteWhiteout guard start upperRoot _ up.layer
  intro found same
  cases same
  exact permits

theorem confined_installNew
    (up : guard.Upper)
    (wd : Name)
    (pnodeId : NodeId)
    (pnodePath : Path)
    (name : Name) :
    Keeps (Sys.Confined guard start files)
      (installNew env wd pnodeId pnodePath name) := by
  apply Yields.bindKeeps (yields_lift (yields_placeNew up wd false _))
  intro place permits
  refine Keeps.bind
    (confined_lift (confined_installFile up permits wd place.2)) fun _ => ?_
  refine Keeps.bind (confined_deleteNewWhiteout up permits _ _) fun _ => ?_
  exact (Quiet.statAndRegisterChild pnodeId name _).confined

theorem confined_mknod
    (fits : guard.Fits env)
    (caller : Caller)
    (parent : UInt64)
    (name : Name)
    (mode : Mode)
    (rdev : UInt32) :
    Keeps (Sys.Confined guard start files)
      (mknod env caller parent name mode rdev) := by
  refine Keeps.bind (confined_lift (reads_checkNamemax name).confined)
    fun _ => ?_
  refine Keeps.bind (Quiet.checkFree parent name).confined fun _ => ?_
  apply Yields.bindKeeps (yields_prepareCreateParent fits parent)
  intro found up
  refine Keeps.bind (confined_lift reads_nextWdName.confined) fun wd => ?_
  refine Keeps.bind (confined_lift (confined_mknodat up.work _ _))
    fun _ => ?_
  refine Keeps.bind (confined_lift (confined_chownNew up caller wd))
    fun _ => ?_
  refine Keeps.bind (confined_inheritNewAcl up _ wd _) fun _ => ?_
  exact confined_installNew up wd _ _ name

theorem confined_mkdir
    (fits : guard.Fits env)
    (caller : Caller)
    (parent : UInt64)
    (name : Name)
    (mode : Mode) :
    Keeps (Sys.Confined guard start files)
      (mkdir env caller parent name mode) := by
  refine Keeps.bind (confined_lift (reads_checkNamemax name).confined)
    fun _ => ?_
  refine Keeps.bind (Quiet.checkFree parent name).confined fun _ => ?_
  apply Yields.bindKeeps (yields_prepareCreateParent fits parent)
  intro found up
  refine Keeps.bind (Quiet.node _).confined fun pnode => ?_
  refine Keeps.bind (confined_lift reads_nextWdName.confined) fun wd => ?_
  refine Keeps.bind (confined_lift (confined_mkdirat up.work _)) fun _ => ?_
  refine Keeps.bind (confined_lift (confined_chownNew up caller wd))
    fun _ => ?_
  refine Keeps.bind (confined_lift (confined_markNewOpaque up wd _))
    fun _ => ?_
  refine Keeps.bind (confined_inheritNewAcl up _ wd _) fun _ => ?_
  apply Yields.bindKeeps (yields_lift (yields_placeNew up wd true _))
  intro place permits
  refine Keeps.bind
    (confined_lift (confined_installNewDir up permits wd place.2))
    fun _ => ?_
  refine Keeps.bind (confined_deleteNewWhiteout up permits _ _) fun _ => ?_
  exact (Quiet.statAndRegisterChild _ name _).confined

theorem confined_symlink
    (fits : guard.Fits env)
    (caller : Caller)
    (parent : UInt64)
    (name : Name)
    (target : List UInt8) :
    Keeps (Sys.Confined guard start files)
      (symlink env caller parent name target) := by
  refine Keeps.bind (confined_lift (reads_checkNamemax name).confined)
    fun _ => ?_
  refine Keeps.bind (Quiet.checkFree parent name).confined fun _ => ?_
  apply Yields.bindKeeps (yields_prepareCreateParent fits parent)
  intro found up
  refine Keeps.bind (confined_lift reads_nextWdName.confined) fun wd => ?_
  refine Keeps.bind (confined_lift (confined_symlinkat up.work target))
    fun _ => ?_
  refine Keeps.bind (confined_lift (confined_chownNew up caller wd))
    fun _ => ?_
  exact confined_installNew up wd _ _ name

theorem confined_link
    (fits : guard.Fits env)
    (ino newparent : UInt64)
    (newname : Name) :
    Keeps (Sys.Confined guard start files)
      (link env ino newparent newname) := by
  refine Keeps.bind (confined_lift (reads_checkNamemax newname).confined)
    fun _ => ?_
  refine Keeps.bind (Keeps.gets _) fun resolved => ?_
  refine Keeps.bind (Keeps.orFail _ _) fun srcId => ?_
  apply Yields.bindKeeps (yields_getNodeUp fits srcId)
  intro _ up
  refine Keeps.bind (Keeps.gets _) fun resolvedParent => ?_
  refine Keeps.bind (Keeps.orFail _ _) fun dparentId => ?_
  refine Keeps.bind (Quiet.checkFree newparent newname).confined fun _ => ?_
  refine Keeps.bind (yields_getNodeUp fits dparentId).keeps fun _ => ?_
  refine Keeps.bind (Keeps.gets _) fun srcPath => ?_
  refine Keeps.bind (Keeps.gets _) fun dparentPath => ?_
  refine Keeps.bind (confined_lift (Keeps.attempt
    (@confined_deleteWhiteout guard start upperRoot none up.layer
      (fun _ same => by cases same) _ _))) fun _ => ?_
  apply Yields.bindKeeps (yields_lift (yields_upperPlace up srcPath))
  intro src srcPermits
  apply Yields.bindKeeps
    (yields_lift (yields_upperPlace up (dparentPath ++ [newname])))
  intro dst dstPermits
  refine Keeps.bind (confined_lift (confined_linkat srcPermits dstPermits))
    fun _ => ?_
  refine Keeps.bind (confined_lift (Reads.query _).confined) fun st => ?_
  refine Keeps.bind
    (Quiet.createAndRegisterChild dparentId newname st false).confined
    fun fuseIno => ?_
  exact Keeps.pure _

theorem confined_create
    (fits : guard.Fits env)
    (rule : FilesRule guard files)
    (caller : Caller)
    (parent : UInt64)
    (name : Name)
    (mode : Mode)
    (flags : OpenFlags) :
    Keeps (Sys.Confined guard start files)
      (create env caller parent name mode flags) := by
  refine Keeps.bind (confined_lift (reads_checkNamemax name).confined)
    fun _ => ?_
  refine Keeps.bind (Quiet.createsOverWhiteout parent name).confined
    fun whited => ?_
  apply Yields.bindKeeps (yields_prepareCreateParent fits parent)
  intro found up
  apply Yields.bindKeeps (yields_lift (yields_openNew up whited _ name _ _))
  intro fd free
  refine Keeps.bind
    (confined_lift (Keeps.attempt (confined_fchown free.marks _ _)))
    fun _ => ?_
  refine Keeps.bind (confined_inheritAcl free.marks _) fun _ => ?_
  refine Keeps.bind (confined_lift (Reads.query _).confined) fun st => ?_
  refine Keeps.bind
    (Quiet.createAndRegisterChild _ name st false).confined
    fun fuseIno => ?_
  refine Keeps.bind (?_ : Keeps _ (allocFh fd)) fun fh => Keeps.pure _
  intro sys confined
  exact ⟨confined.1,
    rule.opens confined.2 ⟨fun _ => free, fun _ => free⟩⟩

/-! ## Removing and renaming -/

theorem confined_removeNode
    (up : guard.Upper)
    (id : NodeId) :
    Keeps (Sys.Confined guard start files) (removeNode id) := by
  have unlinks :
      ∀ name removeDir, Keeps (Sys.Confined guard start files) (do
        let _ ← (Syscall.unlinkat ⟨.workdir, []⟩ name removeDir).attempt
        : Daemon Unit) := by
    intro name removeDir
    refine Keeps.bind (confined_lift (Keeps.attempt ?_)) fun _ =>
      Keeps.pure ()
    exact @confined_unlinkat guard start ⟨.workdir, []⟩ name up.work removeDir
  refine Keeps.bind (Keeps.gets _) fun found => ?_
  split
  · exact Keeps.pure ()
  · refine Keeps.bind (Keeps.modify fun _ confined => confined) fun _ => ?_
    unfold dropNode
    split
    · exact Keeps.pure ()
    · exact Keeps.bind (Keeps.runIf (unlinks _ false)) fun _ =>
        Keeps.runIf (unlinks _ true)

theorem confined_hideNode
    (fits : guard.Fits env)
    (nodeId : NodeId)
    (unlinkSrc : Bool) :
    Keeps (Sys.Confined guard start files)
      (hideNode env nodeId unlinkSrc) := by
  have isUpper :
      Yields (Sys.Confined guard start files)
        (Act.check (hasUpper env) Errno.EROFS) fun _ => guard.Upper :=
    Yields.check fits.upper
  apply Yields.bindKeeps isUpper
  intro _ up
  refine Keeps.bind (confined_lift reads_nextWdName.confined) fun wd => ?_
  refine Keeps.bind (Keeps.runIf ?_) fun _ => ?_
  · refine Keeps.bind (Keeps.gets _) fun path => ?_
    refine Keeps.bind (Quiet.node nodeId).confined fun found => ?_
    refine Keeps.bind (Keeps.gets _) fun whited => ?_
    refine Keeps.bind (Keeps.gets _) fun parentPath => ?_
    exact confined_lift (confined_hideOnDisk up _ _ _ _ _)
  · refine Keeps.bind (Quiet.node nodeId).confined fun found => ?_
    refine Keeps.bind (Quiet.modifyNode nodeId _).confined fun _ => ?_
    split
    · exact Keeps.pure ()
    · exact (Quiet.modifyNode _ _).confined

theorem confined_doRm
    (fits : guard.Fits env)
    (parent : UInt64)
    (name : Name)
    (isDir : Bool) :
    Keeps (Sys.Confined guard start files) (doRm env parent name isDir) := by
  refine Keeps.bind (Quiet.doLookupFile parent name).confined
    fun found => ?_
  refine Keeps.bind (Quiet.presentOr found _).confined fun nodeId => ?_
  refine Keeps.bind (Quiet.runIf (.checkEmpty nodeId)).confined fun _ => ?_
  apply Yields.bindKeeps (yields_getNodeUp fits nodeId)
  intro _ up
  refine Keeps.bind (Keeps.gets _) fun resolved => ?_
  refine Keeps.bind (Keeps.orFail _ _) fun pnodeId => ?_
  refine Keeps.bind (yields_getNodeUp fits pnodeId).keeps fun _ => ?_
  refine Keeps.bind (confined_hideNode fits nodeId true) fun _ => ?_
  refine Keeps.bind (?_ : Keeps _ (removeFromTree pnodeId name)) fun _ =>
    Keeps.pure _
  refine Keeps.bind (Keeps.gets _) fun pnode => ?_
  split
  · exact Keeps.pure ()
  · refine Keeps.bind (Quiet.modifyNode pnodeId _).confined fun _ => ?_
    refine Keeps.bind (Keeps.gets _) fun removed => ?_
    split
    · exact Keeps.pure ()
    · exact Keeps.bind (Keeps.modify fun _ confined => confined) fun _ =>
        confined_removeNode up _

theorem confined_prepareDestination
    (up : guard.Upper)
    (newparent : UInt64)
    (newname : Name)
    (flags : UInt32) :
    Keeps (Sys.Confined guard start files)
      (prepareDestination env newparent newname flags) := by
  have clears :
      ∀ dstId, Keeps (Sys.Confined guard start files)
        (clearDestination env dstId) := by
    intro dstId
    refine Keeps.bind (Quiet.node dstId).confined fun dst => ?_
    apply Keeps.runIf
    refine Keeps.bind (Quiet.reloadDir dstId).confined fun _ => ?_
    refine Keeps.bind (Keeps.gets _) fun visible => ?_
    refine Keeps.bind (Keeps.check _ _) fun _ => ?_
    refine Keeps.bind (Keeps.gets _) fun dstPath => ?_
    exact Keeps.bind
      (confined_lift (Keeps.attempt (confined_emptyUpperDir up dstPath)))
      fun _ => Keeps.pure ()
  refine Keeps.bind (Quiet.doLookupFile newparent newname).confined
    fun found => ?_
  refine Keeps.bind (Quiet.isPresent found).confined fun present => ?_
  split
  · exact Keeps.bind (Keeps.check _ _) fun _ => Keeps.runIf (clears _)
  · exact Keeps.pure ()

theorem confined_renameInTree
    (up : guard.Upper)
    (newparent : UInt64)
    (sparentId dparentId : NodeId)
    (name newname : Name)
    (flags : UInt32) :
    Keeps (Sys.Confined guard start files)
      (renameInTree env newparent sparentId dparentId name newname flags) := by
  have replaces :
      Keeps (Sys.Confined guard start files)
        (dropReplaced env newparent dparentId newname) := by
    refine Keeps.bind (Quiet.doLookupFile newparent newname).confined
      fun found => ?_
    refine Keeps.bind (Quiet.isPresent found).confined fun present => ?_
    split
    · refine Keeps.bind (Quiet.node _).confined fun dst => ?_
      refine Keeps.bind (Keeps.modify fun _ confined => confined)
        fun _ => ?_
      refine Keeps.bind (Quiet.modifyNode dparentId _).confined fun _ => ?_
      exact confined_removeNode up _
    · exact Keeps.pure ()
  refine Keeps.bind (Quiet.modifyNode sparentId _).confined fun _ => ?_
  refine Keeps.bind (Quiet.modifyNode dparentId _).confined fun _ => ?_
  split
  · exact (Quiet.exchangeNodes sparentId dparentId name newname).confined
  · exact Keeps.bind replaces fun _ =>
      (Quiet.moveNode sparentId dparentId name newname).confined

theorem confined_rename
    (fits : guard.Fits env)
    (parent : UInt64)
    (name : Name)
    (newparent : UInt64)
    (newname : Name)
    (flags : UInt32) :
    Keeps (Sys.Confined guard start files)
      (rename env parent name newparent newname flags) := by
  refine Keeps.bind (confined_lift (reads_checkNamemax newname).confined)
    fun _ => ?_
  refine Keeps.bind (Quiet.doLookupFile parent name).confined
    fun found => ?_
  refine Keeps.bind (Quiet.presentOr found _).confined fun srcId => ?_
  refine Keeps.bind (Quiet.checkMovable srcId).confined fun _ => ?_
  apply Yields.bindKeeps (yields_getNodeUp fits srcId)
  intro _ up
  refine Keeps.bind (Keeps.gets _) fun resolved => ?_
  refine Keeps.bind (Keeps.orFail _ _) fun sparentId => ?_
  refine Keeps.bind (yields_getNodeUp fits sparentId).keeps fun _ => ?_
  refine Keeps.bind (Keeps.gets _) fun resolvedNew => ?_
  refine Keeps.bind (Keeps.orFail _ _) fun dparentId => ?_
  refine Keeps.bind (yields_getNodeUp fits dparentId).keeps fun _ => ?_
  refine Keeps.bind (Keeps.gets _) fun srcPath => ?_
  refine Keeps.bind (Keeps.gets _) fun dparentPath => ?_
  refine Keeps.bind (confined_prepareDestination up newparent newname flags)
    fun _ => ?_
  refine Keeps.bind (Keeps.gets _) fun src => ?_
  refine Keeps.bind (Keeps.runIf (Keeps.bind (confined_lift (Keeps.attempt
    (@confined_deleteWhiteout guard start upperRoot none up.layer
      (fun _ same => by cases same) _ _))) fun _ => Keeps.pure ()))
    fun _ => ?_
  refine Keeps.bind (confined_lift (confined_renameOnDisk up _ _ _ flags))
    fun _ => ?_
  refine Keeps.bind (Keeps.gets _) fun moved => ?_
  refine Keeps.bind
    (confined_renameInTree up newparent sparentId dparentId name newname
      flags) fun _ => ?_
  refine Keeps.bind (Keeps.runIf ?_) fun _ => Keeps.pure _
  refine Keeps.bind (Keeps.gets _) fun sparentPath => ?_
  exact Keeps.bind (confined_lift (Keeps.attempt
    (@confined_createWhiteout env guard start upperRoot up.layer _ _ _)))
    fun _ => Keeps.pure ()

/-! ## Open files -/

/-- The layer of the node may change. -/
def PermittedAt
    (guard : Guard)
    (env : Env)
    (nodeId : NodeId)
    (sys : Sys) : Prop :=
  ∀ found layer, sys.nodes.get? nodeId = some found →
    env.layers[found.layerIdx]? = some layer →
    guard.writable (.layer found.layerIdx)

/-- An open for writing is of a node on a layer that may change. -/
theorem holds_openFd
    (nodeId : NodeId)
    (flags : OpenFlags) :
    Holds
      (fun sys => Sys.Confined guard start files sys ∧
        (needsWrite flags = true → PermittedAt guard env nodeId sys))
      (openFd env nodeId flags)
      fun outcome sys => Sys.Confined guard start files sys ∧
        ∀ fd, outcome = .ok fd → guard.Tame fd := by
  refine Holds.getsBind fun path => ?_
  refine node_bind (fun found => ?_) fun _ given => ⟨given.1.1, nofun⟩
  intro sys given
  obtain ⟨⟨⟨confined, permitted⟩, -⟩, stored⟩ := given
  refine Yields.bind (yields_layer found.layerIdx)
    (fun layer isLayer => ?_) sys confined
  have permits :
      needsWrite flags = true →
        guard.writable (.layer found.layerIdx) :=
    fun needs => permitted needs found layer stored isLayer
  have changes :
      (adjustFlags env flags).creat = true ∨
          (adjustFlags env flags).trunc = true →
        guard.writable (.layer found.layerIdx) := by
    intro makes
    apply permits
    unfold adjustFlags at makes
    unfold needsWrite
    split at makes <;> rcases makes with creates | empties <;> simp_all
  have writes :
      (adjustFlags env flags).write = true →
        guard.writable (.layer found.layerIdx) := by
    intro writes
    apply permits
    unfold adjustFlags at writes
    unfold needsWrite
    split at writes <;> simp_all
  have opens :
      Yields (Os.Spared guard start)
        (safeOpenat env ⟨.layer found.layerIdx, []⟩ path
          (adjustFlags env flags) 0o700)
        (OpenedAt guard ⟨.layer found.layerIdx, []⟩
          (adjustFlags env flags)) :=
    yields_safeOpenat changes _ _
  exact (yields_lift opens).imp fun fd openedAt => openedAt.tame writes

theorem confined_openNode
    (rule : FilesRule guard files)
    (nodeId : NodeId)
    (flags : OpenFlags) :
    Holds
      (fun sys => Sys.Confined guard start files sys ∧
        (needsWrite flags = true → PermittedAt guard env nodeId sys))
      (openNode env nodeId flags)
      fun _ => Sys.Confined guard start files := by
  rw [openNode_eq]
  refine Holds.bind (holds_openFd nodeId flags) (fun fd => ?_)
    fun _ _ given => given.1
  apply Holds.map
  intro later given
  exact ⟨given.1.1, rule.opens given.1.2 (given.2 fd rfl)⟩

theorem confined_open
    (fits : guard.Fits env)
    (rule : FilesRule guard files)
    (ino : UInt64)
    (flags : OpenFlags) :
    Keeps (Sys.Confined guard start files) («open» env ino flags) := by
  refine Keeps.bind (Quiet.resolveNode ino).confined fun nodeId => ?_
  refine node_bind (fun found => ?_) fun _ confined => confined
  have ready :
      Holds
        (fun sys => Sys.Confined guard start files sys ∧
          sys.nodes.get? nodeId = some found)
        (Act.runIf
          (needsWrite flags &&
            (env.layers[found.layerIdx]?.map (·.low)).getD false)
          (getNodeUp env nodeId))
        fun outcome sys => Sys.Confined guard start files sys ∧
          ∀ value, outcome = .ok value → needsWrite flags = true →
            PermittedAt guard env nodeId sys := by
    intro sys given
    obtain ⟨confined, stored⟩ := given
    cases test :
        (needsWrite flags &&
          (env.layers[found.layerIdx]?.map (·.low)).getD false) with
    | true =>
        obtain ⟨keeps, comes⟩ := holds_getNodeUp fits nodeId sys confined
        refine ⟨keeps, fun value returned _ node layer storedNode _ => ?_⟩
        obtain ⟨up, atUpper⟩ := comes value returned
        rw [atUpper node storedNode]
        exact up.layer
    | false =>
        refine ⟨confined, fun value _ needs node layer storedNode isLayer => ?_⟩
        cases stored.symm.trans storedNode
        apply fits.layers found.layerIdx layer isLayer
        simpa [needs, isLayer] using test
  refine Holds.bind ready (fun _ => ?_) fun _ _ holds => holds.1
  exact (confined_openNode rule nodeId flags).imp
    (fun sys holds => ⟨holds.1, holds.2 () rfl⟩) fun _ _ confined => confined

/-- A stored handle is tame. -/
theorem yields_getFile
    (rule : FilesRule guard files)
    (fh : Nat) :
    Yields (Sys.Confined guard start files) (getFile fh) guard.Tame := by
  have reads :
      Yields (Sys.Confined guard start files)
        (Act.gets fun sys => sys.openFiles.get? fh : Daemon (Option Fd))
        fun found => ∀ fd, found = some fd → guard.Tame fd :=
    Yields.gets fun _ confined _ stored => rule.tame confined.2 stored
  apply Yields.bind reads
  intro found tame
  exact Yields.orFail tame

theorem confined_write
    (rule : FilesRule guard files)
    (fh offset : Nat)
    (bytes : List UInt8)
    (writeCache : Bool) :
    Keeps (Sys.Confined guard start files)
      (write fh offset bytes writeCache) := by
  apply Yields.bindKeeps (yields_getFile rule fh)
  intro fd tame
  exact Keeps.bind (confined_lift (confined_writeFile tame _ _ _)) fun _ =>
    Keeps.pure _

theorem confined_fallocateFile
    (rule : FilesRule guard files)
    (fh : Nat)
    (mode : UInt32)
    (offset length : Nat) :
    Keeps (Sys.Confined guard start files)
      (fallocateFile env fh mode offset length) := by
  apply Yields.bindKeeps (yields_getFile rule fh)
  intro fd tame
  exact Keeps.bind
    (confined_lift (yields_changeContent tame.writes _ _).keeps) fun _ =>
      Keeps.pure _

theorem confined_copyFileRange
    (rule : FilesRule guard files)
    (fhIn offsetIn fhOut offsetOut len : Nat) :
    Keeps (Sys.Confined guard start files)
      (copyFileRange fhIn offsetIn fhOut offsetOut len) := by
  refine Keeps.bind (Quiet.getFile fhIn).confined fun fdIn => ?_
  apply Yields.bindKeeps (yields_getFile rule fhOut)
  intro fdOut tame
  exact Keeps.map (confined_lift (confined_copyRange tame _ _ _))

/-! ## Attributes -/

/-- The descriptor of `setattr` comes from the handle or is opened on the upper
layer. -/
theorem yields_setattrFd
    (rule : FilesRule guard files)
    (up : guard.Upper)
    (path : Path)
    (change : SetAttr) :
    Yields
      (Sys.Confined guard start fun table next =>
        files table next ∧ change.Marks guard table)
      (setattrFd env 0 path change) (Guard.Settable guard) := by
  have reads :
      Yields
        (Sys.Confined guard start fun table next =>
          files table next ∧ change.Marks guard table)
        (Act.gets fun sys => change.fh.bind sys.openFiles.get? :
          Daemon (Option Fd))
        (Guard.Settable guard) := by
    apply Yields.gets
    intro sys confined fd stored
    obtain ⟨fh, -, named⟩ := Option.bind_eq_some_iff.mp stored
    exact ⟨rule.tame confined.2.1 named, confined.2.2 fd stored⟩
  apply Yields.bind reads
  intro handle settable
  split
  · exact Yields.pure settable
  · have opens :
        ∀ flags : OpenFlags, flags.creat = false → flags.trunc = false →
          Yields (Os.Spared guard start)
            (safeOpenat env ⟨.layer 0, []⟩ path flags 0)
            fun fd => guard.Tame fd ∧ guard.Marks fd := by
      intro flags noCreat noTrunc
      have permits : guard.writable (Loc.mk (.layer 0) []).root := up.layer
      refine (yields_safeOpenat (fun _ => permits) path 0).imp
        fun fd openedAt => ?_
      exact ⟨openedAt.tame fun _ => permits, (openedAt.free permits).marks⟩
    apply Yields.bind (yields_lift (opens _ rfl rfl).attempt)
    intro opened known
    apply Yields.pure
    intro fd same
    cases opened with
    | error errno =>
        cases same
    | ok found =>
        cases same
        exact known fd rfl

theorem confined_setattr
    (fits : guard.Fits env)
    (rule : FilesRule guard files)
    (ino : UInt64)
    (change : SetAttr) :
    Holds
      (fun sys => Sys.Confined guard start files sys ∧
        (hasUpper env = true → change.Marks guard sys.openFiles))
      (setattr env ino change)
      fun _ => Sys.Confined guard start files := by
  have strict :
      Keeps
        (Sys.Confined guard start fun table next =>
          files table next ∧ change.Marks guard table)
        (setattr env ino change) := by
    refine Keeps.bind (Quiet.resolveNode ino).confined fun nodeId => ?_
    refine Holds.bind (holds_getNodeUp fits nodeId) (fun _ => ?_)
      fun _ _ holds => holds.1
    refine Holds.getsBind fun path => ?_
    refine node_bind (fun found => ?_) fun _ given => given.1.1
    intro sys given
    obtain ⟨⟨⟨confined, comes⟩, -⟩, stored⟩ := given
    obtain ⟨up, atUpper⟩ := comes () rfl
    have first : found.layerIdx = 0 := atUpper found stored
    rw [first]
    refine Yields.bindKeeps (yields_layer 0) (fun layer _ => ?_) sys confined
    apply Yields.bindKeeps (yields_setattrFd rule up path change)
    intro fd settable
    refine Keeps.bind (confined_lift (confined_setTimes up.layer settable))
      fun _ => ?_
    refine Keeps.bind
      (confined_lift (confined_setPermissions fits up up.layer settable layer))
      fun _ => ?_
    refine Keeps.bind
      (confined_lift (confined_setSize fits up.layer settable _)) fun _ => ?_
    refine Keeps.bind (Quiet.attempt (.rplStat nodeId)).confined
      fun outcome => ?_
    split
    · exact Keeps.pure _
    · exact Keeps.fail _
  intro sys given
  obtain ⟨confined, marks⟩ := given
  cases present : hasUpper env with
  | true =>
      have after := strict sys ⟨confined.1, confined.2, marks present⟩
      exact ⟨after.1, after.2.1⟩
  | false =>
      -- without an upper layer `get_node_up` ends the request
      refine Keeps.bind (Quiet.resolveNode ino).confined
        (fun nodeId => ?_) sys confined
      apply Yields.bindKeeps (yields_hasUpper fits nodeId)
      intro _ isUpper
      rw [present] at isUpper
      cases isUpper

/-- Setting or removing an attribute of a path. -/
theorem confined_setxattr
    (fits : guard.Fits env)
    (ino : UInt64)
    (attr : Name)
    (value : List UInt8)
    (create replace : Bool) :
    Keeps (Sys.Confined guard start files)
      (setxattr env ino attr value create replace) := by
  refine Keeps.bind (Keeps.check _ _) fun _ => ?_
  refine Keeps.bind (Keeps.check _ _) fun _ => ?_
  refine Keeps.bind (Keeps.gets _) fun resolved => ?_
  refine Keeps.bind (Keeps.orFail _ _) fun nodeId => ?_
  apply Yields.bindKeeps (yields_getNodeUp fits nodeId)
  intro _ up
  refine Keeps.bind (Keeps.gets _) fun path => ?_
  refine Keeps.bind (Quiet.node nodeId).confined fun found => ?_
  refine Keeps.bind (yields_layer _).keeps fun layer => ?_
  refine Keeps.bind (Keeps.orFail _ _) fun encoded => ?_
  exact Keeps.bind
    (confined_lift (confined_lsetxattr fits up.layer _ _ _ _ _)) fun _ =>
      Keeps.pure _

theorem confined_removexattr
    (fits : guard.Fits env)
    (ino : UInt64)
    (attr : Name) :
    Keeps (Sys.Confined guard start files) (removexattr env ino attr) := by
  refine Keeps.bind (Keeps.check _ _) fun _ => ?_
  refine Keeps.bind (Keeps.check _ _) fun _ => ?_
  refine Keeps.bind (Keeps.gets _) fun resolved => ?_
  refine Keeps.bind (Keeps.orFail _ _) fun nodeId => ?_
  apply Yields.bindKeeps (yields_getNodeUp fits nodeId)
  intro _ up
  refine Keeps.bind (Keeps.gets _) fun path => ?_
  refine Keeps.bind (Quiet.node nodeId).confined fun found => ?_
  refine Keeps.bind (yields_layer _).keeps fun layer => ?_
  refine Keeps.bind (Keeps.orFail _ _) fun encoded => ?_
  exact Keeps.bind
    (confined_lift (confined_lremovexattr fits up.layer _ _)) fun _ =>
      Keeps.pure _

theorem confined_ioctl
    (fits : guard.Fits env)
    (ino : UInt64)
    (fh : Nat)
    (compat : Bool)
    (command : IoctlCommand) :
    Keeps (Sys.Confined guard start files)
      (ioctl env ino fh compat command) := by
  have flags :
      ∀ nodeId isSet, Keeps (Sys.Confined guard start files)
        (ioctlFlags env nodeId isSet fh) := by
    intro nodeId isSet
    exact @Quiet.ioctlFlags env
      (fun disk table next =>
        Disk.Spared guard start disk ∧ files table next) nodeId
      (yields_getNodeUp fits nodeId).keeps isSet fh
  refine Keeps.bind (Keeps.check _ _) fun _ => ?_
  refine Keeps.bind (Quiet.resolveNode ino).confined fun nodeId => ?_
  cases command with
  | refreshDir =>
      exact (Quiet.refreshDir nodeId).confined
  | set =>
      exact flags nodeId true
  | get =>
      exact flags nodeId false
  | other =>
      exact Keeps.fail _

end Daemon

/-! ## All requests -/

/-- The requests that change neither trees nor open files. -/
def Request.Looks : Request → Prop
  | .lookup .. => True
  | .forget .. => True
  | .getattr .. => True
  | .readlink .. => True
  | .read .. => True
  | .fsync .. => True
  | .getxattr .. => True
  | .listxattr .. => True
  | .opendir .. => True
  | .readdir .. => True
  | .readdirplus .. => True
  | .releasedir .. => True
  | _ => False

/-- What a request is promised before it runs: a `setattr` of a handle may
change the attributes of the object behind it. -/
def Request.Permitted
    (guard : Guard)
    (env : Env)
    (sys : Sys) :
    Request → Prop
  | .setattr _ change =>
      Syscall.hasUpper env = true → change.Marks guard sys.openFiles
  | _ => True

/-- The property of the open files does not mind the release. -/
def Request.Releases
    (files : FMap Nat Fd → Nat → Prop) :
    Request → Prop
  | .release fh => ∀ table next, files table next → files (table.remove fh) next
  | _ => True

namespace Daemon

open Syscall

variable {env : Env} {guard : Guard} {start : Disk}
  {files : FMap Nat Fd → Nat → Prop}

theorem quiet_handle
    {request : Request}
    (looks : request.Looks) :
    Quiet (handle env request) := by
  cases request with
  | lookup parent name => exact .lookup parent name
  | forget ino nlookup => exact .forget ino nlookup
  | getattr ino => exact .getattr ino
  | readlink ino => exact .readlink ino
  | read fh offset size => exact .read fh offset size
  | fsync fh => exact .fsync fh
  | getxattr ino attr size => exact .getxattrOf ino attr size
  | listxattr ino size => exact .listxattrOf ino size
  | opendir ino => exact .opendirOf ino
  | readdir fh offset fits => exact .readdir fh offset fits
  | readdirplus fh offset fits => exact .readdirplus fh offset fits
  | releasedir fh => exact .releasedir fh
  | _ => exact looks.elim

/-- Every request stays within the guard. -/
theorem confined_handle
    (fits : guard.Fits env)
    (rule : FilesRule guard files)
    {request : Request}
    (releases : request.Releases files) :
    Holds
      (fun sys => Sys.Confined guard start files sys ∧
        request.Permitted guard env sys)
      (handle env request)
      fun _ => Sys.Confined guard start files := by
  have weaken :
      Keeps (Sys.Confined guard start files) (handle env request) →
        Holds
          (fun sys => Sys.Confined guard start files sys ∧
            request.Permitted guard env sys)
          (handle env request)
          fun _ => Sys.Confined guard start files :=
    fun keeps => keeps.imp (fun _ given => given.1) fun _ _ holds => holds
  cases request with
  | setattr ino change => exact confined_setattr fits rule ino change
  | mknod caller parent name mode rdev =>
      exact weaken (confined_mknod fits caller parent name mode rdev)
  | mkdir caller parent name mode =>
      exact weaken (confined_mkdir fits caller parent name mode)
  | unlink parent name => exact weaken (confined_doRm fits parent name false)
  | rmdir parent name => exact weaken (confined_doRm fits parent name true)
  | symlink caller parent name target =>
      exact weaken (confined_symlink fits caller parent name target)
  | rename parent name newparent newname flags =>
      exact weaken (confined_rename fits parent name newparent newname flags)
  | link ino newparent newname =>
      exact weaken (confined_link fits ino newparent newname)
  | «open» ino flags => exact weaken (confined_open fits rule ino flags)
  | write fh offset bytes writeCache =>
      exact weaken (confined_write rule fh offset bytes writeCache)
  | release fh =>
      apply weaken
      refine Keeps.bind (Keeps.modify fun sys confined => ?_) fun _ =>
        Keeps.pure _
      exact ⟨confined.1, releases _ _ confined.2⟩
  | fallocate fh mode offset length =>
      exact weaken (confined_fallocateFile rule fh mode offset length)
  | copyFileRange fhIn offsetIn fhOut offsetOut len =>
      exact weaken
        (confined_copyFileRange rule fhIn offsetIn fhOut offsetOut len)
  | create caller parent name mode flags =>
      exact weaken (confined_create fits rule caller parent name mode flags)
  | setxattr ino attr value create replace =>
      exact weaken (confined_setxattr fits ino attr value create replace)
  | removexattr ino attr => exact weaken (confined_removexattr fits ino attr)
  | ioctl ino fh compat command =>
      exact weaken (confined_ioctl fits ino fh compat command)
  | _ =>
      apply weaken
      apply Quiet.confined
      apply quiet_handle
      exact trivial

end Daemon

end FuseOverlay
