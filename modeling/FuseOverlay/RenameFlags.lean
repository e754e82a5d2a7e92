import FuseOverlay.DaemonSteps
import FuseOverlay.Sample

namespace FuseOverlay

/-!
# Renaming without replacing

`rename` tests in memory whether the destination is visible, and hands the flag
`RENAME_NOREPLACE` to `renameat2` as well.  On the upper layer a device that
stands for a deleted name is an entry like any other, so the two tests differ.
-/

namespace Daemon

open Syscall Whiteout

variable (env : Env)

/-- `rename` up to the lookup of the destination. -/
def renameSource
    (parent : UInt64)
    (name : Name)
    (newparent : UInt64)
    (newname : Name) :
    Daemon (NodeId × NodeId × NodeId) := do
  checkNamemax env newname
  let srcId ← presentOr (← doLookupFile env parent name) .ENOENT
  checkMovable env srcId
  getNodeUp env srcId
  let sparentId ← Act.orFail (← resolveIno parent) .ENOENT
  getNodeUp env sparentId
  let dparentId ← Act.orFail (← resolveIno newparent) .ENOENT
  getNodeUp env dparentId
  pure (srcId, sparentId, dparentId)

/-- Whether the destination is visible, as `rename` asks. -/
def isVisible
    (newparent : UInt64)
    (newname : Name) :
    Daemon Bool := do
  isPresent (← doLookupFile env newparent newname)

/-- A directory as source clears the destination of whiteouts. -/
def clearWhiteout
    (srcId : NodeId)
    (dparentPath : Path)
    (newname : Name) :
    Daemon Unit := do
  let src ← getNode srcId
  Act.runIf ((src.map OvlNode.isDir).getD false) do
    let _ ← (deleteWhiteout upperRoot none dparentPath newname).attempt

/-- `rename` after the rename on the upper layer. -/
def renameFinish
    (newparent : UInt64)
    (srcId sparentId dparentId : NodeId)
    (name newname : Name)
    (flags : UInt32) :
    Daemon Reply := do
  let src ← getNode srcId
  let srcLastLayer := (src.map (·.lastLayerIdx)).getD 0
  renameInTree env newparent sparentId dparentId name newname flags
  Act.runIf (flags &&& 2 = 0 && 0 < srcLastLayer) do
    let sparentPath ← nodePath sparentId
    let _ ← (createWhiteout env upperRoot sparentPath name
      env.canMknod).attempt
  pure .ok

/-- `rename` from the lookup of the destination on. -/
def renameTarget
    (newparent : UInt64)
    (srcId sparentId dparentId : NodeId)
    (name newname : Name)
    (flags : UInt32) :
    Daemon Reply := do
  let srcPath ← nodePath srcId
  let dparentPath ← nodePath dparentId
  prepareDestination env newparent newname flags
  clearWhiteout srcId dparentPath newname
  renameOnDisk env srcPath dparentPath newname flags
  renameFinish env newparent srcId sparentId dparentId name newname flags

theorem rename_eq_target
    (parent : UInt64)
    (name : Name)
    (newparent : UInt64)
    (newname : Name)
    (flags : UInt32) :
    rename env parent name newparent newname flags =
      renameSource env parent name newparent newname >>= fun ids =>
        renameTarget env newparent ids.1 ids.2.1 ids.2.2 name newname
          flags := by
  unfold rename renameSource renameTarget clearWhiteout
  simp only [Act.bind_assoc, Act.pure_bind]
  rfl

section

variable {env} {newparent : UInt64} {newname : Name} {mid looked : Sys}

theorem prepareDestination_visible
    (looks : isVisible env newparent newname mid = (.ok true, looked)) :
    prepareDestination env newparent newname 1 mid =
      (.error .EEXIST, looked) := by
  obtain ⟨found, middle, looked', rest⟩ :=
    Act.bind_returns (congrArg Prod.fst looks)
  unfold isVisible at looks
  rw [rest] at looks
  unfold prepareDestination
  rw [Act.bind_ok looked', Act.bind_ok looks]
  cases found with
  | none =>
      cases looks
  | some dstId =>
      rfl

theorem prepareDestination_absent
    (looks : isVisible env newparent newname mid = (.ok false, looked))
    (flags : UInt32) :
    prepareDestination env newparent newname flags mid = (.ok (), looked) := by
  obtain ⟨found, middle, looked', rest⟩ :=
    Act.bind_returns (congrArg Prod.fst looks)
  unfold isVisible at looks
  rw [rest] at looks
  unfold prepareDestination
  rw [Act.bind_ok looked', Act.bind_ok looks]
  cases found <;> rfl

end

end Daemon

namespace Disk

/-- The parent directory of a path and its last name. -/
def parentOf
    (disk : Disk)
    (base : Loc)
    (path : Path) :
    Except Errno (Loc × Name) :=
  match path.getLast? with
  | none => .ok (base, dotName)
  | some name => (disk.openDir base path.dropLast).map (·, name)

/-- Whether source and destination of a rename are both entries. -/
def isTaken
    (disk : Disk)
    (base : Loc)
    (srcPath dstPath : Path) : Bool :=
  match disk.parentOf base srcPath, disk.parentOf base dstPath with
  | .ok (srcDir, srcLast), .ok (dstDir, dstLast) =>
      (disk.names.get? (srcDir.child srcLast)).isSome
        && (disk.names.get? (dstDir.child dstLast)).isSome
  | _, _ => false

/-- The errors of a walk. -/
def IsWalkError (errno : Errno) : Prop :=
  errno = .ENOENT ∨ errno = .ENOTDIR ∨ errno = .ELOOP

theorem walk_error
    {disk : Disk}
    {base : Loc}
    {onLink : Path → Path → Except Errno Path}
    (links : ∀ cwd path errno, onLink cwd path = .error errno →
      IsWalkError errno)
    {cwd path : Path}
    {errno : Errno}
    (failed : disk.walk base onLink cwd path = .error errno) :
    IsWalkError errno := by
  induction path generalizing cwd with
  | nil =>
      cases failed
  | cons name rest inductionHypothesis =>
      unfold walk at failed
      split at failed
      · exact inductionHypothesis failed
      · split at failed
        · exact inductionHypothesis failed
        · simp only at failed
          split at failed
          · cases failed
            exact .inl rfl
          · split at failed
            · exact inductionHypothesis failed
            · exact links _ _ _ failed
            · cases failed
              exact .inr (.inl rfl)

theorem resolveDir_error
    {disk : Disk}
    {base : Loc}
    (budget : Nat)
    {cwd path : Path}
    {errno : Errno}
    (failed : disk.resolveDir base budget cwd path = .error errno) :
    IsWalkError errno := by
  induction budget generalizing cwd path errno with
  | zero =>
      refine walk_error ?_ failed
      intro cwd path errno looped
      cases looped
      exact .inr (.inr rfl)
  | succ budget inductionHypothesis =>
      refine walk_error ?_ failed
      intro cwd path errno deeper
      exact inductionHypothesis deeper

theorem parentOf_error
    {disk : Disk}
    {base : Loc}
    {path : Path}
    {errno : Errno}
    (failed : disk.parentOf base path = .error errno) :
    IsWalkError errno := by
  unfold parentOf at failed
  split at failed
  · cases failed
  · unfold openDir at failed
    cases walked : disk.resolveDir base linkLimit base.path path.dropLast with
    | ok stop =>
        rw [walked] at failed
        cases failed
    | error first =>
        rw [walked] at failed
        cases failed
        exact resolveDir_error _ walked

theorem renameCheck_ne_exist
    (disk : Disk)
    (src dst : Loc) :
    disk.renameCheck src dst ≠ .error .EEXIST := by
  intro failed
  unfold renameCheck at failed
  split at failed
  · cases failed
  · split at failed
    · cases failed
    · split at failed
      · cases failed
      · split at failed
        · cases failed
        · split at failed
          · cases failed
          · split at failed <;> cases failed

/-- A plain rename never says that the destination is there. -/
theorem renameat_ne_exist
    (disk : Disk)
    (oldDir : Loc)
    (oldName : Name)
    (newDir : Loc)
    (newName : Name) :
    disk.renameat oldDir oldName newDir newName ≠ .error .EEXIST := by
  intro failed
  unfold renameat at failed
  simp only at failed
  split at failed
  · cases failed
  · split at failed
    · cases failed
    · split at failed
      · cases failed
      · split at failed
        · next checked =>
            cases failed
            exact renameCheck_ne_exist disk _ _ checked
        · cases failed

end Disk

namespace Syscall

variable {env : Env} {os : Os}

theorem safeParent_noFaults
    (noFaults : os.faults = [])
    (base : Loc)
    (path : Path) :
    safeParent base path os = (os.disk.parentOf base path, os) := by
  unfold safeParent Disk.parentOf
  cases path.getLast? with
  | none =>
      rfl
  | some name =>
      simp only
      split
      · next isTop =>
          rw [isTop]
          rfl
      · have opened :
            openDirAt base path.dropLast false os =
              (os.disk.openDir base path.dropLast, os) := by
          unfold openDirAt
          rw [query_noFaults noFaults]
          rfl
        rw [Act.bind_apply, opened]
        cases os.disk.openDir base path.dropLast <;> rfl

theorem renameat2_noreplace
    (noFaults : os.faults = [])
    (oldDir : Loc)
    (oldName : Name)
    (newDir : Loc)
    (newName : Name) :
    renameat2 env oldDir oldName newDir newName 1 os =
      if (os.disk.names.get? (oldDir.child oldName)).isSome
          && (os.disk.names.get? (newDir.child newName)).isSome then
        (.error .EEXIST, os)
      else renameat oldDir oldName newDir newName os := by
  unfold renameat2 renameat
  rw [if_neg (by decide), Act.pure_bind]
  simp only [change_noFaults noFaults, show ¬ (1 : UInt32) = 0 by decide,
    ↓reduceIte]
  cases (os.disk.names.get? (oldDir.child oldName)).isSome
    && (os.disk.names.get? (newDir.child newName)).isSome <;> rfl

theorem keeps_noFaults_query
    {α : Type}
    (read : Disk → Except Errno α) :
    Act.Keeps (fun os => os.faults = []) (query read) := by
  intro os noFaults
  rw [query_noFaults noFaults]
  exact noFaults

theorem keeps_noFaults_unlinkat
    (dir : Loc)
    (name : Name)
    (removeDir : Bool) :
    Act.Keeps (fun os => os.faults = []) (unlinkat dir name removeDir) := by
  intro os noFaults
  unfold unlinkat
  rw [change_noFaults noFaults]
  split <;> exact noFaults

theorem keeps_noFaults_deleteWhiteout
    (upper : Loc)
    (path : Path)
    (name : Name) :
    Act.Keeps (fun os => os.faults = [])
      (Whiteout.deleteWhiteout upper none path name) := by
  have opens :
      Act.Keeps (fun os => os.faults = [])
        (Whiteout.whiteoutDir upper path) := by
    unfold Whiteout.whiteoutDir
    split
    · exact Act.Keeps.pure _
    · exact keeps_noFaults_query _
  refine Act.Keeps.bind opens fun dir => ?_
  refine Act.Keeps.bind (Act.Keeps.gets _) fun flag => ?_
  refine Act.Keeps.bind (Act.Keeps.runIf ?_) fun _ => ?_
  · refine Act.Keeps.bind (Act.Keeps.attempt (keeps_noFaults_query _)) ?_
    intro outcome
    split
    · exact Act.Keeps.runIf (keeps_noFaults_unlinkat _ _ _)
    · exact Act.Keeps.pure _
  · refine Act.Keeps.bind
      (Act.Keeps.attempt (keeps_noFaults_unlinkat _ _ _)) fun outcome => ?_
    split
    · exact Act.Keeps.pure _
    · exact Act.Keeps.pure _
    · exact Act.Keeps.fail _

/-- The rename on the upper layer, without errors of the disk. -/
theorem renameOnDisk_noFaults
    (noFaults : os.faults = [])
    (srcPath dparentPath : Path)
    (newname : Name)
    (flags : UInt32) :
    renameOnDisk env srcPath dparentPath newname flags os =
      match os.disk.parentOf upperRoot srcPath,
        os.disk.parentOf upperRoot (dparentPath ++ [newname]) with
      | .error errno, _ => (.error errno, os)
      | .ok _, .error errno => (.error errno, os)
      | .ok src, .ok dst =>
          (if flags ≠ 0 then renameat2 env src.1 src.2 dst.1 dst.2 flags
            else renameat src.1 src.2 dst.1 dst.2) os := by
  unfold renameOnDisk
  rw [Act.bind_apply, safeParent_noFaults noFaults]
  cases os.disk.parentOf upperRoot srcPath with
  | error errno =>
      rfl
  | ok src =>
      simp only
      rw [Act.bind_apply, safeParent_noFaults noFaults]
      cases os.disk.parentOf upperRoot (dparentPath ++ [newname]) <;> rfl

theorem renameOnDisk_ne_exist
    (noFaults : os.faults = [])
    (srcPath dparentPath : Path)
    (newname : Name) :
    (renameOnDisk env srcPath dparentPath newname 0 os).1 ≠
      .error .EEXIST := by
  intro failed
  rw [renameOnDisk_noFaults noFaults] at failed
  split at failed
  · next walkFailed =>
      cases failed
      rcases Disk.parentOf_error walkFailed with same | same | same <;>
        cases same
  · next walkFailed =>
      cases failed
      rcases Disk.parentOf_error walkFailed with same | same | same <;>
        cases same
  · next src dst _ _ =>
      rw [if_neg (fun differs => differs rfl)] at failed
      unfold renameat at failed
      rw [change_noFaults noFaults] at failed
      split at failed
      · cases failed
      · next errno renamed =>
          cases failed
          exact Disk.renameat_ne_exist _ _ _ _ _ renamed

/-- The flag only adds the refusal of a destination that is an entry. -/
theorem renameOnDisk_noreplace
    (noFaults : os.faults = [])
    (srcPath dparentPath : Path)
    (newname : Name) :
    renameOnDisk env srcPath dparentPath newname 1 os =
      if os.disk.isTaken upperRoot srcPath (dparentPath ++ [newname]) then
        (.error .EEXIST, os)
      else renameOnDisk env srcPath dparentPath newname 0 os := by
  rw [renameOnDisk_noFaults noFaults, renameOnDisk_noFaults noFaults]
  unfold Disk.isTaken
  cases os.disk.parentOf upperRoot srcPath with
  | error errno =>
      rfl
  | ok src =>
      cases os.disk.parentOf upperRoot (dparentPath ++ [newname]) with
      | error errno =>
          rfl
      | ok dst =>
          exact renameat2_noreplace noFaults src.1 src.2 dst.1 dst.2

end Syscall

namespace Daemon

open Syscall Whiteout Act

variable {env : Env} {errno : Errno}

/-! ## The lookup of the destination does not fail -/

theorem never_modifyNode
    (id : NodeId)
    (change : OvlNode → OvlNode) :
    Never errno (modifyNode id change) :=
  .modify _

theorem never_lift
    {α : Type}
    {act : Syscall α}
    (never : Never errno act) :
    Never errno (liftM act : Daemon α) :=
  fun sys => never sys.os

theorem never_isWhFile
    (layerIdx : Nat)
    (path : Path)
    (name : Name) :
    Never errno (isWhFile layerIdx path name) :=
  .bind (.attempt _) fun _ => .pure _

theorem never_lazyFound
    (parentId : NodeId)
    (parentPath : Path)
    (name : Name)
    (layerIdx : Nat)
    (stop : Bool)
    (st : Stat) :
    Never errno (lazyFound env parentId parentPath name layerIdx stop st) := by
  unfold lazyFound
  refine .bind (never_lift (never_isWhFile _ _ _)) fun isFile => ?_
  split
  · exact .bind (never_modifyNode _ _) fun _ => .pure _
  · split
    · exact .bind (never_modifyNode _ _) fun _ => .pure _
    · split
      · exact .bind (never_modifyNode _ _) fun _ => .pure _
      · dsimp only
        split
        · exact .bind (never_lift (.attempt _)) fun _ => .pure _
        · exact .pure _

theorem never_lazyLayer
    (parentId : NodeId)
    (parentPath : Path)
    (name : Name)
    (lastLayerIdx layerIdx : Nat)
    (found : Option OvlNode) :
    Never errno (lazyLayer env parentId parentPath name lastLayerIdx layerIdx
      found) := by
  have missing :
      ∀ stop, Never errno
        (lazyMissing parentId parentPath name layerIdx stop) := by
    intro stop
    unfold lazyMissing
    refine .bind (never_lift (never_isWhFile _ _ _)) fun isFile => ?_
    split
    · exact .bind (never_modifyNode _ _) fun _ => .pure _
    · exact .pure _
  unfold lazyLayer
  refine .bind (never_lift (.attempt _)) fun outcome => ?_
  split
  · cases found with
    | none =>
        exact missing _
    | some child =>
        exact .pure _
  · cases found with
    | none =>
        exact missing _
    | some child =>
        exact .pure _
  · cases found with
    | none =>
        exact missing _
    | some child =>
        exact .pure _
  · exact .pure _
  · cases found with
    | none =>
        exact never_lazyFound _ _ _ _ _ _
    | some child =>
        exact .pure _

theorem never_lazyLayers
    (parentId : NodeId)
    (parentPath : Path)
    (name : Name)
    (lastLayerIdx : Nat)
    (layers : List Nat)
    (found : Option OvlNode) :
    Never errno
      (lazyLayers env parentId parentPath name lastLayerIdx layers found) := by
  induction layers generalizing found with
  | nil =>
      exact .pure _
  | cons layerIdx rest inductionHypothesis =>
      refine .bind (never_lazyLayer _ _ _ _ _ _) fun step => ?_
      split
      · exact .pure _
      · exact .pure _
      · exact inductionHypothesis _

theorem never_doLookupFile
    (parent : UInt64)
    (name : Name) :
    Never errno (doLookupFile env parent name) := by
  have adopts :
      ∀ parentId child, Never errno (adoptChild env parentId child) := by
    intro parentId child
    refine .bind (fun _ failed => by cases failed) fun childId => ?_
    refine .bind (.runIf ?_) fun _ =>
      .bind (never_modifyNode _ _) fun _ => .pure _
    refine .bind (fun sys failed => ?_) fun _ => .pure _
    unfold register at failed
    split at failed <;> cases failed
  unfold doLookupFile
  refine .bind (.gets _) fun resolved => ?_
  split
  · exact .pure _
  · refine .bind (.gets _) fun parentNode => ?_
    split
    · exact .pure _
    · split
      · exact .pure _
      · split
        · exact .pure _
        · unfold doLazyLookup
          refine .bind (.gets _) fun known => ?_
          split
          · exact .pure _
          · refine .bind (.gets _) fun path =>
              .bind (never_lazyLayers _ _ _ _ _ _) fun outcome => ?_
            split
            · exact .pure _
            · exact adopts _ _

/-! ## After the rename on the upper layer -/

theorem never_removeNode
    (id : NodeId) :
    Never errno (removeNode id) := by
  unfold removeNode
  refine .bind (.gets _) fun known => ?_
  split
  · exact .pure _
  · next node =>
      refine .bind (.modify _) fun _ => ?_
      unfold dropNode
      split
      · exact .pure _
      · refine .bind (.runIf ?_) fun _ => .runIf ?_
        · exact .bind (never_lift (.attempt _)) fun _ => .pure _
        · exact .bind (never_lift (.attempt _)) fun _ => .pure _

theorem never_dropReplaced
    (different : Errno.ENOENT ≠ errno)
    (newparent : UInt64)
    (dparentId : NodeId)
    (newname : Name) :
    Never errno (dropReplaced env newparent dparentId newname) := by
  have present :
      ∀ found, Never errno (isPresent found) := by
    intro found
    cases found with
    | none =>
        exact .pure _
    | some id =>
        exact .gets _
  unfold dropReplaced
  refine .bind (never_doLookupFile _ _) fun found =>
    .bind (present found) fun there => ?_
  split
  · refine .bind ?_ fun dst => .bind (.modify _) fun _ =>
      .bind (never_modifyNode _ _) fun _ => never_removeNode _
    exact .bind (.gets _) fun known => .orFail different known
  · exact .pure _

theorem never_renameFinish
    (different : Errno.ENOENT ≠ errno)
    (newparent : UInt64)
    (srcId sparentId dparentId : NodeId)
    (name newname : Name) :
    Never errno (renameFinish env newparent srcId sparentId dparentId name
      newname 0) := by
  have moves :
      Never errno (moveNode sparentId dparentId name newname) := by
    unfold moveNode takeChild
    refine .bind (.bind (.gets _) fun _ =>
      .bind (never_modifyNode _ _) fun _ => .pure _) fun child => ?_
    split
    · exact .pure _
    · exact .bind (never_modifyNode _ _) fun _ => never_modifyNode _ _
  unfold renameFinish renameInTree
  refine .bind (.gets _) fun src => .bind ?_ fun _ =>
    .bind (.runIf ?_) fun _ => .pure _
  · refine .bind (never_modifyNode _ _) fun _ =>
      .bind (never_modifyNode _ _) fun _ => ?_
    rw [if_neg (by decide)]
    exact .bind (never_dropReplaced different _ _ _) fun _ => moves
  · exact .bind (.gets _) fun path =>
      .bind (never_lift (.attempt _)) fun _ => .pure _

/-- Only the flag for an exchange matters in the tree. -/
theorem renameFinish_noreplace
    (newparent : UInt64)
    (srcId sparentId dparentId : NodeId)
    (name newname : Name) :
    renameFinish env newparent srcId sparentId dparentId name newname 1 =
      renameFinish env newparent srcId sparentId dparentId name newname 0 :=
  rfl

/-! ## The two tests of the destination -/

/-- Clearing the destination always goes on, and causes no faults. -/
theorem clearWhiteout_ok
    {sys : Sys}
    (noFaults : sys.os.faults = [])
    (srcId : NodeId)
    (path : Path)
    (name : Name) :
    ∃ cleared, clearWhiteout srcId path name sys = (.ok (), cleared) ∧
      cleared.os.faults = [] := by
  have kept :
      Keeps (fun os => os.faults = []) (deleteWhiteout upperRoot none path name) :=
    keeps_noFaults_deleteWhiteout _ _ _
  unfold clearWhiteout
  rw [Act.bind_ok (show getNode srcId sys = (.ok (sys.nodes.get? srcId), sys)
    from rfl)]
  unfold Act.runIf
  split
  · exact ⟨_, rfl, kept sys.os noFaults⟩
  · exact ⟨sys, rfl, noFaults⟩

end Daemon

namespace Sys

open Daemon

variable {env : Env} {sys : Sys}

/-- The test of the destination and the flag agree. -/
structure NoreplaceSeesView
    (env : Env)
    (sys : Sys)
    (noreplace plain : Call)
    (visible : Bool) : Prop where
  refuses :
    (sys.step env noreplace).1 = .error .EEXIST ↔ visible = true
  renames :
    visible = false → sys.step env noreplace = sys.step env plain

end Sys

namespace Sample

/-- A file, and perhaps a whiteout under the name it is renamed to. -/
def fileBeside (whited : Bool) : Disk :=
  disk 0 ((⟨.layer 0, [ascii "a"]⟩, obj .reg [] 11) ::
    if whited then [(⟨.layer 0, [ascii "b"]⟩, obj .chr [] 12)] else [])

def renameToB (flags : UInt32) : Call :=
  call (.rename 1 (ascii "a") 1 (ascii "b") flags)

/-- The states that the rename to a free name goes through. -/
def freshStart : Sys :=
  (Sys.mount (env 0) (fileBeside false)).begin (renameToB 1)

def sourceFound : Sys :=
  (Daemon.renameSource (env 0) 1 (ascii "a") 1 (ascii "b") freshStart).2

def targetMissed : Sys :=
  (Daemon.isVisible (env 0) 1 (ascii "b") sourceFound).2

end Sample

namespace Sys

open Daemon Sample

end Sys

end FuseOverlay
