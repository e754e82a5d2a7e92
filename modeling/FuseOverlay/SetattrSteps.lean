import FuseOverlay.FileAttributes
import FuseOverlay.XattrRequests

namespace FuseOverlay

/-!
# `setattr` step by step

After the copy-up `setattr` opens the file, or takes the descriptor of a
handle, and then changes times, owner and mode through it; without a descriptor
it goes through the path.  Each step changes one object and leaves the other
attributes alone.
-/

open Act (Keeps Gives)

namespace Syscall

open Disk

variable {env : Env} {os later : Os}

/-- The object that a change through a descriptor or a path reaches. -/
def changeTarget
    (disk : Disk)
    (fd : Option Fd)
    (root : Root)
    (path : Path) :
    Option ObjId :=
  match fd with
  | some fd => some fd.obj
  | none => disk.idAt root path

/-! ## What the steps leave alone -/

section

variable {β : Type} {view : Obj → β} {start : Disk}

theorem keeps_frames_setTimes
    (unseen : ∀ atime mtime, Unseen view (utimeObj atime mtime))
    (fd : Option Fd)
    (root : Root)
    (path : Path)
    (change : SetAttr) :
    Keeps (fun os => Frames view start os.disk)
      (setTimes fd root path change) := by
  refine Keeps.runIf ?_
  cases fd with
  | some fd =>
      exact keeps_frames_changeFd (unseen _ _) fd
  | none =>
      refine Keeps.bind (keeps_frames_safeParent _ path) fun place => ?_
      exact keeps_frames_changeNamed (unseen _ _) place.1 place.2

theorem keeps_frames_setMode
    (unseen :
      ∀ perm, Unseen view fun _ obj => { obj with perm := perm &&& 0o7777 })
    (fd : Option Fd)
    (root : Root)
    (path : Path)
    (mode : UInt32) :
    Keeps (fun os => Frames view start os.disk)
      (setMode env fd root path mode) := by
  cases fd with
  | some fd =>
      exact keeps_frames_changeFd (unseen mode) fd
  | none =>
      refine Keeps.bind (keeps_frames_safeParent _ path) fun place => ?_
      exact keeps_frames_changeFollowed (unseen mode) place.1 place.2

theorem keeps_frames_setOwner
    (unseen : ∀ uid gid, Unseen view fun _ => chownObj uid gid)
    (fd : Option Fd)
    (root : Root)
    (path : Path)
    (uid gid : Option UInt32) :
    Keeps (fun os => Frames view start os.disk)
      (setOwner env fd root path uid gid) := by
  unfold setOwner
  cases fd with
  | some fd =>
      exact keeps_frames_changeFd (unseen _ _) fd
  | none =>
      refine Keeps.bind (keeps_frames_safeParent _ path) fun place => ?_
      exact keeps_frames_changeNamed (unseen _ _) place.1 place.2

end

/-! ## Times -/

/-- The times of the object that is reached are set. -/
theorem setTimes_returns
    {fd : Option Fd}
    {root : Root}
    {path : Path}
    {change : SetAttr}
    (returned : setTimes fd root path change os = (.ok (), later)) :
    ChangesAt (changeTarget os.disk fd root path)
      (utimeObj (timeChange change.atime) (timeChange change.mtime) os.disk)
      os.disk later.disk := by
  unfold setTimes Act.runIf at returned
  split at returned
  · cases fd with
    | some fd =>
        exact changeFd_returns returned
    | none =>
        exact changeAt_returns returned
  · next omitted =>
      cases returned
      simp only [Bool.or_eq_true, decide_eq_true_eq, not_or, not_not] at omitted
      rw [omitted.1, omitted.2]
      refine ⟨rfl, rfl, fun id => ?_⟩
      split
      · cases os.disk.objs.get? id <;> rfl
      · rfl

/-- Without times nothing is called. -/
theorem setTimes_none
    (fd : Option Fd)
    (root : Root)
    (path : Path)
    {change : SetAttr}
    (noAtime : change.atime = none)
    (noMtime : change.mtime = none)
    (os : Os) :
    setTimes fd root path change os = (.ok (), os) := by
  unfold setTimes
  rw [noAtime, noMtime]
  rfl

/-! ## Owner and mode -/

/-- The owner of the object that is reached is set. -/
theorem setOwner_returns
    {fd : Option Fd}
    {root : Root}
    {path : Path}
    {uid gid : Option UInt32}
    (returned : setOwner env fd root path uid gid os = (.ok (), later)) :
    ChangesAt (changeTarget os.disk fd root path)
      (chownObj ((uid.map (mapUid env)).getD 0xffffffff)
        ((gid.map (mapGid env)).getD 0xffffffff))
      os.disk later.disk := by
  unfold setOwner at returned
  cases fd with
  | some fd =>
      exact changeFd_returns returned
  | none =>
      exact changeAt_returns returned

/-- The owner that is given is set last, whatever the mode. -/
theorem setModeAndOwner_returns
    {fd : Option Fd}
    {root : Root}
    {path : Path}
    {change : SetAttr}
    (returned :
      setModeAndOwner env fd root path change os = (.ok (), later))
    (asked : (change.uid.isSome || change.gid.isSome) = true) :
    ∃ middle : Disk,
      Frames (fun _ => ()) os.disk middle ∧
      ChangesAt (changeTarget os.disk fd root path)
        (chownObj ((change.uid.map (mapUid env)).getD 0xffffffff)
          ((change.gid.map (mapGid env)).getD 0xffffffff))
        middle later.disk := by
  have sameTarget :
      ∀ {middle : Disk}, Frames (fun _ => ()) os.disk middle →
        changeTarget middle fd root path = changeTarget os.disk fd root path := by
    intro middle frames
    cases fd with
    | some fd =>
        rfl
    | none =>
        exact frames.idAt root path
  unfold setModeAndOwner Act.runIf at returned
  rw [if_pos asked] at returned
  cases isMode : change.mode with
  | none =>
      rw [isMode] at returned
      exact ⟨os.disk, .refl _, setOwner_returns returned⟩
  | some mode =>
      rw [isMode] at returned
      simp only at returned
      obtain ⟨_, middle, changed, rest⟩ :=
        Act.bind_returns (congrArg Prod.fst returned)
      rw [rest] at returned
      have frames : Frames (fun _ => ()) os.disk middle.disk := by
        have kept :=
          @keeps_frames_setMode env _ (fun _ => ()) os.disk
            (fun _ _ _ => ⟨rfl, rfl⟩) fd root path mode os (.refl _)
        rw [changed] at kept
        exact kept
      refine ⟨middle.disk, frames, ?_⟩
      rw [← sameTarget frames]
      exact setOwner_returns returned

/-! ## The override attribute -/

/-- The attribute of an object with a new value. -/
def withXattr
    (attr : Name)
    (value : List UInt8)
    (obj : Obj) :
    Obj :=
  { obj with xattrs := obj.xattrs.set attr value }

theorem fsetxattr_returns
    {fd : Fd}
    {attr : Name}
    {value : List UInt8}
    (returned : fsetxattr env fd attr value os = (.ok (), later)) :
    writableXattr env attr = .ok () ∧
      ChangesAt (some fd.obj) (withXattr attr value) os.disk later.disk := by
  have ran := change_ok returned
  cases allowed : writableXattr env attr with
  | error errno =>
      simp only [allowed, bind, Except.bind] at ran
      cases ran
  | ok granted =>
      simp only [allowed, bind, Except.bind] at ran
      split at ran
      · cases ran
      · split at ran
        · cases ran
        · rw [← Except.ok.inj ran]
          exact ⟨rfl, .modifyObj os.disk fd.obj _⟩

/-- The object at a path that the host walks on its own. -/
def procIdAt
    (env : Env)
    (disk : Disk)
    (root : Root)
    (path : Path) :
    Option ObjId :=
  match procLocate env disk root [] path with
  | .error _ => none
  | .ok loc => disk.names.get? loc

theorem lsetxattr_returns
    {root : Root}
    {path : Path}
    {attr : Name}
    {value : List UInt8}
    {create replace : Bool}
    (returned :
      lsetxattr env root path attr value create replace os =
        (.ok (), later)) :
    writableXattr env attr = .ok () ∧
      ChangesAt (procIdAt env os.disk root path) (withXattr attr value) os.disk
        later.disk := by
  have ran := change_ok returned
  cases allowed : writableXattr env attr with
  | error errno =>
      simp only [allowed, bind, Except.bind] at ran
      cases ran
  | ok granted =>
      cases located : procLocate env os.disk root [] path with
      | error errno =>
          simp only [allowed, located, bind, Except.bind] at ran
          cases ran
      | ok loc =>
          simp only [allowed, located, bind, Except.bind] at ran
          split at ran
          · cases ran
          · next id named =>
              -- the value goes in whether or not there was one before
              have set :
                  os.disk.modifyObj id (withXattr attr value) = later.disk := by
                split at ran
                · split at ran
                  · cases ran
                  · exact Except.ok.inj ran
                · split at ran
                  · cases ran
                  · exact Except.ok.inj ran
              rw [← set]
              unfold procIdAt
              rw [located]
              simp only [named]
              exact ⟨trivial, .modifyObj os.disk id _⟩

/-- The object whose attribute is written. -/
def xattrTarget
    (env : Env)
    (disk : Disk)
    (fd : Option Fd)
    (path : Path) :
    Option ObjId :=
  match fd with
  | some fd => some fd.obj
  | none => procIdAt env disk (.layer 0) path

/-- The owner and mode that a `setattr` starts from, given the text it reads. -/
def startsFrom
    (text : Option (List UInt8))
    (st : Stat) :
    UInt32 × UInt32 × UInt32 :=
  match text with
  | some text => Override.parseOverrideFields text st
  | none => (st.uid, st.gid, st.mode.perm)

/-- The override text that `setattr` reads back, after an `fstat`. -/
def rereadText
    (env : Env)
    (fd : Option Fd)
    (attr : Name)
    (os : Os) :
    Option (List UInt8) :=
  match fd with
  | none => none
  | some fd =>
      match (fgetxattr env fd attr 64 os.called).1 with
      | .ok value => if Override.isUtf8 value then some value else none
      | .error _ => none

/-- The value that `setattr` writes. -/
def overrideValue
    (env : Env)
    (change : SetAttr)
    (current : UInt32 × UInt32 × UInt32) :
    List UInt8 :=
  renderOverride ((change.uid.map (mapUid env)).getD current.1)
    ((change.gid.map (mapGid env)).getD current.2.1)
    ((change.mode.map (· &&& 0o7777)).getD current.2.2)

/-- The `stat` that `setattr` reads, of a descriptor or of the path. -/
def statOf
    (disk : Disk)
    (fd : Option Fd)
    (root : Root)
    (path : Path) :
    Option Stat :=
  match fd with
  | some fd => (disk.objs.get? fd.obj).map (disk.statObj fd.root fd.obj)
  | none => (disk.statat root path).toOption

/-- What the override part of `setattr` writes, and where. -/
theorem setOverride_returns
    {fd : Option Fd}
    {root : Root}
    {path : Path}
    {attr : Name}
    {change : SetAttr}
    (returned :
      setOverride env fd root path attr change os = (.ok (), later)) :
    ∃ st, statOf os.disk fd root path = some st ∧
      writableXattr env attr = .ok () ∧
      ChangesAt (xattrTarget env os.disk fd path)
        (withXattr attr (overrideValue env change
          (startsFrom (rereadText env fd attr os) st)))
        os.disk later.disk := by
  unfold setOverride at returned
  cases fd with
  | none =>
      simp only at returned
      obtain ⟨st, middle, asked, rest⟩ :=
        Act.bind_returns (congrArg Prod.fst returned)
      rw [returned] at rest
      obtain ⟨statted, -⟩ := query_returns asked
      have isMiddle : middle = os.called := by
        rw [← show (statat root path os).2 = os.called by
          rw [statat, query_eq], asked]
      subst isMiddle
      obtain ⟨allowed, changes⟩ := lsetxattr_returns rest.symm
      refine ⟨st, ?_, allowed, changes⟩
      unfold statOf
      rw [statted]
      rfl
  | some fd =>
      simp only at returned
      obtain ⟨st, middle, asked, rest⟩ :=
        Act.bind_returns (congrArg Prod.fst returned)
      rw [returned] at rest
      obtain ⟨statted, -⟩ := query_returns asked
      have isMiddle : middle = os.called := by
        rw [← show (fstat fd os).2 = os.called by rw [fstat, query_eq], asked]
      subst isMiddle
      have isStat : statOf os.disk (some fd) root path = some st := by
        unfold statOf
        cases stored : os.disk.objs.get? fd.obj with
        | none =>
            rw [stored] at statted
            cases statted
        | some obj =>
            rw [stored] at statted
            simp only [stored, Option.map_some]
            exact congrArg some (Except.ok.inj statted)
      have reads :
          currentOverride env (some fd) attr st os.called =
            (.ok (startsFrom (rereadText env (some fd) attr os) st),
              os.called.called) := by
        have sameOs :
            (fgetxattr env fd attr 64 os.called).2 = os.called.called := by
          rw [fgetxattr, query_eq]
        unfold currentOverride startsFrom rereadText
        simp only
        rw [Act.bind_apply, Act.attempt_apply, sameOs]
        cases (fgetxattr env fd attr 64 os.called).1 with
        | error errno =>
            rfl
        | ok value =>
            simp only
            split <;> rfl
      rw [Act.bind_ok reads] at rest
      obtain ⟨allowed, changes⟩ := fsetxattr_returns rest.symm
      exact ⟨st, isStat, allowed, changes⟩

/-! ## What owner and mode leave alone -/

section

variable {β : Type} {view : Obj → β} {start : Disk}

theorem gives_frames_setOverride
    (unseen : ∀ attr value, Unseen view fun _ => withXattr attr value)
    (fd : Option Fd)
    (root : Root)
    (path : Path)
    (attr : Name)
    (change : SetAttr) :
    Gives (fun os => Frames view start os.disk)
      (setOverride env fd root path attr change)
      fun _ os => Frames view start os.disk := by
  intro os _ later holds returned
  obtain ⟨st, -, -, changes⟩ := setOverride_returns returned
  exact holds.trans (changes.frames (fun obj => (unseen _ _ os.disk obj).1)
    fun obj => (unseen _ _ os.disk obj).2)

/-- Owner and mode are of no concern to a view that sees neither. -/
theorem gives_frames_setPermissions
    (mode :
      ∀ perm, Unseen view fun _ obj => { obj with perm := perm &&& 0o7777 })
    (owner : ∀ uid gid, Unseen view fun _ => chownObj uid gid)
    (xattr : ∀ attr value, Unseen view fun _ => withXattr attr value)
    (fd : Option Fd)
    (layer : Layer)
    (root : Root)
    (path : Path)
    (change : SetAttr) :
    Gives (fun os => Frames view start os.disk)
      (setPermissions env fd layer root path change)
      fun _ os => Frames view start os.disk := by
  unfold setPermissions
  split
  · have owns :
        Keeps (fun os => Frames view start os.disk)
          (Act.runIf (change.uid.isSome || change.gid.isSome)
            (setOwner env fd root path change.uid change.gid)) :=
      Keeps.runIf (keeps_frames_setOwner owner fd root path _ _)
    unfold setModeAndOwner
    split
    · exact .ofKeeps owns
    · exact .ofKeeps (Keeps.bind
        (keeps_frames_setMode mode fd root path _) fun _ => owns)
  · refine .runIf (fun _ => ?_) fun _ _ holds => holds
    exact gives_frames_setOverride xattr fd root path _ change

end

end Syscall

/-! ## The handler -/

namespace Daemon

open Syscall Disk

variable {env : Env} {sys later : Sys}

theorem keeps_rplStat
    {kept : Disk → Prop}
    (id : NodeId) :
    Keeps (fun sys => kept sys.os.disk) (rplStat env id) := by
  have reads :
      ∀ {α : Type} {act : Syscall α}, Keeps (fun os => kept os.disk) act →
        Keeps (fun sys => kept sys.os.disk) (liftM act : Daemon α) :=
    fun keeps sys holds => keeps sys.os holds
  have throughPath :
      ∀ path, Keeps (fun sys => kept sys.os.disk)
        (rplStatWithPath env id path) := by
    intro path
    refine Keeps.bind (keeps_node id) fun found => ?_
    refine Keeps.bind (reads ?_) fun st => ?_
    · refine Keeps.bind (Keeps.orFail _ _) fun _ => ?_
      split
      · exact keeps_query _
      · exact keeps_query _
    refine Keeps.bind (reads (Keeps.orFail _ _)) fun layer => ?_
    refine Keeps.bind (reads (Keeps.attempt ?_)) fun overridden => ?_
    · unfold overrideMode
      split
      · exact Keeps.pure _
      · split
        · refine Keeps.bind (Keeps.attempt (keeps_query _)) fun read => ?_
          split
          · split
            · exact Keeps.ofExcept _
            · exact Keeps.fail _
          · exact Keeps.pure _
          · exact Keeps.pure _
          · exact Keeps.fail _
        · exact Keeps.pure _
    refine Keeps.bind (reads ?_) fun ino => Keeps.gets _
    unfold getStInoWithPath
    split
    · exact Keeps.pure _
    · refine Keeps.bind ?_ fun raw => Keeps.pure _
      unfold rawStIno
      split
      · exact Keeps.bind (Keeps.gets _) fun handle => Keeps.pure _
      · exact Keeps.pure _
  refine Keeps.bind (keeps_node id) fun found => ?_
  split
  · exact throughPath _
  · exact Keeps.bind (Keeps.gets _) fun path => throughPath path

end Daemon

/-- The object that a request reaches: of the handle that it names, or the one
at the path of the node. -/
def Sys.reached
    (sys : Sys)
    (change : SetAttr)
    (node : OvlNode)
    (path : Path) :
    Option ObjId :=
  match change.fh.bind sys.openFiles.get? with
  | some fd => some fd.obj
  | none => sys.os.disk.idAt (.layer node.layerIdx) path

namespace Daemon

open Syscall Disk

variable {env : Env} {sys later : Sys}

/-- The descriptor `setattr` works on: of a handle, or of the file itself. -/
structure Opens
    (sys : Sys)
    (layerIdx : Nat)
    (path : Path)
    (change : SetAttr)
    (fd : Option Fd)
    (opened : Os) : Prop where
  disk : opened.disk = sys.os.disk
  handle :
    ∀ held, change.fh.bind sys.openFiles.get? = some held → fd = some held
  own :
    change.fh.bind sys.openFiles.get? = none → ∀ own, fd = some own →
      own.pathOnly = false ∧
        sys.os.disk.idAt (.layer layerIdx) path = some own.obj

theorem setattrFd_returns
    {layerIdx : Nat}
    {path : Path}
    {change : SetAttr}
    {fd : Option Fd}
    (returned : setattrFd env layerIdx path change sys = (.ok fd, later)) :
    later = { sys with os := later.os } ∧
      Opens sys layerIdx path change fd later.os := by
  have read :
      (Act.gets fun sys : Sys => change.fh.bind sys.openFiles.get? :
        Daemon (Option Fd)) sys =
        (.ok (change.fh.bind sys.openFiles.get?), sys) :=
    rfl
  unfold setattrFd at returned
  rw [Act.bind_ok read] at returned
  cases handle : change.fh.bind sys.openFiles.get? with
  | some held =>
      rw [handle] at returned
      cases returned
      refine ⟨rfl, rfl, fun other isHeld => ?_, fun missing => ?_⟩
      · rw [handle] at isHeld
        exact isHeld
      · rw [handle] at missing
        cases missing
  | none =>
      rw [handle] at returned
      simp only at returned
      obtain ⟨outcome, middle, opens, rest⟩ :=
        Act.bind_returns (congrArg Prod.fst returned)
      rw [returned] at rest
      cases rest
      obtain ⟨attempted, shape⟩ := lift_returns opens
      rw [Act.attempt_apply] at attempted
      generalize ran : safeOpenat env _ path _ 0 sys.os = reached at attempted
      obtain ⟨result, os⟩ := reached
      cases attempted
      obtain ⟨sameDisk, reaches⟩ := safeOpenat_plain ⟨rfl, rfl, rfl⟩ ran
      refine ⟨shape, sameDisk, fun held isHeld => ?_, fun _ own isOwn => ?_⟩
      · rw [handle] at isHeld
        cases isHeld
      · cases result with
        | error errno =>
            cases isOwn
        | ok opened =>
            cases isOwn
            obtain ⟨loc, located, named, notPath⟩ := reaches own rfl
            exact ⟨notPath, (idAt_of_locate located).trans named⟩

/-- The way of a `setattr` without a size that replied. -/
structure SetattrRan
    (env : Env)
    (ino : UInt64)
    (change : SetAttr)
    (start : Sys)
    (nodeId : NodeId)
    (copied : Sys)
    (node : OvlNode)
    (layer : Layer)
    (fd : Option Fd)
    (opened timed granted : Os)
    (done : Sys) : Prop where
  named : lookupNodeId start.nodes start.inodes ino = some nodeId
  copies : getNodeUp env nodeId start = (.ok (), copied)
  stored : copied.nodes.get? nodeId = some node
  isLayer : env.layers[node.layerIdx]? = some layer
  openedBy :
    setattrFd env node.layerIdx (nodeParts copied.nodes nodeId) change copied =
      (.ok fd, { copied with os := opened })
  opens :
    Opens copied node.layerIdx (nodeParts copied.nodes nodeId) change fd opened
  times :
    setTimes fd (.layer node.layerIdx) (nodeParts copied.nodes nodeId) change
      opened = (.ok (), timed)
  permits :
    setPermissions env fd layer (.layer node.layerIdx)
      (nodeParts copied.nodes nodeId) change timed = (.ok (), granted)
  nodes : done.nodes = copied.nodes
  inodes : done.inodes = copied.inodes
  disk : done.os.disk = granted.disk

theorem setattr_returns
    {ino : UInt64}
    {change : SetAttr}
    {reply : Reply}
    (noSize : change.size = none)
    (replied : (setattr env ino change sys).1 = .ok reply) :
    ∃ nodeId copied node layer fd opened timed granted,
      SetattrRan env ino change sys nodeId copied node layer fd opened timed
        granted (setattr env ino change sys).2 := by
  unfold setattr at replied ⊢
  obtain ⟨nodeId, start, asked, rest⟩ := Act.bind_returns replied
  obtain ⟨named, -, rfl⟩ := resolveNode_returns asked
  rw [rest] at replied ⊢
  obtain ⟨_, copied, copies, rest⟩ := Act.bind_returns replied
  rw [rest] at replied ⊢
  obtain ⟨path, _, asked, rest⟩ := Act.bind_returns replied
  cases asked
  rw [rest] at replied ⊢
  obtain ⟨node, _, asked, rest⟩ := Act.bind_returns replied
  obtain ⟨stored, rfl⟩ := node_returns asked
  rw [rest] at replied ⊢
  obtain ⟨layer, copied', asked, rest⟩ := Act.bind_returns replied
  obtain ⟨isLayer, rfl⟩ := layer_returns asked
  rw [rest] at replied ⊢
  obtain ⟨fd, opened, asked, rest⟩ := Act.bind_returns replied
  obtain ⟨openedShape, opens⟩ := setattrFd_returns asked
  have openedBy := asked
  rw [openedShape] at openedBy
  rw [rest] at replied ⊢
  obtain ⟨_, timed, asked, rest⟩ := Act.bind_returns replied
  obtain ⟨times, timedShape⟩ := lift_returns asked
  rw [rest] at replied ⊢
  obtain ⟨_, granted, asked, rest⟩ := Act.bind_returns replied
  obtain ⟨permits, grantedShape⟩ := lift_returns asked
  rw [rest] at replied ⊢
  obtain ⟨_, sized, asked, rest⟩ := Act.bind_returns replied
  rw [noSize] at asked
  have unchanged : granted = sized := congrArg Prod.snd asked
  subst unchanged
  rw [rest] at replied ⊢
  obtain ⟨outcome, done, asked, rest⟩ := Act.bind_returns replied
  rw [Act.attempt_apply] at asked
  cases asked
  rw [rest] at replied ⊢
  have sameForest :
      (rplStat env nodeId granted).2.forest = granted.forest := by
    refine (?_ : Keeps (fun sys => sys.forest = granted.forest) _) granted rfl
    refine Keeps.bind (keeps_node nodeId) fun found => ?_
    split
    · exact keeps_rplStatWithPath (· = granted.forest) nodeId _
    · exact Keeps.bind (Keeps.gets _) fun path =>
        keeps_rplStatWithPath (· = granted.forest) nodeId path
  have sameDisk :
      (rplStat env nodeId granted).2.os.disk = granted.os.disk :=
    @keeps_rplStat env (· = granted.os.disk) nodeId granted rfl
  have shape : granted = { copied' with os := granted.os } := by
    rw [grantedShape, timedShape, openedShape]
  have ran :
      SetattrRan env ino change start nodeId copied' node layer fd opened.os
        timed.os granted.os (rplStat env nodeId granted).2 := by
    have sameNodes : granted.nodes = copied'.nodes := by
      rw [shape]
    have sameInodes : granted.inodes = copied'.inodes := by
      rw [shape]
    exact ⟨named, copies, stored, isLayer, openedBy, opens, times, permits,
      (congrArg Forest.nodes sameForest).trans sameNodes,
      (congrArg Forest.inodes sameForest).trans sameInodes, sameDisk⟩
  refine ⟨nodeId, copied', node, layer, fd, opened.os, timed.os, granted.os, ?_⟩
  cases outcome : (rplStat env nodeId granted).1 with
  | ok st =>
      exact ran
  | error errno =>
      exact ran

namespace SetattrRan

variable {ino : UInt64} {change : SetAttr} {start copied done : Sys}
  {nodeId : NodeId} {node : OvlNode} {layer : Layer} {fd : Option Fd}
  {opened timed granted : Os}

/-- The copy-up leaves the tree and the meaning of numbers alone. -/
theorem calm
    (ran :
      SetattrRan env ino change start nodeId copied node layer fd opened timed
        granted done) :
    CalmFrom start.forest copied := by
  have calm := @calm_getNodeUp env nodeId start.forest start ⟨.refl _, rfl⟩
  rw [ran.copies] at calm
  exact calm

/-- The descriptor is one of the object that the request reaches. -/
theorem target_eq
    (ran :
      SetattrRan env ino change start nodeId copied node layer fd opened timed
        granted done) :
    changeTarget opened.disk fd (.layer node.layerIdx)
        (nodeParts copied.nodes nodeId) =
      copied.reached change node (nodeParts copied.nodes nodeId) := by
  unfold Sys.reached
  cases handle : change.fh.bind copied.openFiles.get? with
  | some held =>
      rw [ran.opens.handle held handle]
      rfl
  | none =>
      cases own : fd with
      | none =>
          unfold changeTarget
          rw [ran.opens.disk]
      | some fd =>
          exact (ran.opens.own handle fd own).2.symm

/-- What the steps leave alone. -/
theorem frames
    {β : Type}
    {view : Obj → β}
    (ran :
      SetattrRan env ino change start nodeId copied node layer fd opened timed
        granted done)
    (times : ∀ atime mtime, Unseen view (utimeObj atime mtime))
    (mode :
      ∀ perm, Unseen view fun _ obj => { obj with perm := perm &&& 0o7777 })
    (owner : ∀ uid gid, Unseen view fun _ => chownObj uid gid)
    (xattr : ∀ attr value, Unseen view fun _ => withXattr attr value) :
    Frames view copied.os.disk granted.disk := by
  have first :
      Frames view copied.os.disk
        (setTimes fd (.layer node.layerIdx) (nodeParts copied.nodes nodeId)
          change opened).2.disk :=
    keeps_frames_setTimes times _ _ _ _ opened (ran.opens.disk ▸ .refl _)
  rw [ran.times] at first
  exact gives_frames_setPermissions mode owner xattr _ _ _ _ _ timed () granted
    first ran.permits

/-- The next `getattr` shows the object, as the steps left it. -/
theorem shows
    (ran :
      SetattrRan env ino change start nodeId copied node layer fd opened timed
        granted done)
    (ok : TreeOk start)
    {call : Call}
    (noFaults : call.faults = [])
    {st : Stat}
    (replied : (getattr env ino (done.begin call)).1 = .ok (.attr st)) :
    ∃ id obj,
      granted.disk.HoldsAt env node (nodeParts copied.nodes nodeId) layer id
        obj ∧
      granted.disk.Shows env node (nodeParts copied.nodes nodeId) layer id obj
        st := by
  have calm := ran.calm
  have sameForest : (done.begin call).forest = copied.forest := by
    unfold Sys.forest Sys.begin
    simp only [ran.nodes, ran.inodes]
  have okDone : TreeOk (done.begin call) := by
    unfold TreeOk
    rw [sameForest]
    exact calm.ok ok
  have named :
      lookupNodeId (done.begin call).nodes (done.begin call).inodes ino =
        some nodeId := by
    change (done.begin call).forest.resolve ino = _
    rw [sameForest, calm.resolve_eq]
    exact ran.named
  have stored : (done.begin call).nodes.get? nodeId = some node := by
    change done.nodes.get? nodeId = _
    rw [ran.nodes]
    exact ran.stored
  obtain ⟨layer', id, obj, holds, shows⟩ :=
    getattr_returns okDone noFaults named stored replied
  have samePath :
      nodeParts (done.begin call).nodes nodeId =
        nodeParts copied.nodes nodeId := by
    change nodeParts done.nodes nodeId = _
    rw [ran.nodes]
  rw [samePath] at holds shows
  have sameLayer : layer' = layer := by
    have both := holds.isLayer
    rw [ran.isLayer] at both
    exact (Option.some.inj both).symm
  subst sameLayer
  -- a call begins on the disk that the last one left, with another clock
  rw [← ran.disk]
  have frames :
      Frames (fun _ => ()) done.os.disk (done.begin call).os.disk :=
    ⟨rfl, fun _ => rfl⟩
  refine ⟨id, obj, ⟨holds.isLayer, ?_, holds.stored⟩, ?_⟩
  · rw [← frames.objectOf]
    exact holds.at_
  · unfold Disk.Shows Disk.presented Disk.overrideOf at shows ⊢
    rw [← frames.idAt]
    exact shows

end SetattrRan

end Daemon

/-! ## A change between two replies -/

namespace Sys

/-- A `setattr` that replies, with a `getattr` before it and one after it. -/
structure SetBetween
    (env : Env)
    (disk : Disk)
    (sys : Sys)
    (ino : UInt64)
    (change : SetAttr)
    (call : Call)
    (before after : Stat) : Prop where
  reachable : Reachable env disk sys
  request : call.request = .setattr ino change
  asked :
    ∃ first : Call, first.request = .getattr ino ∧ first.faults = [] ∧
      (sys.step env first).1 = .ok (.attr before)
  replied : ∃ reply, (sys.step env call).1 = .ok reply
  again :
    ∃ last : Call, last.request = .getattr ino ∧ last.faults = [] ∧
      ((sys.step env call).2.step env last).1 = .ok (.attr after)

/-- The object of the number, once its node is on the upper layer. -/
structure UpFile
    (env : Env)
    (sys : Sys)
    (call : Call)
    (ino : UInt64)
    (nodeId : NodeId)
    (node : OvlNode)
    (layer : Layer)
    (id : ObjId)
    (obj : Obj) : Prop where
  named : Daemon.lookupNodeId sys.nodes sys.inodes ino = some nodeId
  stored : (sys.copiedUp env call nodeId).nodes.get? nodeId = some node
  holds :
    (sys.copiedUp env call nodeId).os.disk.HoldsAt env node
      (nodeParts (sys.copiedUp env call nodeId).nodes nodeId) layer id obj

section

variable {env : Env} {disk : Disk} {sys : Sys} {call : Call} {ino : UInt64}
  {nodeId : NodeId} {node : OvlNode} {layer : Layer} {id : ObjId} {obj : Obj}
  {change : SetAttr} {before after : Stat}

/-- The steps of the request, and what the reply after them shows. -/
theorem SetBetween.ran
    (between : SetBetween env disk sys ino change call before after)
    (file : UpFile env sys call ino nodeId node layer id obj)
    (noSize : change.size = none) :
    ∃ fd opened timed granted obj',
      Daemon.SetattrRan env ino change (sys.begin call) nodeId
        (sys.copiedUp env call nodeId) node layer fd opened timed granted
        (sys.step env call).2 ∧
      granted.disk.objs.get? id = some obj' ∧
      granted.disk.Shows env node
        (nodeParts (sys.copiedUp env call nodeId).nodes nodeId) layer id obj'
        after := by
  have ok : Daemon.TreeOk (sys.begin call) := by
    obtain ⟨calls, rfl⟩ := between.reachable
    exact Daemon.treeOk_run (Daemon.treeOk_mount env disk) calls
  have isStep :
      sys.step env call = Daemon.setattr env ino change (sys.begin call) := by
    unfold step
    rw [between.request]
    rfl
  obtain ⟨reply, replied⟩ := between.replied
  rw [isStep] at replied
  obtain ⟨nodeId', copied, node', layer', fd, opened, timed, granted, ran⟩ :=
    Daemon.setattr_returns noSize replied
  have sameNode : nodeId' = nodeId := by
    have both := ran.named
    change Daemon.lookupNodeId sys.nodes sys.inodes ino = _ at both
    rw [file.named] at both
    exact (Option.some.inj both).symm
  subst sameNode
  have isCopied : copied = sys.copiedUp env call nodeId' := by
    unfold copiedUp
    rw [ran.copies]
  subst isCopied
  have sameStored := ran.stored
  rw [file.stored] at sameStored
  cases sameStored
  have sameLayer := ran.isLayer
  rw [file.holds.isLayer] at sameLayer
  cases sameLayer
  rw [← isStep] at ran
  obtain ⟨last, isGetattr, noFaults, shown⟩ := between.again
  have replied :
      (Daemon.getattr env ino ((sys.step env call).2.begin last)).1 =
        .ok (.attr after) := by
    rw [← shown]
    unfold step
    rw [isGetattr]
    rfl
  obtain ⟨id', obj', holds, shows⟩ := ran.shows ok noFaults replied
  -- the steps move no object
  have frames :
      Disk.Frames (fun _ => ()) (sys.copiedUp env call nodeId').os.disk
        granted.disk :=
    ran.frames (fun _ _ _ _ => ⟨rfl, rfl⟩) (fun _ _ _ => ⟨rfl, rfl⟩)
      (fun _ _ _ _ => ⟨rfl, rfl⟩) fun _ _ _ _ => ⟨rfl, rfl⟩
  have sameId : id' = id := by
    have both := holds.at_
    rw [frames.objectOf, file.holds.at_] at both
    exact (Option.some.inj both).symm
  subst sameId
  exact ⟨fd, opened, timed, granted, obj', ran, holds.stored, shows⟩

/-- A named file that is on the upper layer already. -/
theorem UpFile.of_upper
    (upper : Syscall.hasUpper env = true)
    (named : Daemon.lookupNodeId sys.nodes sys.inodes ino = some nodeId)
    (stored : sys.nodes.get? nodeId = some node)
    (onUpper : node.layerIdx = 0)
    (visible : node.hidden = false)
    (isLayer : env.layers[0]? = some layer)
    (at_ :
      sys.os.disk.idAt (.layer 0) (nodeParts sys.nodes nodeId) = some id)
    (holds : sys.os.disk.objs.get? id = some obj) :
    sys.copiedUp env call nodeId = sys.begin call ∧
      UpFile env sys call ino nodeId node layer id obj := by
  have copied := copiedUp_of_upper upper stored onUpper call
  refine ⟨copied, named, ?_, ?_⟩
  · rw [copied]
    exact stored
  · rw [copied]
    refine ⟨onUpper ▸ isLayer, ?_, holds⟩
    have frames :
        Disk.Frames (fun _ => ()) sys.os.disk (sys.begin call).os.disk :=
      ⟨rfl, fun _ => rfl⟩
    unfold Disk.objectOf
    rw [visible, onUpper, frames.idAt]
    exact at_

end

end Sys

end FuseOverlay
