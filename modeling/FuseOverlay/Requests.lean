import FuseOverlay.Copyup

namespace FuseOverlay

/-!
# Requests on names and attributes

The handlers of `impl Filesystem for OverlayFs` that look names up, create,
remove and rename them and change attributes.  A handler that replies an error
ends with that error; what it did before stays.
-/

/-- What a handler answers.  An entry or attribute reply carries a `stat`. -/
inductive Reply where
  | ok
  | entry (attr : Stat)
  | attr (attr : Stat)
  | data (bytes : List UInt8)
  | size (count : Nat)
  | opened (fh : Nat)
  | created (attr : Stat) (fh : Nat)
  | written (count : Nat)
  | directory (entries : List (UInt64 × Nat × Name))
  | directoryPlus (entries : List (UInt64 × Nat × Name × Option Stat))
  deriving DecidableEq

/-- The user a request comes from. -/
structure Caller where
  uid : UInt32
  gid : UInt32

/-- A time argument of `setattr`. -/
inductive TimeOrNow where
  | specificTime (time : Timespec)
  | now

/-- The arguments of `setattr` that the handler reads. -/
structure SetAttr where
  mode : Option UInt32
  uid : Option UInt32
  gid : Option UInt32
  size : Option Nat
  atime : Option TimeOrNow
  mtime : Option TimeOrNow
  fh : Option Nat

namespace Syscall

open Whiteout

variable (env : Env)

/-! ## The system calls of the handlers -/

/-- `get_fs_namemax`: room is kept for the prefix `.wh.` -/
def getFsNamemax : Syscall Nat := do
  match ← (query fun _ => .ok env.host.nameMax).attempt with
  | .ok namemax => pure (if 4 < namemax then namemax - 4 else namemax)
  | .error _ => pure 251

/-- A name must fit the upper file system. -/
def checkNamemax
    (name : Name) :
    Syscall Unit := do
  let namemax ← getFsNamemax env
  Act.check (name.length ≤ namemax) .ENAMETOOLONG

/-- The owner of a new object in the work directory. -/
def chownNew
    (caller : Caller)
    (wd : Name) :
    Syscall Unit := do
  let _ ← (fchownat workRoot wd (mapUid env caller.uid)
    (mapGid env caller.gid)).attempt

/-- Resolve the place of a new object; the temporary one goes on failure. -/
def placeNew
    (wd : Name)
    (isDir : Bool)
    (path : Path) :
    Syscall (Loc × Name) := do
  match ← (safeParent upperRoot path).attempt with
  | .ok place => pure place
  | .error errno => do
      let _ ← (unlinkat workRoot wd isDir).attempt
      Act.fail errno

/-- The `timespec` of a time argument; times before 1970 become 0. -/
def timeChange : Option TimeOrNow → TimeChange
  | none => .omit
  | some .now => .now
  | some (.specificTime time) => .at (if time.sec < 0 then ⟨0, 0⟩ else time)

/-- The digits of a number as bytes. -/
def renderNumber
    (base : Nat)
    (value : UInt32) :
    List UInt8 :=
  (Nat.toDigits base value.toNat).map fun digit => digit.val.toUInt8

/-- `format!("{}:{}:{:o}", uid, gid, mode)` -/
def renderOverride
    (uid gid mode : UInt32) :
    List UInt8 :=
  renderNumber 10 uid ++ 58 :: renderNumber 10 gid ++
    58 :: renderNumber 8 mode

/-- The time part of `setattr`. -/
def setTimes
    (fd : Option Fd)
    (root : Root)
    (path : Path)
    (change : SetAttr) :
    Syscall Unit := do
  let atime := timeChange change.atime
  let mtime := timeChange change.mtime
  Act.runIf (atime ≠ .omit || mtime ≠ .omit) do
    match fd with
    | some fd => futimens fd atime mtime
    | none => do
        let (dir, name) ← safeParent ⟨root, []⟩ path
        utimensat dir name atime mtime

/-- Owner and mode of an existing override, or of the object. -/
def currentOverride
    (fd : Option Fd)
    (attr : Name)
    (st : Stat) :
    Syscall (UInt32 × UInt32 × UInt32) := do
  let plain := (st.uid, st.gid, st.mode.perm)
  match fd with
  | none => pure plain
  | some fd => do
      match ← (fgetxattr env fd attr 64).attempt with
      | .error _ => pure plain
      | .ok value =>
          pure (if Override.isUtf8 value
            then Override.parseOverrideFields value st else plain)

/-- The override part of `setattr`: owner and mode go to an attribute. -/
def setOverride
    (fd : Option Fd)
    (root : Root)
    (path : Path)
    (attr : Name)
    (change : SetAttr) :
    Syscall Unit := do
  let st ←
    match fd with
    | some fd => fstat fd
    | none => statat root path
  let (uid, gid, mode) ← currentOverride env fd attr st
  let value := renderOverride
    ((change.uid.map (mapUid env)).getD uid)
    ((change.gid.map (mapGid env)).getD gid)
    ((change.mode.map (· &&& 0o7777)).getD mode)
  match fd with
  | some fd => fsetxattr env fd attr value
  | none => lsetxattr env (.layer 0) path attr value false false

/-- The `chmod` part of `setattr`. -/
def setMode
    (fd : Option Fd)
    (root : Root)
    (path : Path)
    (mode : UInt32) :
    Syscall Unit := do
  match fd with
  | some fd => fchmod fd mode
  | none => do
      let (dir, name) ← safeParent ⟨root, []⟩ path
      fchmodat env dir name mode

/-- The `chown` part of `setattr`. -/
def setOwner
    (fd : Option Fd)
    (root : Root)
    (path : Path)
    (uid gid : Option UInt32) :
    Syscall Unit := do
  let uid := (uid.map (mapUid env)).getD 0xffffffff
  let gid := (gid.map (mapGid env)).getD 0xffffffff
  match fd with
  | some fd => fchown fd uid gid
  | none => do
      let (dir, name) ← safeParent ⟨root, []⟩ path
      fchownat dir name uid gid

/-- Mode and owner without an override attribute. -/
def setModeAndOwner
    (fd : Option Fd)
    (root : Root)
    (path : Path)
    (change : SetAttr) :
    Syscall Unit := do
  match change.mode with
  | none => pure ()
  | some mode => setMode env fd root path mode
  Act.runIf (change.uid.isSome || change.gid.isSome)
    (setOwner env fd root path change.uid change.gid)

/-- The mode and owner part of `setattr`, in both styles. -/
def setPermissions
    (fd : Option Fd)
    (layer : Layer)
    (root : Root)
    (path : Path)
    (change : SetAttr) :
    Syscall Unit :=
  match Override.overrideXattr layer.statOverrideMode with
  | none => setModeAndOwner env fd root path change
  | some attr =>
      Act.runIf
        (change.mode.isSome || change.uid.isSome || change.gid.isSome)
        (setOverride env fd root path attr change)

/-- The size part of `setattr`. -/
def setSize
    (fd : Option Fd)
    (root : Root)
    (path : Path) :
    Option Nat → Syscall Unit
  | none => pure ()
  | some size =>
      match fd with
      | some fd => ftruncate fd size
      | none => do
          let (dir, name) ← safeParent ⟨root, []⟩ path
          truncate env dir name size

/-- The flags `O_RDONLY | O_DIRECTORY` -/
def rdonlyDirectory : OpenFlags :=
  { OpenFlags.rdonly with directory := true }

/-- The opaque mark of `mkdir`, only below a parent with a lower part. -/
def markNewOpaque
    (wd : Name)
    (lastLayerIdx : Nat) :
    Syscall Unit := do
  Act.runIf (0 < lastLayerIdx) do
    match ← (safeOpenat env workRoot [wd] rdonlyDirectory 0).attempt with
    | .ok fd => do
        let _ ← (setFdOpaque env (workRoot.child wd) fd).attempt
    | .error _ => pure ()

/-- The rename of `mkdir`: a whiteout device in the way is removed. -/
def installNewDir
    (wd : Name)
    (dir : Loc)
    (name : Name) :
    Syscall Unit := do
  match ← (renameat workRoot wd dir name).attempt with
  | .ok () => pure ()
  | .error .ENOTDIR => do
      let _ ← (unlinkat dir name false).attempt
      match ← (renameat workRoot wd dir name).attempt with
      | .ok () => pure ()
      | .error errno => abandonDir wd errno
  | .error errno => abandonDir wd errno

/-- Remove one entry of an upper directory, as its stream typed it. -/
def removeEntry
    (dir : Loc)
    (entry : DirEntry) :
    Syscall Unit := do
  let _ ← (unlinkat dir entry.name (entry.dtype = some .dir)).attempt

/-- `empty_upper_dir` -/
def emptyUpperDir
    (path : Path) :
    Syscall Unit := do
  let dir ← openDirAt upperRoot path false
  let entries ← query fun disk =>
    .ok ((disk.list dir).map (disk.dirEntry (reportsType env 0) dir))
  Act.each (removeEntry dir) entries

/-- The rename on the upper layer. -/
def renameOnDisk
    (srcPath dparentPath : Path)
    (newname : Name)
    (flags : UInt32) :
    Syscall Unit := do
  let (srcDir, srcLast) ← safeParent upperRoot srcPath
  let (dstDir, dstLast) ← safeParent upperRoot (dparentPath ++ [newname])
  if flags ≠ 0 then renameat2 env srcDir srcLast dstDir dstLast flags
  else renameat srcDir srcLast dstDir dstLast

end Syscall

namespace Daemon

open Syscall Whiteout

variable (env : Env)

/-! ## Shared parts -/

/-- Whether a looked up node is there and live. -/
def isPresent
    (found : Option NodeId) :
    Daemon Bool :=
  match found with
  | none => pure false
  | some id => Act.gets fun sys => sys.nodes.containsKey id

/-- A looked up node that has to be live. -/
def presentOr
    (found : Option NodeId)
    (errno : Errno) :
    Daemon NodeId := do
  let id ← Act.orFail found errno
  let live ← Act.gets fun sys => sys.nodes.containsKey id
  Act.check live errno
  pure id

/-- `resolve_node` -/
def resolveNode
    (ino : UInt64) :
    Daemon NodeId := do
  presentOr (← resolveIno ino) .ENOENT

/-- The lookup a creating request starts with; the name must be free. -/
def checkFree
    (parent : UInt64)
    (name : Name) :
    Daemon Unit := do
  let present ← isPresent (← doLookupFile env parent name)
  Act.check (!present) .EEXIST

/-- `prepare_create_parent`: the parent node and its path -/
def prepareCreateParent
    (parent : UInt64) :
    Daemon (NodeId × Path) := do
  let pnodeId ← Act.orFail (← resolveIno parent) .ENOENT
  getNodeUp env pnodeId
  let pnodePath ← nodePath pnodeId
  pure (pnodeId, pnodePath)

/-- `create_and_register_child` -/
def createAndRegisterChild
    (parentId : NodeId)
    (name : Name)
    (st : Stat)
    (isDir : Bool) :
    Daemon UInt64 := do
  let child : OvlNode :=
    { OvlNode.new name 0 st.ino st.dev isDir with
      parent := some parentId
      mode := st.mode }
  let childId ← insertNode child.markLoaded
  let fuseIno ←
    Act.orFail (← register env childId st.ino st.dev st.mode) .ENOMEM
  incLookup ⟨st.ino, st.dev⟩
  let parent ← getNode parentId
  Act.check parent.isSome .ENOMEM
  modifyNode parentId fun parent => parent.insertChild name childId
  pure fuseIno

/-- `stat_and_register_child` -/
def statAndRegisterChild
    (parentId : NodeId)
    (name : Name)
    (path : Path) :
    Daemon Reply := do
  let st ← statat (.layer 0) path
  let fuseIno ← createAndRegisterChild env parentId name st st.mode.isDir
  pure (.entry { st with ino := fuseIno })

/-- `inherit_acl` -/
def inheritAcl
    (parentId : NodeId)
    (target : Fd) :
    Daemon Unit := do
  if env.config.noacl then
    pure ()
  else do
    let path ← nodePath parentId
    match ← getNode parentId with
    | none => pure ()
    | some parent =>
        if env.layers[parent.layerIdx]?.isNone then
          pure ()
        else do
          let value ← (getxattr env (.layer parent.layerIdx) path
            Xattr.posixAclDefault 4096).attempt
          match value with
          | .error _ => pure ()
          | .ok [] => pure ()
          | .ok bytes => do
              let _ ←
                (fsetxattr env target Xattr.posixAclDefault bytes).attempt

/-- The default ACL of a new object in the work directory. -/
def inheritNewAcl
    (parentId : NodeId)
    (wd : Name)
    (flags : OpenFlags) :
    Daemon Unit := do
  match ← (safeOpenat env workRoot [wd] flags 0).attempt with
  | .ok fd => inheritAcl env parentId fd
  | .error _ => pure ()

/-- Rename a new file to its place and register it: the common ending. -/
def installNew
    (wd : Name)
    (pnodeId : NodeId)
    (pnodePath : Path)
    (name : Name) :
    Daemon Reply := do
  let (dir, last) ← placeNew wd false (pnodePath ++ [name])
  installFile wd dir last
  let _ ← (deleteWhiteout upperRoot (some dir) pnodePath name).attempt
  statAndRegisterChild env pnodeId name (pnodePath ++ [name])

/-! ## Looking up -/

/-- The reply of the fast path of `lookup`, when it applies. -/
def lookupFast
    (parent : UInt64)
    (name : Name) :
    Daemon (Option Reply) := do
  match ← resolveIno parent with
  | none => pure none
  | some parentId => do
      match ← getNode parentId with
      | none => pure none
      | some pnode => do
          Act.check (!pnode.isWhiteout name) .ENOENT
          match pnode.getChild name with
          | none => pure none
          | some childId => do
              let child ← node childId
              Act.check (!child.hidden) .ENOENT
              let key : InodeKey := ⟨child.tmpIno, child.tmpDev⟩
              match ← Act.gets fun sys => sys.inodes.getByKey key with
              | none => pure none
              | some entry =>
                  if childId ∈ entry.nodes then do
                    let path ← nodePath childId
                    match ← (rplStatWithPath env childId path).attempt with
                    | .error _ => pure none
                    | .ok st => do
                        incLookup key
                        pure (some (.entry { st with ino := entry.fuseIno }))
                  else
                    pure none

/-- The number a looked up node is replied under. -/
def lookupIno
    (nodeId : NodeId)
    (found : OvlNode)
    (mode : Mode) :
    Daemon UInt64 := do
  if found.tmpIno ≠ 0 ∨ found.isDir then do
    let fuseIno ← Act.orFail
      (← register env nodeId found.tmpIno found.tmpDev mode) .ENOMEM
    incLookup ⟨found.tmpIno, found.tmpDev⟩
    pure fuseIno
  else
    pure rootIno

/-- The slow path of `lookup`. -/
def lookupSlow
    (parent : UInt64)
    (name : Name) :
    Daemon Reply := do
  let nodeId ← presentOr (← doLookupFile env parent name) .ENOENT
  let before ← node nodeId
  Act.runIf (!env.config.staticNlink && before.isDir) do
    let loaded ← reloadDir env nodeId
    Act.check loaded Errno.EIO
  let st ← rplStat env nodeId
  let found ← node nodeId
  let fuseIno ← lookupIno env nodeId found st.mode
  pure (.entry { st with ino := fuseIno })

/-- `lookup` -/
def lookup
    (parent : UInt64)
    (name : Name) :
    Daemon Reply := do
  Act.check (!hasWhPrefix name) .ENOENT
  match ← lookupFast env parent name with
  | some reply => pure reply
  | none => lookupSlow env parent name

/-- `forget` -/
def forget
    (ino nlookup : UInt64) :
    Daemon Reply := do
  Act.modify fun sys =>
    { sys with inodes := (sys.inodes.forget ino nlookup).2 }
  pure .ok

/-- `getattr` -/
def getattr
    (ino : UInt64) :
    Daemon Reply := do
  if ino = rootIno then do
    ensureRootLoaded env
    .attr <$> rplStat env rootId
  else do
    let nodeId ← resolveNode ino
    .attr <$> rplStat env nodeId

/-- `readlink` -/
def readlink
    (ino : UInt64) :
    Daemon Reply := do
  let nodeId ← Act.orFail (← resolveIno ino) .ENOENT
  let path ← nodePath nodeId
  let found ← node nodeId
  let _ ← layer env found.layerIdx
  .data <$> readlinkat (.layer found.layerIdx) path

/-! ## Changing attributes -/

/-- The descriptor `setattr` works on: the handle's, or one it opens. -/
def setattrFd
    (layerIdx : Nat)
    (path : Path)
    (change : SetAttr) :
    Daemon (Option Fd) := do
  let handle ← Act.gets fun sys => change.fh.bind sys.openFiles.get?
  match handle with
  | some fd => pure (some fd)
  | none => do
      let flags : OpenFlags :=
        { OpenFlags.rdonly with
          read := change.size.isNone
          write := change.size.isSome
          noFollow := true }
      let opened ←
        (safeOpenat env ⟨.layer layerIdx, []⟩ path flags 0).attempt
      pure opened.toOption

/-- `setattr` -/
def setattr
    (ino : UInt64)
    (change : SetAttr) :
    Daemon Reply := do
  let nodeId ← resolveNode ino
  getNodeUp env nodeId
  let path ← nodePath nodeId
  let found ← node nodeId
  let layer ← layer env found.layerIdx
  let root := Root.layer found.layerIdx
  let fd ← setattrFd env found.layerIdx path change
  setTimes fd root path change
  setPermissions env fd layer root path change
  setSize env fd root path change.size
  match ← (rplStat env nodeId).attempt with
  | .ok st => pure (.attr st)
  | .error _ => Act.fail Errno.EIO

/-! ## Creating -/

/-- `mknod` -/
def mknod
    (caller : Caller)
    (parent : UInt64)
    (name : Name)
    (mode : Mode)
    (rdev : UInt32) :
    Daemon Reply := do
  checkNamemax env name
  checkFree env parent name
  let (pnodeId, pnodePath) ← prepareCreateParent env parent
  let wd ← nextWdName
  mknodat env workRoot wd { mode with perm := mode.perm ||| 0o755 }
    rdev.toUInt64
  chownNew env caller wd
  inheritNewAcl env pnodeId wd OpenFlags.rdonly
  installNew env wd pnodeId pnodePath name

/-- `mkdir` -/
def mkdir
    (caller : Caller)
    (parent : UInt64)
    (name : Name)
    (mode : Mode) :
    Daemon Reply := do
  checkNamemax env name
  checkFree env parent name
  let (pnodeId, pnodePath) ← prepareCreateParent env parent
  let pnode ← node pnodeId
  let wd ← nextWdName
  mkdirat env workRoot wd mode
  chownNew env caller wd
  markNewOpaque env wd pnode.lastLayerIdx
  inheritNewAcl env pnodeId wd rdonlyDirectory
  let (dir, last) ← placeNew wd true (pnodePath ++ [name])
  installNewDir wd dir last
  let _ ← (deleteWhiteout upperRoot (some dir) pnodePath name).attempt
  statAndRegisterChild env pnodeId name (pnodePath ++ [name])

/-- `symlink` -/
def symlink
    (caller : Caller)
    (parent : UInt64)
    (name : Name)
    (target : List UInt8) :
    Daemon Reply := do
  checkNamemax env name
  checkFree env parent name
  let (pnodeId, pnodePath) ← prepareCreateParent env parent
  let wd ← nextWdName
  symlinkat env target workRoot wd
  chownNew env caller wd
  installNew env wd pnodeId pnodePath name

/-- `link` -/
def link
    (ino newparent : UInt64)
    (newname : Name) :
    Daemon Reply := do
  checkNamemax env newname
  let srcId ← Act.orFail (← resolveIno ino) .ENOENT
  getNodeUp env srcId
  let dparentId ← Act.orFail (← resolveIno newparent) .ENOENT
  checkFree env newparent newname
  getNodeUp env dparentId
  let srcPath ← nodePath srcId
  let dparentPath ← nodePath dparentId
  let _ ← (deleteWhiteout upperRoot none dparentPath newname).attempt
  let (srcDir, srcLast) ← safeParent upperRoot srcPath
  let (dstDir, dstLast) ← safeParent upperRoot (dparentPath ++ [newname])
  linkat srcDir srcLast dstDir dstLast
  let st ← statat (.layer 0) (dparentPath ++ [newname])
  let fuseIno ← createAndRegisterChild env dparentId newname st false
  pure (.entry { st with ino := fuseIno })

/-! ## Removing -/

/-- Whether no child of a directory is live and visible. -/
def isEmptyNode
    (nodes : NodeArena)
    (nodeId : NodeId) : Bool :=
  match (nodes.get? nodeId).bind OvlNode.children with
  | none => true
  | some children =>
      children.toList.all fun entry =>
        ((nodes.get? entry.2).map (·.hidden)).getD true

/-- The test of `rmdir` that the directory is empty. -/
def checkEmpty
    (nodeId : NodeId) :
    Daemon Unit := do
  let _ ← reloadDir env nodeId
  let empty ← Act.gets fun sys => isEmptyNode sys.nodes nodeId
  Act.check empty .ENOTEMPTY

/-- Drop a child from its parent, the inode table and the arena. -/
def removeFromTree
    (pnodeId : NodeId)
    (name : Name) :
    Daemon Unit := do
  let pnode ← getNode pnodeId
  match pnode.bind (·.getChild name) with
  | none => pure ()
  | some removedId => do
      modifyNode pnodeId fun parent => parent.removeChild name
      match ← getNode removedId with
      | none => pure ()
      | some removed => do
          Act.modify fun sys =>
            { sys with
              inodes := sys.inodes.removeNodeId
                ⟨removed.tmpIno, removed.tmpDev⟩ removedId }
          removeNode removedId

/-- `do_rm` -/
def doRm
    (parent : UInt64)
    (name : Name)
    (isDir : Bool) :
    Daemon Reply := do
  let nodeId ← presentOr (← doLookupFile env parent name) .ENOENT
  Act.runIf isDir (checkEmpty env nodeId)
  getNodeUp env nodeId
  let pnodeId ← Act.orFail (← resolveIno parent) .ENOENT
  getNodeUp env pnodeId
  hideNode env nodeId true
  removeFromTree pnodeId name
  pure .ok

/-- `unlink` -/
def unlink
    (parent : UInt64)
    (name : Name) :
    Daemon Reply :=
  doRm env parent name false

/-- `rmdir` -/
def rmdir
    (parent : UInt64)
    (name : Name) :
    Daemon Reply :=
  doRm env parent name true

/-! ## Renaming -/

/-- A source directory must have no lower part. -/
def checkMovable
    (srcId : NodeId) :
    Daemon Unit := do
  let src ← node srcId
  Act.runIf src.isDir do
    let _ ← reloadDir env srcId
    let src ← node srcId
    Act.check (src.layerIdx = 0 && src.lastLayerIdx = 0) .EXDEV

/-- Whether a directory has a live child that is not hidden. -/
def hasVisible
    (nodes : NodeArena)
    (nodeId : NodeId) : Bool :=
  match (nodes.get? nodeId).bind OvlNode.children with
  | none => false
  | some children =>
      children.toList.any fun entry =>
        ((nodes.get? entry.2).map (!·.hidden)).getD false

/-- A directory that is replaced is emptied of whiteouts first. -/
def clearDestination
    (dstId : NodeId) :
    Daemon Unit := do
  let dst ← node dstId
  Act.runIf dst.isDir do
    let _ ← reloadDir env dstId
    let visible ← Act.gets fun sys => hasVisible sys.nodes dstId
    Act.check (!visible) .ENOTEMPTY
    let dstPath ← nodePath dstId
    let _ ← (emptyUpperDir env dstPath).attempt

/-- What `rename` does with a destination that is there. -/
def prepareDestination
    (newparent : UInt64)
    (newname : Name)
    (flags : UInt32) :
    Daemon Unit := do
  let found ← doLookupFile env newparent newname
  let present ← isPresent found
  match found, present with
  | some dstId, true => do
      Act.check (flags &&& 1 = 0) .EEXIST
      Act.runIf (flags &&& 2 = 0) (clearDestination env dstId)
  | _, _ => pure ()

/-- A node under a new name and parent. -/
def moved
    (name : Name)
    (parent : Option NodeId)
    (node : OvlNode) :
    OvlNode :=
  { node with name := name, parent := parent }

/-- Take a child out of a directory node. -/
def takeChild
    (parentId : NodeId)
    (name : Name) :
    Daemon (Option NodeId) := do
  let parent ← getNode parentId
  modifyNode parentId fun parent => parent.removeChild name
  pure (parent.bind (·.getChild name))

/-- The in-memory part of `RENAME_EXCHANGE`. -/
def exchangeNodes
    (sparentId dparentId : NodeId)
    (name newname : Name) :
    Daemon Unit := do
  let srcChild ← takeChild sparentId name
  let dstChild ← takeChild dparentId newname
  let sid ← Act.orFail srcChild Errno.EIO
  let did ← Act.orFail dstChild Errno.EIO
  let snode ← Act.orFail (← getNode sid) Errno.EIO
  let dnode ← Act.orFail (← getNode did) Errno.EIO
  modifyNode sid fun node =>
    (moved dnode.name dnode.parent node).markUnloaded
  modifyNode did fun node =>
    (moved snode.name snode.parent node).markUnloaded
  modifyNode dparentId fun parent => parent.insertChild newname sid
  modifyNode sparentId fun parent => parent.insertChild name did

/-- A plain rename replaces the destination node. -/
def dropReplaced
    (newparent : UInt64)
    (dparentId : NodeId)
    (newname : Name) :
    Daemon Unit := do
  let found ← doLookupFile env newparent newname
  let present ← isPresent found
  match found, present with
  | some dstId, true => do
      let dst ← node dstId
      Act.modify fun sys =>
        { sys with
          inodes :=
            sys.inodes.removeNodeId ⟨dst.tmpIno, dst.tmpDev⟩ dstId }
      modifyNode dparentId fun parent => parent.removeChild newname
      removeNode dstId
  | _, _ => pure ()

/-- The in-memory part of a plain rename. -/
def moveNode
    (sparentId dparentId : NodeId)
    (name newname : Name) :
    Daemon Unit := do
  match ← takeChild sparentId name with
  | none => pure ()
  | some childId => do
      modifyNode childId (moved newname (some dparentId))
      modifyNode dparentId fun parent => parent.insertChild newname childId

/-- The update of the tree after a rename on disk. -/
def renameInTree
    (newparent : UInt64)
    (sparentId dparentId : NodeId)
    (name newname : Name)
    (flags : UInt32) :
    Daemon Unit := do
  modifyNode sparentId OvlNode.markUnloaded
  modifyNode dparentId OvlNode.markUnloaded
  if flags &&& 2 ≠ 0 then
    exchangeNodes sparentId dparentId name newname
  else do
    dropReplaced env newparent dparentId newname
    moveNode sparentId dparentId name newname

/-- `rename` -/
def rename
    (parent : UInt64)
    (name : Name)
    (newparent : UInt64)
    (newname : Name)
    (flags : UInt32) :
    Daemon Reply := do
  checkNamemax env newname
  let srcId ← presentOr (← doLookupFile env parent name) .ENOENT
  checkMovable env srcId
  getNodeUp env srcId
  let sparentId ← Act.orFail (← resolveIno parent) .ENOENT
  getNodeUp env sparentId
  let dparentId ← Act.orFail (← resolveIno newparent) .ENOENT
  getNodeUp env dparentId
  let srcPath ← nodePath srcId
  let dparentPath ← nodePath dparentId
  prepareDestination env newparent newname flags
  let src ← getNode srcId
  Act.runIf ((src.map OvlNode.isDir).getD false) do
    let _ ← (deleteWhiteout upperRoot none dparentPath newname).attempt
  renameOnDisk env srcPath dparentPath newname flags
  let src ← getNode srcId
  let srcLastLayer := (src.map (·.lastLayerIdx)).getD 0
  renameInTree env newparent sparentId dparentId name newname flags
  Act.runIf (flags &&& 2 = 0 && 0 < srcLastLayer) do
    let sparentPath ← nodePath sparentId
    let _ ← (createWhiteout env upperRoot sparentPath name
      env.canMknod).attempt
  pure .ok

end Daemon

end FuseOverlay
