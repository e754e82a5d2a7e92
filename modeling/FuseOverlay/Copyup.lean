import FuseOverlay.Lookup

namespace FuseOverlay

/-!
# Copy-up

A node of a lower layer is copied into the work directory and renamed to its
place on the upper layer; its parent directories come first.  `hideNode` goes
the other way: a deleted object is moved into the work directory.
-/

namespace Syscall

open Whiteout

variable (env : Env)

/-- The root of the upper layer. -/
def upperRoot : Loc := ⟨.layer 0, []⟩

/-- The work directory. -/
def workRoot : Loc := ⟨.workdir, []⟩

/-- `upper_layer` is there: the first layer is not a lower one. -/
def hasUpper : Bool :=
  (env.layers.head?.map (!·.low)).getD false

/-- Whether copy-up skips an attribute. -/
def isInternalXattr (attr : Name) : Bool :=
  Xattr.privilegedPrefix.isPrefixOf attr
    || Xattr.unprivilegedPrefix.isPrefixOf attr
    || Xattr.xattrPrefix.isPrefixOf attr

/-- One turn of the loop of `copy_xattr`. -/
def copyOneXattr
    (source dest : Fd)
    (attr : Name) :
    Syscall Unit := do
  match ← (fgetxattr env source attr 65536).attempt with
  | .error .ENODATA => pure ()
  | .error errno => Act.fail errno
  | .ok value => do
      match ← (fsetxattr env dest attr value).attempt with
      | .ok () => pure ()
      | .error .EPERM | .error .ENOTSUP => pure ()
      | .error errno => Act.fail errno

/-- `copy_xattr` -/
def copyXattr
    (source dest : Fd) :
    Syscall Unit := do
  match ← (flistxattr env source).attempt with
  | .error .ENOTSUP | .error .ENODATA => pure ()
  | .error errno => Act.fail errno
  | .ok attrs =>
      Act.each (copyOneXattr env source dest)
        (attrs.filter fun attr =>
          attr ≠ [] && Override.isUtf8 attr && !isInternalXattr attr)

/-- Write bytes at the start of a file, what `sendfile` and `write` do here. -/
def writeFront
    (dest : Fd)
    (bytes : List UInt8) :
    Syscall Unit :=
  changeContent dest .EBADF fun disk obj =>
    { obj with
      data := Disk.spliceData obj.data bytes 0
      mtime := disk.now }

/--
`copy_data`: a clone, else `sendfile` of `size` bytes, else reads and writes.
A transfer in several pieces is one transfer here.
-/
def copyData
    (source dest : Fd)
    (size : Nat) :
    Syscall Unit := do
  let content ← (fdObj source).attempt
  match content with
  | .error errno => Act.fail errno
  | .ok obj => do
      let cloned ← (changeContent dest .EBADF fun disk old =>
        { old with data := obj.data, mtime := disk.now }).attempt
      match cloned with
      | .ok () => pure ()
      | .error _ => do
          match ← (writeFront dest (obj.data.take size)).attempt with
          | .ok () => pure ()
          | .error _ => writeFront dest obj.data

/-- The flags `O_RDONLY | O_NOFOLLOW` -/
def rdonlyNoFollow : OpenFlags :=
  { OpenFlags.rdonly with noFollow := true }

/-- Set both times as `stat_times` gives them. -/
def setStatTimes
    (fd : Fd)
    (st : Stat) :
    Syscall Unit :=
  futimens fd (.at st.atime) (.at st.mtime)

/-! ## Directories -/

/-- Remove the temporary directory and end with an error. -/
def abandonDir
    {α : Type}
    (wd : Name)
    (errno : Errno) :
    Syscall α := do
  let _ ← (unlinkat workRoot wd true).attempt
  Act.fail errno

/-- Move the temporary directory to its place on the upper layer. -/
def installDir
    (wd : Name)
    (dir : Loc)
    (name : Name) :
    Syscall Unit := do
  match ← (renameat workRoot wd dir name).attempt with
  | .ok () => pure ()
  | .error .EEXIST | .error .ENOTEMPTY => do
      match ← (renameat2 env workRoot wd dir name 2).attempt with
      | .ok () => do
          let _ ← (unlinkat workRoot wd true).attempt
      | .error errno => abandonDir wd errno
  | .error .ENOTDIR => do
      let _ ← (unlinkat dir name false).attempt
      match ← (renameat workRoot wd dir name).attempt with
      | .ok () => pure ()
      | .error errno => abandonDir wd errno
  | .error errno => abandonDir wd errno

/-- The system calls of `create_node_directory`: one directory is copied. -/
def copyDirectory
    (layerIdx : Nat)
    (path : Path) :
    Syscall Unit := do
  let _ ← layer env layerIdx
  let source ←
    safeOpenat env ⟨.layer layerIdx, []⟩ path OpenFlags.rdonly 0o755
  let st ← fstat source
  let wd ← nextWdName
  mkdirat env workRoot wd { st.mode with perm := st.mode.perm ||| 0o755 }
  let dest ← safeOpenat env workRoot [wd] OpenFlags.rdonly 0
  let _ ← (fchown dest st.uid st.gid).attempt
  let _ ← (setStatTimes dest st).attempt
  let _ ← (copyXattr env source dest).attempt
  let (dir, name) ← safeParent upperRoot path
  installDir env wd dir name

/-! ## Other objects -/

/-- Move a temporary object to its place; remove it when that fails. -/
def installFile
    (wd : Name)
    (dir : Loc)
    (name : Name) :
    Syscall Unit := do
  match ← (renameat workRoot wd dir name).attempt with
  | .ok () => pure ()
  | .error errno => do
      let _ ← (unlinkat workRoot wd false).attempt
      Act.fail errno

/-- The attributes of a special file, when both ends can be opened. -/
def copySpecialXattrs
    (root : Root)
    (path : Path)
    (wd : Name) :
    Syscall Unit := do
  match ← (safeOpenat env workRoot [wd] rdonlyNoFollow 0).attempt with
  | .error _ => pure ()
  | .ok dest => do
      match ← (safeOpenat env ⟨root, []⟩ path rdonlyNoFollow 0).attempt with
      | .error _ => pure ()
      | .ok source => do
          let _ ← (copyXattr env source dest).attempt

/-- The symbolic link part of `copyup`. -/
def copySymlink
    (root : Root)
    (path : Path)
    (st : Stat) :
    Syscall Unit := do
  let target ← readlinkat root path
  let wd ← nextWdName
  symlinkat env target workRoot wd
  let _ ← (fchownat workRoot wd st.uid st.gid).attempt
  let (dir, name) ← safeParent upperRoot path
  installFile wd dir name

/-- The device, FIFO and socket part of `copyup`. -/
def copySpecial
    (root : Root)
    (path : Path)
    (st : Stat) :
    Syscall Unit := do
  let wd ← nextWdName
  mknodat env workRoot wd st.mode st.rdev
  let _ ← (fchownat workRoot wd st.uid st.gid).attempt
  copySpecialXattrs env root path wd
  let (dir, name) ← safeParent upperRoot path
  installFile wd dir name

/-- The regular file part of `copyup`. -/
def copyRegular
    (root : Root)
    (path : Path)
    (st : Stat) :
    Syscall Unit := do
  let wd ← nextWdName
  let source ← safeOpenat env ⟨root, []⟩ path rdonlyNoFollow 0
  let dest ← safeOpenat env workRoot [wd] creatWronly (st.mode.perm ||| 0o200)
  let _ ← (fchown dest st.uid st.gid).attempt
  copyData source dest st.size
  let _ ← (setStatTimes dest st).attempt
  let _ ← (copyXattr env source dest).attempt
  let _ ← (fchmod dest st.mode.perm).attempt
  let (dir, name) ← safeParent upperRoot path
  installFile wd dir name
  let _ ← (unlinkat dir (whName name) false).attempt

/-! ## Hiding -/

/-- Move the object into the work directory and leave a whiteout. -/
def hideBehindWhiteout
    (parentPath : Option Path)
    (nodeName : Name)
    (dir : Loc)
    (name wd : Name) :
    Syscall Unit := do
  let outcome ←
    if env.canMknod then (renameat2 env dir name workRoot wd 4).attempt
    else pure (Except.error Errno.ENOSYS)
  match outcome with
  | .ok () => pure ()
  | .error _ => do
      match parentPath with
      | none => renameat dir name workRoot wd
      | some parentPath => do
          createWhiteout env upperRoot parentPath nodeName env.canMknod
          renameat dir name workRoot wd

/-- The system calls of `hide_node`. -/
def hideOnDisk
    (path : Path)
    (parentPath : Option Path)
    (nodeName : Name)
    (whited : Bool)
    (wd : Name) :
    Syscall Unit := do
  let (dir, name) ← safeParent upperRoot path
  if whited then
    hideBehindWhiteout env parentPath nodeName dir name wd
  else
    renameat dir name workRoot wd

end Syscall

namespace Daemon

open Syscall Whiteout

variable (env : Env)

/-! ## Nodes -/

/-- The node is on the upper layer now. -/
def markUpper
    (nodeId : NodeId) :
    Daemon Unit :=
  modifyNode nodeId fun node => { node with layerIdx := 0 }

/-- `create_node_directory` after the parent is in place. -/
def createOneDirectory
    (nodeId : NodeId) :
    Daemon Unit := do
  let path ← nodePath nodeId
  let found ← node nodeId
  copyDirectory env found.layerIdx path
  markUpper nodeId
  match found.parent with
  | none => pure ()
  | some parentId => do
      let parentPath ← nodePath parentId
      let _ ←
        (deleteWhiteout upperRoot none parentPath found.name).attempt

/--
`create_node_directory`.  The recursion follows the parent pointers; the fuel
bounds it on an arena where they form a cycle.
-/
def createNodeDirectory :
    Nat → NodeId → Daemon Unit
  | 0, _ => Act.fail .ELOOP
  | fuel + 1, nodeId => do
      let found ← node nodeId
      if found.layerIdx = 0 && hasUpper env then
        pure ()
      else do
        match found.parent with
        | none => createOneDirectory env nodeId
        | some parentId => do
            let parent ← getNode parentId
            Act.runIf
              ((parent.map (·.layerIdx)).getD 0 ≠ 0 || !hasUpper env)
              (createNodeDirectory fuel parentId)
            createOneDirectory env nodeId

/-- `create_node_directory` with enough fuel for an acyclic arena -/
def createNodeDirectoryOf
    (nodeId : NodeId) :
    Daemon Unit := do
  let size ← Act.gets fun sys => sys.nodes.map.size
  createNodeDirectory env (size + 1) nodeId

/-- The parent directory comes to the upper layer first. -/
def copyupParent
    (node : OvlNode) :
    Daemon Unit :=
  match node.parent with
  | none => pure ()
  | some parentId => createNodeDirectoryOf env parentId

/-- `copyup` -/
def copyup
    (nodeId : NodeId) :
    Daemon Unit := do
  Act.check (hasUpper env) .EROFS
  let path ← nodePath nodeId
  let found ← node nodeId
  let _ ← layer env found.layerIdx
  let root := Root.layer found.layerIdx
  let st ← statat root path
  copyupParent env found
  match st.mode.kind with
  | some .dir => createNodeDirectoryOf env nodeId
  | some .lnk => do
      copySymlink env root path st
      markUpper nodeId
  | some .chr | some .blk | some .fifo | some .sock => do
      copySpecial env root path st
      markUpper nodeId
  | some .reg | none => do
      copyRegular env root path st
      markUpper nodeId

/-- `get_node_up` -/
def getNodeUp
    (nodeId : NodeId) :
    Daemon Unit := do
  Act.check (hasUpper env) .EROFS
  let found ← node nodeId
  if found.layerIdx = 0 then pure () else copyup env nodeId

/-! ## Hiding -/

/-- `needs_whiteout` in `hide_node` -/
def needsWhiteout
    (nodes : NodeArena)
    (node : OvlNode) : Bool :=
  decide (0 < node.lastLayerIdx)
    || ((node.parent.bind nodes.get?).map fun parent =>
        decide (0 < parent.lastLayerIdx)).getD false

/-- The change of a node that is hidden under a work directory name. -/
def hiddenAs
    (wd : Name)
    (node : OvlNode) :
    OvlNode :=
  { node with
    hiddenPath := some wd
    hidden := true
    doRmdir := node.doRmdir || node.isDir
    doUnlink := node.doUnlink || !node.isDir
    parent := none }

/-- The state update at the end of `hide_node`. -/
def detachHidden
    (nodeId : NodeId)
    (wd : Name) :
    Daemon Unit := do
  let found ← node nodeId
  modifyNode nodeId (hiddenAs wd)
  match found.parent with
  | none => pure ()
  | some parentId => modifyNode parentId OvlNode.markUnloaded

/-- `hide_node` -/
def hideNode
    (nodeId : NodeId)
    (unlinkSrc : Bool) :
    Daemon Unit := do
  Act.check (hasUpper env) .EROFS
  let wd ← nextWdName
  Act.runIf unlinkSrc do
    let path ← nodePath nodeId
    let found ← node nodeId
    let whited ← Act.gets fun sys => needsWhiteout sys.nodes found
    let parentPath ←
      Act.gets fun sys => found.parent.map (nodeParts sys.nodes)
    hideOnDisk env path parentPath found.name whited wd
  detachHidden nodeId wd

end Daemon

end FuseOverlay
