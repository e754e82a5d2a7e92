import FuseOverlay.Requests

namespace FuseOverlay

/-!
# Requests on handles, extended attributes and directory streams

The remaining handlers, and the step of a mount: one request after another,
each with the failures and inode numbers its system calls meet.  The tables of
passthrough backings are not part of this state; a handle is stored the same
way with and without a backing.
-/

namespace Xattr

/-- `can_access_xattr` -/
def canAccessXattr
    (name : Name)
    (mode : StatOverrideMode) : Bool :=
  !xattrPrefix.isPrefixOf name
    && !privilegedPrefix.isPrefixOf name
    && !unprivilegedPrefix.isPrefixOf name
    && !(mode = .containers && securityPrefix.isPrefixOf name)

/-- `encode_xattr_name` -/
def encodeXattrName
    (name : Name)
    (mode : StatOverrideMode) :
    Option Name :=
  if canAccessXattr name mode then
    some name
  else if mode ≠ .containers then
    none
  else if 255 < name.length + containersOverridePrefix.length then
    none
  else
    some (containersOverridePrefix ++ name)

/-- `is_encoded_xattr_name` -/
def isEncodedXattrName
    (name : Name)
    (mode : StatOverrideMode) : Bool :=
  containersOverridePrefix.isPrefixOf name
    && !canAccessXattr (name.drop containersOverridePrefix.length) mode

/-- `decode_xattr_name` -/
def decodeXattrName
    (name : Name)
    (mode : StatOverrideMode) :
    Option Name :=
  if isEncodedXattrName name mode then
    some (name.drop containersOverridePrefix.length)
  else if canAccessXattr name mode then
    some name
  else
    none

/-- `filter_xattr_list` on the names of a list -/
def filterXattrList
    (names : List Name)
    (mode : StatOverrideMode) :
    List UInt8 :=
  (names.filter fun name => name ≠ [] && Override.isUtf8 name).flatMap
    fun name =>
      match decodeXattrName name mode with
      | some decoded => decoded ++ [0]
      | none => []

end Xattr

namespace Syscall

open Whiteout

variable (env : Env)

/-- `pread` -/
def readFile
    (fd : Fd)
    (offset size : Nat) :
    Syscall (List UInt8) := do
  Act.check (fd.read && !fd.pathOnly) .EBADF
  let obj ← fdObj fd
  pure ((obj.data.drop offset).take size)

/-- The mode `write` restores after a flush of the page cache. -/
def restoreMode
    (fd : Fd)
    (writeCache : Bool) :
    Syscall (Option UInt32) := do
  if writeCache then do
    match ← (fstat fd).attempt with
    | .ok st =>
        pure (if st.mode.perm &&& 0o6000 ≠ 0 then some st.mode.perm else none)
    | .error _ => pure none
  else
    pure none

/-- The system calls of `write`. -/
def writeFile
    (fd : Fd)
    (offset : Nat)
    (bytes : List UInt8)
    (writeCache : Bool) :
    Syscall Unit := do
  let mode ← restoreMode fd writeCache
  pwrite fd bytes offset
  match mode with
  | none => pure ()
  | some mode => do
      let _ ← (fchmod fd mode).attempt

/-- The system call of `copy_file_range`. -/
def copyRange
    (fdIn : Fd)
    (offsetIn : Nat)
    (fdOut : Fd)
    (offsetOut len : Nat) :
    Syscall Nat := do
  let bytes ← readFile fdIn offsetIn len
  Act.check (!fdOut.append) .EBADF
  pwrite fdOut bytes offsetOut
  pure bytes.length

/-- The creation of `create` over a whiteout, through the work directory. -/
def createOverWhiteout
    (pnodePath : Path)
    (name : Name)
    (flags : OpenFlags)
    (perm : UInt32) :
    Syscall Fd := do
  let wd ← nextWdName
  let _ ← safeOpenat env workRoot [wd] flags perm
  let (dir, last) ← placeNew wd false (pnodePath ++ [name])
  installFile wd dir last
  let _ ← (deleteWhiteout upperRoot (some dir) pnodePath name).attempt
  safeOpenat env upperRoot (pnodePath ++ [name])
    { flags with creat := false, read := true, write := true } perm

/-- The file that `create` makes, staged only over a whiteout. -/
def openNew
    (whited : Bool)
    (pnodePath : Path)
    (name : Name)
    (flags : OpenFlags)
    (perm : UInt32) :
    Syscall Fd :=
  if whited then createOverWhiteout env pnodePath name flags perm
  else safeOpenat env upperRoot (pnodePath ++ [name]) flags perm

/-- `DataSource::listxattr` with a buffer of `size` bytes -/
def listxattr
    (root : Root)
    (path : Path)
    (size : Nat) :
    Syscall (List Name) :=
  query fun disk =>
    if !env.host.xattrs then .error .ENOTSUP
    else
      match disk.locate ⟨root, []⟩ path with
      | .error errno => .error errno
      | .ok loc =>
          match disk.find? loc with
          | none => .error .ENOENT
          | some obj =>
              let names := obj.xattrs.toList.map (·.1)
              if (names.map fun name => name.length + 1).sum ≤ size then
                .ok names
              else
                .error .ERANGE

end Syscall

namespace Daemon

open Syscall Whiteout

variable (env : Env)

/-! ## Open files -/

/-- `alloc_fh` -/
def allocFh
    (fd : Fd) :
    Daemon Nat :=
  fun sys =>
    (.ok sys.nextFh,
      { sys with
        openFiles := sys.openFiles.set sys.nextFh fd
        nextFh := sys.nextFh + 1 })

/-- `get_file` -/
def getFile
    (fh : Nat) :
    Daemon Fd := do
  Act.orFail (← Act.gets fun sys => sys.openFiles.get? fh) .EBADF

/-- The flags `open` and `create` pass on. -/
def adjustFlags
    (flags : OpenFlags) :
    OpenFlags :=
  let flags := { flags with noFollow := true, direct := false }
  if env.config.writeback then
    { flags with
      read := flags.read || flags.write
      append := false }
  else
    flags

/-- `needs_write` in `open` -/
def needsWrite (flags : OpenFlags) : Bool :=
  flags.append || flags.write || flags.creat || flags.trunc

/-- Open the file of a node on its layer and store the handle. -/
def openNode
    (nodeId : NodeId)
    (flags : OpenFlags) :
    Daemon Reply := do
  let path ← nodePath nodeId
  let found ← node nodeId
  let _ ← layer env found.layerIdx
  let fd ←
    safeOpenat env ⟨.layer found.layerIdx, []⟩ path (adjustFlags env flags)
      0o700
  .opened <$> allocFh fd

/-- `open` -/
def «open»
    (ino : UInt64)
    (flags : OpenFlags) :
    Daemon Reply := do
  let nodeId ← resolveNode ino
  let found ← node nodeId
  let isLow := (env.layers[found.layerIdx]?.map (·.low)).getD false
  Act.runIf (needsWrite flags && isLow) (getNodeUp env nodeId)
  openNode env nodeId flags

/-- `read` -/
def read
    (fh offset size : Nat) :
    Daemon Reply := do
  let fd ← getFile fh
  .data <$> readFile fd offset (min size (2 ^ 21))

/-- `write` -/
def write
    (fh offset : Nat)
    (bytes : List UInt8)
    (writeCache : Bool) :
    Daemon Reply := do
  let fd ← getFile fh
  writeFile fd offset bytes writeCache
  pure (.written bytes.length)

/-- `release`, without the backing tables -/
def release
    (fh : Nat) :
    Daemon Reply := do
  Act.modify fun sys => { sys with openFiles := sys.openFiles.remove fh }
  pure .ok

/-- `fsync` changes no modelled data. -/
def fsync
    (fh : Nat) :
    Daemon Reply := do
  Act.check env.config.fsync .ENOSYS
  let fd ← getFile fh
  let _ ← fdObj fd
  pure .ok

/-- `fallocate` -/
def fallocateFile
    (fh : Nat)
    (mode : UInt32)
    (offset length : Nat) :
    Daemon Reply := do
  let fd ← getFile fh
  fallocate env fd mode offset length
  pure .ok

/-- `copy_file_range` -/
def copyFileRange
    (fhIn offsetIn fhOut offsetOut len : Nat) :
    Daemon Reply := do
  let fdIn ← getFile fhIn
  let fdOut ← getFile fhOut
  .written <$> copyRange fdIn offsetIn fdOut offsetOut (min len (2 ^ 32 - 1))

/-- Whether `create` found a whiteout under the name. -/
def createsOverWhiteout
    (parent : UInt64)
    (name : Name) :
    Daemon Bool := do
  let found ← doLookupFile env parent name
  let present ← isPresent found
  Act.check (!present) .EEXIST
  if found.isSome then
    pure true
  else
    Act.gets fun sys =>
      (((lookupNodeId sys.nodes sys.inodes parent).bind sys.nodes.get?).map
        (·.isWhiteout name)).getD false

/-- `create` -/
def create
    (caller : Caller)
    (parent : UInt64)
    (name : Name)
    (mode : Mode)
    (flags : OpenFlags) :
    Daemon Reply := do
  checkNamemax env name
  let whited ← createsOverWhiteout env parent name
  let (pnodeId, pnodePath) ← prepareCreateParent env parent
  let flags := adjustFlags env { flags with creat := true }
  let fd ← openNew env whited pnodePath name flags mode.perm
  let _ ← (fchown fd (mapUid env caller.uid) (mapGid env caller.gid)).attempt
  inheritAcl env pnodeId fd
  let st ← fstat fd
  let fuseIno ← createAndRegisterChild env pnodeId name st false
  let fh ← allocFh fd
  pure (.created { st with ino := fuseIno } fh)

/-! ## Extended attributes -/

/-- `setxattr` -/
def setxattr
    (ino : UInt64)
    (attr : Name)
    (value : List UInt8)
    (create replace : Bool) :
    Daemon Reply := do
  Act.check (Override.isUtf8 attr) .EINVAL
  Act.check (!env.config.disableXattrs) .ENOSYS
  let nodeId ← Act.orFail (← resolveIno ino) .ENOENT
  getNodeUp env nodeId
  let path ← nodePath nodeId
  let found ← node nodeId
  let layer ← layer env found.layerIdx
  let encoded ←
    Act.orFail (Xattr.encodeXattrName attr layer.statOverrideMode) .EPERM
  lsetxattr env (.layer 0) path encoded value create replace
  pure .ok

/-- `removexattr` -/
def removexattr
    (ino : UInt64)
    (attr : Name) :
    Daemon Reply := do
  Act.check (Override.isUtf8 attr) .EINVAL
  Act.check (!env.config.disableXattrs) .ENOSYS
  let nodeId ← Act.orFail (← resolveIno ino) .ENOENT
  getNodeUp env nodeId
  let path ← nodePath nodeId
  let found ← node nodeId
  let layer ← layer env found.layerIdx
  let encoded ←
    Act.orFail (Xattr.encodeXattrName attr layer.statOverrideMode) .EPERM
  lremovexattr env (.layer 0) path encoded
  pure .ok

/-- `getxattr` -/
def getxattrOf
    (ino : UInt64)
    (attr : Name)
    (size : Nat) :
    Daemon Reply := do
  Act.check (Override.isUtf8 attr) .EINVAL
  Act.check (!env.config.disableXattrs) .ENOTSUP
  let nodeId ← resolveNode ino
  let path ← nodePath nodeId
  let found ← node nodeId
  let layer ← layer env found.layerIdx
  let encoded ←
    Act.orFail (Xattr.encodeXattrName attr layer.statOverrideMode) .ENODATA
  let value ← getxattr env (.layer found.layerIdx) path encoded
    (if size = 0 then 65536 else min size 65536)
  pure (if size = 0 then .size value.length else .data value)

/-- `listxattr` -/
def listxattrOf
    (ino : UInt64)
    (size : Nat) :
    Daemon Reply := do
  Act.check (!env.config.disableXattrs) .ENOTSUP
  let nodeId ← resolveNode ino
  let path ← nodePath nodeId
  let found ← node nodeId
  let layer ← layer env found.layerIdx
  let names ← listxattr env (.layer found.layerIdx) path
    (if size = 0 then 65536 else min size 65536)
  let filtered := Xattr.filterXattrList names layer.statOverrideMode
  if size = 0 then
    pure (.size filtered.length)
  else do
    Act.check (filtered.length ≤ size) .ERANGE
    pure (.data filtered)

/-! ## Directory handles -/

/-- `opendir` -/
def opendirOf
    (ino : UInt64) :
    Daemon Reply := do
  Act.runIf (ino = rootIno) (ensureRootLoaded env)
  let nodeId ← Act.orFail (← resolveIno ino) .ENOENT
  let found ← getNode nodeId
  Act.check ((found.map OvlNode.isDir).getD false) .ENOTDIR
  let _ ← reloadDir env nodeId
  let entries ← buildDirEntries env nodeId
  fun sys =>
    (.ok (.opened sys.nextDh),
      { sys with
        openDirs := sys.openDirs.set sys.nextDh entries
        nextDh := sys.nextDh + 1 })

/-- The entries of a directory handle from an offset on, with positions. -/
def handleEntries
    (fh offset : Nat) :
    Daemon (List (HandleEntry × Nat)) := do
  let entries ← Act.orFail (← Act.gets fun sys => sys.openDirs.get? fh) .EBADF
  pure (entries.zipIdx.drop offset)

/-- `readdir`; `fits` entries find room in the reply. -/
def readdir
    (fh offset fits : Nat) :
    Daemon Reply := do
  let entries ← handleEntries fh offset
  pure (.directory ((entries.take fits).map fun entry =>
    (entry.1.ino, entry.2 + 1, entry.1.name)))

/-- The number of a `readdirplus` entry; a live node is registered. -/
def plusIno
    (entry : HandleEntry) :
    Daemon UInt64 := do
  match entry.nodeId with
  | none => pure entry.ino
  | some nodeId => do
      match ← getNode nodeId with
      | none => pure entry.ino
      | some found => do
          match ← register env nodeId found.tmpIno found.tmpDev
              found.mode with
          | none => pure entry.ino
          | some fuseIno => do
              incLookup ⟨found.tmpIno, found.tmpDev⟩
              pure fuseIno

/--
The entry loop of `readdirplus`: the entry that finds no room is registered
like the others before the loop ends.
-/
def plusEntries :
    Nat → List (HandleEntry × Nat) →
      Daemon (List (UInt64 × Nat × Name × Option Stat))
  | _, [] => pure []
  | 0, entry :: _ => do
      let _ ← plusIno env entry.1
      pure []
  | fits + 1, entry :: rest => do
      let fuseIno ← plusIno env entry.1
      let others ← plusEntries fits rest
      let attr := entry.1.attr.map fun st => { st with ino := fuseIno }
      pure ((fuseIno, entry.2 + 1, entry.1.name, attr) :: others)

/-- `readdirplus` -/
def readdirplus
    (fh offset fits : Nat) :
    Daemon Reply := do
  let entries ← handleEntries fh offset
  .directoryPlus <$> plusEntries env fits entries

/-- `releasedir` -/
def releasedir
    (fh : Nat) :
    Daemon Reply := do
  Act.modify fun sys => { sys with openDirs := sys.openDirs.remove fh }
  pure .ok

/-! ## Control requests -/

/-- The commands of `ioctl`. -/
inductive IoctlCommand where
  | refreshDir
  | set
  | get
  | other

/-- The `REFRESH_DIR` command. -/
def refreshDir
    (nodeId : NodeId) :
    Daemon Reply := do
  let found ← node nodeId
  Act.check found.isDir .ENOTDIR
  let path ← nodePath nodeId
  modifyNode nodeId OvlNode.clearChildren
  loadDirImpl env nodeId path (some found.lastLayerIdx)
  pure .ok

/-- The flag and version commands; flags are not modelled data. -/
def ioctlFlags
    (nodeId : NodeId)
    (isSet : Bool)
    (fh : Nat) :
    Daemon Reply := do
  Act.runIf isSet (getNodeUp env nodeId)
  let path ← nodePath nodeId
  let found ← node nodeId
  let handle ← Act.gets fun sys => sys.openFiles.get? fh
  if !isSet && !found.isDir && fh ≠ 0 && handle.isSome then do
    let _ ← fdObj (handle.getD ⟨0, .workdir, false, false, false, false⟩)
    pure .ok
  else do
    let _ ← layer env found.layerIdx
    let fd ←
      safeOpenat env ⟨.layer found.layerIdx, []⟩ path OpenFlags.rdonly 0o755
    let _ ← fdObj fd
    pure .ok

/-- `ioctl` -/
def ioctl
    (ino : UInt64)
    (fh : Nat)
    (compat : Bool)
    (command : IoctlCommand) :
    Daemon Reply := do
  Act.check (!compat) .ENOSYS
  let nodeId ← resolveNode ino
  match command with
  | .refreshDir => refreshDir env nodeId
  | .other => Act.fail .ENOSYS
  | .set => ioctlFlags env nodeId true fh
  | .get => ioctlFlags env nodeId false fh

end Daemon

/-- The requests of the kernel. -/
inductive Request where
  | lookup (parent : UInt64) (name : Name)
  | forget (ino nlookup : UInt64)
  | getattr (ino : UInt64)
  | setattr (ino : UInt64) (change : SetAttr)
  | readlink (ino : UInt64)
  | mknod (caller : Caller) (parent : UInt64) (name : Name) (mode : Mode)
      (rdev : UInt32)
  | mkdir (caller : Caller) (parent : UInt64) (name : Name) (mode : Mode)
  | unlink (parent : UInt64) (name : Name)
  | rmdir (parent : UInt64) (name : Name)
  | symlink (caller : Caller) (parent : UInt64) (name : Name)
      (target : List UInt8)
  | rename (parent : UInt64) (name : Name) (newparent : UInt64)
      (newname : Name) (flags : UInt32)
  | link (ino newparent : UInt64) (newname : Name)
  | open (ino : UInt64) (flags : OpenFlags)
  | read (fh offset size : Nat)
  | write (fh offset : Nat) (bytes : List UInt8) (writeCache : Bool)
  | release (fh : Nat)
  | fsync (fh : Nat)
  | fallocate (fh : Nat) (mode : UInt32) (offset length : Nat)
  | copyFileRange (fhIn offsetIn fhOut offsetOut len : Nat)
  | create (caller : Caller) (parent : UInt64) (name : Name) (mode : Mode)
      (flags : OpenFlags)
  | setxattr (ino : UInt64) (attr : Name) (value : List UInt8)
      (create replace : Bool)
  | removexattr (ino : UInt64) (attr : Name)
  | getxattr (ino : UInt64) (attr : Name) (size : Nat)
  | listxattr (ino : UInt64) (size : Nat)
  | opendir (ino : UInt64)
  | readdir (fh offset fits : Nat)
  | readdirplus (fh offset fits : Nat)
  | releasedir (fh : Nat)
  | ioctl (ino : UInt64) (fh : Nat) (compat : Bool)
      (command : Daemon.IoctlCommand)

namespace Daemon

/-- The handler of a request. -/
def handle
    (env : Env) :
    Request → Daemon Reply
  | .lookup parent name => lookup env parent name
  | .forget ino nlookup => forget ino nlookup
  | .getattr ino => getattr env ino
  | .setattr ino change => setattr env ino change
  | .readlink ino => readlink env ino
  | .mknod caller parent name mode rdev =>
      mknod env caller parent name mode rdev
  | .mkdir caller parent name mode => mkdir env caller parent name mode
  | .unlink parent name => unlink env parent name
  | .rmdir parent name => rmdir env parent name
  | .symlink caller parent name target =>
      symlink env caller parent name target
  | .rename parent name newparent newname flags =>
      rename env parent name newparent newname flags
  | .link ino newparent newname => link env ino newparent newname
  | .open ino flags => «open» env ino flags
  | .read fh offset size => read fh offset size
  | .write fh offset bytes writeCache => write fh offset bytes writeCache
  | .release fh => release fh
  | .fsync fh => fsync env fh
  | .fallocate fh mode offset length =>
      fallocateFile env fh mode offset length
  | .copyFileRange fhIn offsetIn fhOut offsetOut len =>
      copyFileRange fhIn offsetIn fhOut offsetOut len
  | .create caller parent name mode flags =>
      create env caller parent name mode flags
  | .setxattr ino attr value create replace =>
      setxattr env ino attr value create replace
  | .removexattr ino attr => removexattr env ino attr
  | .getxattr ino attr size => getxattrOf env ino attr size
  | .listxattr ino size => listxattrOf env ino size
  | .opendir ino => opendirOf env ino
  | .readdir fh offset fits => readdir fh offset fits
  | .readdirplus fh offset fits => readdirplus env fh offset fits
  | .releasedir fh => releasedir fh
  | .ioctl ino fh compat command => ioctl env ino fh compat command

end Daemon

/-- A request with the time and what its system calls meet. -/
structure Call where
  request : Request
  faults : List (Option Errno)
  inos : List UInt64
  now : Timespec

namespace Sys

/-- `OverlayFs::new` over existing trees -/
def mount
    (env : Env)
    (disk : Disk) :
    Sys where
  os := ⟨disk, 1, true, [], []⟩
  nodes := (NodeArena.new.insert (OvlNode.new [] 0 0 0 true)).2
  inodes := InodeTable.new.setSameDevice env.sameDevice
  openFiles := ∅
  nextFh := 1
  openDirs := ∅
  nextDh := 1

/-- The state a handler starts from. -/
def begin
    (sys : Sys)
    (call : Call) :
    Sys :=
  { sys with
    os := { sys.os with
      disk := { sys.os.disk with now := call.now }
      faults := call.faults
      inos := call.inos } }

/-- The outcome of one request and the state it leaves. -/
def step
    (env : Env)
    (sys : Sys)
    (call : Call) :
    Except Errno Reply × Sys :=
  Daemon.handle env call.request (sys.begin call)

/-- The state after a list of requests. -/
def run
    (env : Env) :
    Sys → List Call → Sys
  | sys, [] => sys
  | sys, call :: rest => run env (sys.step env call).2 rest

/-- Every state a mount over some trees can reach. -/
def Reachable
    (env : Env)
    (disk : Disk)
    (sys : Sys) : Prop :=
  ∃ calls, sys = run env (mount env disk) calls

end Sys

end FuseOverlay
