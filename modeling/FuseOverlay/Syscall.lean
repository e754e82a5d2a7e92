import FuseOverlay.Lib.Act
import FuseOverlay.Disk
import FuseOverlay.InodeTable

namespace FuseOverlay

/-!
# System calls

`Env` is what a mount fixes: its options, its layers and what the host allows.
`Os` is what the system calls read and change: the trees and the counters and
flags that belong to them.  Every call first takes one element of `faults`;
`some e` makes the call fail with `e` and without effect, so that a list of
faults stands for any pattern of failures.  `inos` supplies the inode numbers
of new objects in the same way, so the file system may recycle numbers.
-/

/-- Where the owner and mode a layer presents are kept. -/
inductive StatOverrideMode where
  | none
  | user
  | privileged
  | containers
  deriving Repr, DecidableEq

/-- A layer: its tree is `Root.layer` of its index. -/
structure Layer where
  low : Bool
  statOverrideMode : StatOverrideMode
  reportsType : Bool
  nfsHandle : ObjId → UInt64

/-- One id mapping `[host..host+len) <-> [target..target+len)`. -/
structure IdMapping where
  host : UInt32
  target : UInt32
  len : UInt32
  deriving Repr, DecidableEq

/-- The options that the handlers read. -/
structure Config where
  uidMappings : List IdMapping
  gidMappings : List IdMapping
  squashToRoot : Bool
  squashToUid : Option UInt32
  squashToGid : Option UInt32
  nfsFilehandles : Bool
  fsync : Bool
  fastInoCheck : Bool
  writeback : Bool
  disableXattrs : Bool
  inoT32 : Bool
  staticNlink : Bool
  noacl : Bool

/--
What the host allows.  `leaves` says where a walk that is not confined to a
layer gets to when it meets a symbolic link at the given location with the
given components left, and `fallocated` what `fallocate` makes of a content.
-/
structure Host where
  mknodDevices : Bool
  trustedXattrs : Bool
  xattrs : Bool
  umask : UInt32
  nameMax : Nat
  uid : UInt32
  gid : UInt32
  overflowUid : UInt32
  overflowGid : UInt32
  leaves : Disk → Loc → Path → Except Errno Loc
  fallocated : UInt32 → Nat → Nat → List UInt8 → List UInt8

/-- Everything a mount fixes. -/
structure Env where
  config : Config
  layers : List Layer
  host : Host
  order : HashOrder
  sameDevice : Bool
  canMknod : Bool

/-- What the system calls work on. -/
structure Os where
  disk : Disk
  wdCounter : Nat
  canMknodFlag : Bool
  faults : List (Option Errno)
  inos : List UInt64

/-- Actions made of system calls only. -/
abbrev Syscall := Act Errno Os

/-- The decimal name of a work directory counter. -/
def wdName (counter : Nat) : Name :=
  (Nat.toDigits 10 counter).map fun digit => digit.val.toUInt8

namespace Xattr

def privilegedOpaque : Name := ascii "trusted.overlay.opaque"

def unprivilegedOpaque : Name := ascii "user.overlay.opaque"

def opaqueXattr : Name := ascii "user.fuseoverlayfs.opaque"

def privilegedPrefix : Name := ascii "trusted.overlay."

def unprivilegedPrefix : Name := ascii "user.overlay."

def xattrPrefix : Name := ascii "user.fuseoverlayfs."

def containersOverridePrefix : Name := ascii "user.containers.override_"

def securityPrefix : Name := ascii "security."

def privilegedOverrideStat : Name :=
  ascii "security.fuseoverlayfs.override_stat"

def containersOverrideStat : Name :=
  ascii "user.containers.override_stat"

def posixAclDefault : Name := ascii "system.posix_acl_default"

/-- The namespace only a privileged process may use. -/
def isTrusted (attr : Name) : Bool :=
  (ascii "trusted.").isPrefixOf attr

end Xattr

namespace Syscall

/-! ## Faults and the two shapes of a call -/

/-- Take the next fault; the call at hand fails with it. -/
def takeFault : Syscall Unit :=
  fun os =>
    match os.faults with
    | [] => (.ok (), os)
    | none :: rest => (.ok (), { os with faults := rest })
    | some errno :: rest => (.error errno, { os with faults := rest })

/-- A call that only reads the trees. -/
def query
    {α : Type}
    (read : Disk → Except Errno α) :
    Syscall α := do
  takeFault
  fun os => (read os.disk, os)

/-- A call that may change the trees; when it fails nothing changes. -/
def call
    {α : Type}
    (run : Disk → Except Errno (α × Disk)) :
    Syscall α := do
  takeFault
  fun os =>
    match run os.disk with
    | .ok (value, disk) => (.ok value, { os with disk := disk })
    | .error errno => (.error errno, os)

/-- A call without a result. -/
def change
    (run : Disk → Except Errno Disk) :
    Syscall Unit :=
  call fun disk => (run disk).map fun changed => ((), changed)

/-- The inode number the file system gives the next new object. -/
def nextStIno : Syscall UInt64 :=
  fun os =>
    match os.inos with
    | [] => (.ok (UInt64.ofNat (os.disk.nextObj + 2)), os)
    | ino :: rest => (.ok ino, { os with inos := rest })

variable (env : Env)

/-- `next_wd_name` and `next_wd_counter` -/
def nextWdName : Syscall Name :=
  fun os =>
    (.ok (wdName os.wdCounter), { os with wdCounter := os.wdCounter + 1 })

/-! ## Calls on names -/

/-- A new object as the daemon makes it. -/
def freshObj
    (disk : Disk)
    (kind : FileKind)
    (perm : UInt32)
    (rdev : UInt64)
    (data : List UInt8)
    (ino : UInt64) :
    Obj where
  kind := kind
  perm := perm &&& ~~~env.host.umask
  uid := env.host.uid
  gid := env.host.gid
  rdev := rdev
  data := data
  atime := disk.now
  mtime := disk.now
  xattrs := ∅
  stIno := ino

/-- Make a new object, with its own inode number. -/
def makeObj
    (dir : Loc)
    (name : Name)
    (kind : FileKind)
    (perm : UInt32)
    (rdev : UInt64)
    (data : List UInt8) :
    Syscall ObjId := do
  let ino ← nextStIno
  call fun disk =>
    disk.create dir name (freshObj env disk kind perm rdev data ino)

/-- `mkdirat`: only the permission bits and the sticky bit count. -/
def mkdirat
    (dir : Loc)
    (name : Name)
    (mode : Mode) :
    Syscall Unit := do
  let _ ← makeObj env dir name .dir (mode.perm &&& 0o1777) 0 []

/-- A device that may not be made; a name in use is reported first. -/
def refuseDevice
    (dir : Loc)
    (name : Name) :
    Syscall Unit :=
  query fun disk =>
    match disk.create dir name (freshObj env disk .chr 0 0 [] 0) with
    | .error errno => .error errno
    | .ok _ => .error .EPERM

/-- `mknodat`: a mode without type makes a regular file. -/
def mknodat
    (dir : Loc)
    (name : Name)
    (mode : Mode)
    (rdev : UInt64) :
    Syscall Unit := do
  match mode.kind with
  | some .dir => Act.fail .EPERM
  | some .lnk => Act.fail .EINVAL
  | some .chr | some .blk =>
      if env.host.mknodDevices then
        let _ ← makeObj env dir name (mode.kind.getD .chr)
          (mode.perm &&& 0o7777) rdev []
      else
        refuseDevice env dir name
  | some kind => do
      let _ ← makeObj env dir name kind (mode.perm &&& 0o7777) 0 []
  | none => do
      let _ ← makeObj env dir name .reg (mode.perm &&& 0o7777) 0 []

/-- `symlinkat`: a link has all permission bits, whatever the umask. -/
def symlinkat
    (target : List UInt8)
    (dir : Loc)
    (name : Name) :
    Syscall Unit := do
  let ino ← nextStIno
  let _ ← call fun disk =>
    disk.create dir name
      { freshObj env disk .lnk 0o777 0 target ino with perm := 0o777 }

/-- `linkat` -/
def linkat
    (oldDir : Loc)
    (oldName : Name)
    (newDir : Loc)
    (newName : Name) :
    Syscall Unit :=
  change fun disk => disk.linkat oldDir oldName newDir newName

/-- `unlinkat` -/
def unlinkat
    (dir : Loc)
    (name : Name)
    (removeDir : Bool) :
    Syscall Unit :=
  change fun disk => disk.unlinkat dir name removeDir

/-- `renameat` -/
def renameat
    (oldDir : Loc)
    (oldName : Name)
    (newDir : Loc)
    (newName : Name) :
    Syscall Unit :=
  change fun disk => disk.renameat oldDir oldName newDir newName

/-- `renameat2` with `RENAME_WHITEOUT`: the source becomes a whiteout. -/
def renameWhiteout
    (ino : UInt64)
    (disk : Disk)
    (oldDir : Loc)
    (oldName : Name)
    (newDir : Loc)
    (newName : Name) :
    Except Errno Disk :=
  if env.host.mknodDevices then
    match disk.renameat oldDir oldName newDir newName with
    | .error errno => .error errno
    | .ok renamed =>
        (renamed.create oldDir oldName
          (freshObj env disk .chr 0 0 [] ino)).map (·.2)
  else
    .error .EPERM

/--
`renameat2` with the flags 1 (no replace), 2 (exchange), 4 (whiteout).  Only a
whiteout is a new object, and a missing source is reported before a name in use.
-/
def renameat2
    (oldDir : Loc)
    (oldName : Name)
    (newDir : Loc)
    (newName : Name)
    (flags : UInt32) :
    Syscall Unit := do
  let ino ← if flags = 4 || flags = 5 then nextStIno else pure 0
  change fun disk =>
    let taken := (disk.names.get? (oldDir.child oldName)).isSome
      && (disk.names.get? (newDir.child newName)).isSome
    if flags = 0 then
      disk.renameat oldDir oldName newDir newName
    else if flags = 1 then
      if taken then .error .EEXIST
      else disk.renameat oldDir oldName newDir newName
    else if flags = 2 then
      disk.renameExchange oldDir oldName newDir newName
    else if flags = 4 then
      renameWhiteout env ino disk oldDir oldName newDir newName
    else if flags = 5 then
      if taken then .error .EEXIST
      else renameWhiteout env ino disk oldDir oldName newDir newName
    else
      .error .EINVAL

/-- The checks and the effect of opening an existing object. -/
def openObj
    (disk : Disk)
    (root : Root)
    (id : ObjId)
    (obj : Obj)
    (flags : OpenFlags) :
    Except Errno (Fd × Disk) :=
  let fd : Fd :=
    ⟨id, root, flags.read, flags.write, flags.append, flags.pathOnly⟩
  if flags.directory && obj.kind ≠ .dir then
    .error .ENOTDIR
  else if flags.pathOnly then
    .ok (fd, disk)
  else if obj.kind = .dir && (flags.write || flags.creat || flags.trunc) then
    .error .EISDIR
  else if obj.kind = .lnk then
    .error .ELOOP
  else if obj.kind = .sock || obj.isWhiteoutDev then
    .error Errno.ENXIO
  else if flags.trunc && obj.kind = .reg then
    .ok (fd, disk.modifyObj id fun old =>
      { old with data := [], mtime := disk.now })
  else
    .ok (fd, disk)

/-- `safe_openat`: `openat2` confined to the tree below `base`. -/
def safeOpenat
    (base : Loc)
    (path : Path)
    (flags : OpenFlags)
    (perm : UInt32) :
    Syscall Fd := do
  let ino ← nextStIno
  call fun disk =>
    let target :=
      if flags.noFollow then disk.locate base path
      else disk.locateFollow base linkLimit base.path path
    match target with
    | .error errno => .error errno
    | .ok loc =>
        match disk.names.get? loc with
        | none =>
            if flags.creat then
              match loc.path.getLast? with
              | none => .error .EISDIR
              | some name =>
                  (disk.create ⟨loc.root, loc.path.dropLast⟩ name
                    (freshObj env disk .reg (perm &&& 0o7777) 0 [] ino)).map
                    fun made =>
                      (⟨made.1, loc.root, flags.read, flags.write,
                        flags.append, flags.pathOnly⟩, made.2)
            else
              .error .ENOENT
        | some id =>
            match disk.objs.get? id with
            | none => .error .ENOENT
            | some obj =>
                if flags.creat && flags.excl then .error .EEXIST
                else openObj disk loc.root id obj flags

/-- A directory opened below `base` as a place for `*at` calls. -/
def openDirAt
    (base : Loc)
    (path : Path)
    (noFollow : Bool) :
    Syscall Loc :=
  query fun disk =>
    if noFollow then
      match disk.locate base path with
      | .error errno => .error errno
      | .ok loc =>
          match disk.kindAt loc with
          | none => .error .ENOENT
          | some .dir => .ok loc
          | some _ => .error .ENOTDIR
    else
      disk.openDir base path

/--
`open_parent_safe_cstr`: the parent directory of a path and its last name.  A
path without parent is looked up in `base` itself.
-/
def safeParent
    (base : Loc)
    (path : Path) :
    Syscall (Loc × Name) :=
  match path.getLast? with
  | none => pure (base, dotName)
  | some name =>
      if path.dropLast = [] then
        pure (base, name)
      else do
        let dir ← openDirAt base path.dropLast false
        pure (dir, name)

/-- `fstatat` of a name in a directory -/
def fstatat
    (dir : Loc)
    (name : Name) :
    Syscall Stat :=
  query fun disk => disk.statLoc (dir.entry name)

/-- Change the object a name points to, links not followed. -/
def changeNamed
    (dir : Loc)
    (name : Name)
    (update : Disk → Obj → Obj) :
    Syscall Unit :=
  change fun disk =>
    match disk.names.get? (dir.entry name) with
    | none => .error .ENOENT
    | some id => .ok (disk.modifyObj id (update disk))

/-- The owner after `chown`; `u32::MAX` leaves an id alone. -/
def chownObj
    (uid gid : UInt32)
    (obj : Obj) :
    Obj :=
  { obj with
    uid := if uid = 0xffffffff then obj.uid else uid
    gid := if gid = 0xffffffff then obj.gid else gid }

/-- `fchownat` with `AT_SYMLINK_NOFOLLOW` -/
def fchownat
    (dir : Loc)
    (name : Name)
    (uid gid : UInt32) :
    Syscall Unit :=
  changeNamed dir name fun _ => chownObj uid gid

/-- One new time: left alone, the current time, or a given one. -/
inductive TimeChange where
  | omit
  | now
  | at (time : Timespec)
  deriving DecidableEq

def TimeChange.apply
    (change : TimeChange)
    (disk : Disk)
    (old : Timespec) :
    Timespec :=
  match change with
  | .omit => old
  | .now => disk.now
  | .at time => time

/-- The times after `utimensat`. -/
def utimeObj
    (atime mtime : TimeChange)
    (disk : Disk)
    (obj : Obj) :
    Obj :=
  { obj with
    atime := atime.apply disk obj.atime
    mtime := mtime.apply disk obj.mtime }

/-- `utimensat` with `AT_SYMLINK_NOFOLLOW` -/
def utimensat
    (dir : Loc)
    (name : Name)
    (atime mtime : TimeChange) :
    Syscall Unit :=
  changeNamed dir name (utimeObj atime mtime)

/-- The location a call reaches that follows a link at the last component. -/
def followLast
    (disk : Disk)
    (loc : Loc) :
    Except Errno Loc :=
  if disk.kindAt loc = some .lnk then env.host.leaves disk loc []
  else .ok loc

/-- A call on a path that follows a link at the last component. -/
def changeFollowed
    (dir : Loc)
    (name : Name)
    (update : Disk → Obj → Obj) :
    Syscall Unit :=
  change fun disk =>
    match followLast env disk (dir.entry name) with
    | .error errno => .error errno
    | .ok loc =>
        match disk.names.get? loc with
        | none => .error .ENOENT
        | some id => .ok (disk.modifyObj id (update disk))

/-- `fchmodat` without flags follows a link. -/
def fchmodat
    (dir : Loc)
    (name : Name)
    (perm : UInt32) :
    Syscall Unit :=
  changeFollowed env dir name fun _ obj =>
    { obj with perm := perm &&& 0o7777 }

/-- The content after truncation to `size`. -/
def truncateObj
    (size : Nat)
    (disk : Disk)
    (obj : Obj) :
    Obj :=
  { obj with
    data := obj.data.take size ++ List.replicate (size - obj.data.length) 0
    mtime := disk.now }

/-- `truncate` of a path follows a link. -/
def truncate
    (dir : Loc)
    (name : Name)
    (size : Nat) :
    Syscall Unit :=
  changeFollowed env dir name (truncateObj size)

/-! ## Calls on descriptors -/

/-- Change the object of a descriptor. -/
def changeFd
    (fd : Fd)
    (update : Disk → Obj → Obj) :
    Syscall Unit :=
  change fun disk =>
    if fd.pathOnly then .error .EBADF
    else .ok (disk.modifyObj fd.obj (update disk))

/-- `fchown` -/
def fchown
    (fd : Fd)
    (uid gid : UInt32) :
    Syscall Unit :=
  changeFd fd fun _ => chownObj uid gid

/-- `fchmod` -/
def fchmod
    (fd : Fd)
    (perm : UInt32) :
    Syscall Unit :=
  changeFd fd fun _ obj => { obj with perm := perm &&& 0o7777 }

/-- `futimens` -/
def futimens
    (fd : Fd)
    (atime mtime : TimeChange) :
    Syscall Unit :=
  changeFd fd (utimeObj atime mtime)

/-- A change of content needs a descriptor opened for writing. -/
def changeContent
    (fd : Fd)
    (failure : Errno)
    (update : Disk → Obj → Obj) :
    Syscall Unit :=
  change fun disk =>
    if fd.write && !fd.pathOnly then
      .ok (disk.modifyObj fd.obj (update disk))
    else
      .error failure

/-- `ftruncate` -/
def ftruncate
    (fd : Fd)
    (size : Nat) :
    Syscall Unit :=
  changeContent fd .EINVAL (truncateObj size)

/-- `pwrite` -/
def pwrite
    (fd : Fd)
    (bytes : List UInt8)
    (offset : Nat) :
    Syscall Unit :=
  changeContent fd .EBADF fun disk obj =>
    { obj with
      data := Disk.spliceData obj.data bytes
        (if fd.append then obj.data.length else offset)
      mtime := disk.now }

/-- `fallocate` -/
def fallocate
    (fd : Fd)
    (mode : UInt32)
    (offset length : Nat) :
    Syscall Unit :=
  changeContent fd .EBADF fun disk obj =>
    { obj with
      data := env.host.fallocated mode offset length obj.data
      mtime := disk.now }

/-- The object of a descriptor. -/
def fdObj
    (fd : Fd) :
    Syscall Obj :=
  query fun disk =>
    match disk.objs.get? fd.obj with
    | none => .error .EBADF
    | some obj => .ok obj

/-- `fstat` -/
def fstat
    (fd : Fd) :
    Syscall Stat :=
  query fun disk =>
    match disk.objs.get? fd.obj with
    | none => .error .EBADF
    | some obj => .ok (disk.statObj fd.root fd.obj obj)

/-! ## Reads of a layer -/

/-- `DataSource::statat` without following a link -/
def statat
    (root : Root)
    (path : Path) :
    Syscall Stat :=
  query fun disk => disk.statat root path

/-- `DataSource::file_exists` -/
def fileExists
    (root : Root)
    (path : Path) :
    Syscall Bool :=
  query fun disk => disk.fileExists root path

/-- Whether the directory streams of a layer carry file types. -/
def reportsType
    (layerIdx : Nat) : Bool :=
  (env.layers[layerIdx]?.map (·.reportsType)).getD true

/-- `DataSource::opendir` of a layer, read to its end -/
def opendir
    (layerIdx : Nat)
    (path : Path) :
    Syscall (List DirEntry) :=
  query fun disk =>
    disk.opendir (reportsType env layerIdx) (.layer layerIdx) path

/-- `DataSource::readlinkat` -/
def readlinkat
    (root : Root)
    (path : Path) :
    Syscall (List UInt8) :=
  query fun disk => disk.readlinkat root path

/-! ## Extended attributes -/

/-- What the host answers before it looks at an attribute for reading. -/
def readableXattr
    (attr : Name) :
    Except Errno Unit :=
  if !env.host.xattrs then .error .ENOTSUP
  else if Xattr.isTrusted attr && !env.host.trustedXattrs then
    .error .ENODATA
  else .ok ()

/-- What the host answers before it changes an attribute. -/
def writableXattr
    (attr : Name) :
    Except Errno Unit :=
  if !env.host.xattrs then .error .ENOTSUP
  else if Xattr.isTrusted attr && !env.host.trustedXattrs then .error .EPERM
  else .ok ()

/-- A value has to fit the caller's buffer. -/
def fitting
    (size : Nat)
    (value : List UInt8) :
    Except Errno (List UInt8) :=
  if value.length ≤ size then .ok value else .error .ERANGE

/-- `DataSource::getxattr` with a buffer of `size` bytes -/
def getxattr
    (root : Root)
    (path : Path)
    (attr : Name)
    (size : Nat) :
    Syscall (List UInt8) :=
  query fun disk => do
    readableXattr env attr
    fitting size (← disk.getxattr root path attr)

/-- `fgetxattr` -/
def fgetxattr
    (fd : Fd)
    (attr : Name)
    (size : Nat) :
    Syscall (List UInt8) :=
  query fun disk => do
    readableXattr env attr
    fitting size (← disk.xattrOf fd.obj attr)

/-- `fsetxattr` without flags; a default ACL is for directories only. -/
def fsetxattr
    (fd : Fd)
    (attr : Name)
    (value : List UInt8) :
    Syscall Unit :=
  change fun disk => do
    writableXattr env attr
    match disk.objs.get? fd.obj with
    | none => .error .EBADF
    | some obj =>
        if attr = Xattr.posixAclDefault && obj.kind ≠ .dir then
          .error .EACCES
        else
          .ok (disk.modifyObj fd.obj fun old =>
            { old with xattrs := old.xattrs.set attr value })

/-- `flistxattr` -/
def flistxattr
    (fd : Fd) :
    Syscall (List Name) :=
  query fun disk =>
    if !env.host.xattrs then .error .ENOTSUP
    else
      match disk.objs.get? fd.obj with
      | none => .error .EBADF
      | some obj => .ok (obj.xattrs.toList.map (·.1))

/--
The name a path through `/proc/self/fd` reaches.  The walk is not confined: a
symbolic link before the last component leads wherever the host says.
-/
def procLocate
    (disk : Disk)
    (root : Root) :
    Path → Path → Except Errno Loc
  | cwd, [] => .ok ⟨root, cwd⟩
  | cwd, [name] => .ok ⟨root, cwd ++ [name]⟩
  | cwd, name :: rest =>
      match disk.kindAt ⟨root, cwd ++ [name]⟩ with
      | none => .error .ENOENT
      | some .dir => procLocate disk root (cwd ++ [name]) rest
      | some .lnk => env.host.leaves disk ⟨root, cwd ++ [name]⟩ rest
      | some _ => .error .ENOTDIR

/-- `lsetxattr` on a path through `/proc/self/fd` -/
def lsetxattr
    (root : Root)
    (path : Path)
    (attr : Name)
    (value : List UInt8)
    (create replace : Bool) :
    Syscall Unit :=
  change fun disk => do
    writableXattr env attr
    let loc ← procLocate env disk root [] path
    match disk.names.get? loc with
    | none => .error .ENOENT
    | some id =>
        match disk.xattrOf id attr with
        | .ok _ =>
            if create then .error .EEXIST
            else .ok (disk.modifyObj id fun old =>
              { old with xattrs := old.xattrs.set attr value })
        | .error _ =>
            if replace then .error .ENODATA
            else .ok (disk.modifyObj id fun old =>
              { old with xattrs := old.xattrs.set attr value })

/-- `lremovexattr` on a path through `/proc/self/fd` -/
def lremovexattr
    (root : Root)
    (path : Path)
    (attr : Name) :
    Syscall Unit :=
  change fun disk => do
    writableXattr env attr
    let loc ← procLocate env disk root [] path
    match disk.names.get? loc with
    | none => .error .ENOENT
    | some id =>
        match disk.xattrOf id attr with
        | .error errno => .error errno
        | .ok _ => .ok (disk.modifyObj id fun old =>
            { old with xattrs := old.xattrs.remove attr })

end Syscall

end FuseOverlay
