import FuseOverlay.Basic

namespace FuseOverlay

/-!
# The underlying file systems

The daemon holds a descriptor of every layer root and of the work directory.
A name is a location, a root together with the components below it; names
point to objects, so hard links are two names of one object, and an open file
keeps its object when the name goes.  The queries and changes below follow the
system calls the program issues.  `resolveDir` is the walk of `openat2` with
`RESOLVE_IN_ROOT`: symbolic links in the middle of a path are followed, and
neither an absolute target nor `..` leaves the directory the walk started from.
-/

/-- A directory tree the daemon holds a descriptor of. -/
inductive Root where
  | layer (idx : Nat)
  | workdir
  deriving Repr, DecidableEq

/-- A name: a root and the components below it. -/
structure Loc where
  root : Root
  path : Path
  deriving Repr, DecidableEq

namespace Loc

/-- The location of a name inside a directory. -/
def child
    (loc : Loc)
    (name : Name) :
    Loc :=
  ⟨loc.root, loc.path ++ [name]⟩

/-- What a last component names: `.` is the directory itself. -/
def entry
    (loc : Loc)
    (name : Name) :
    Loc :=
  if name = dotName then loc else loc.child name

/-- Whether a location lies at or below another one. -/
def isUnder
    (loc base : Loc) : Bool :=
  loc.root = base.root && base.path.isPrefixOf loc.path

/-- The components below `base`. -/
def below
    (loc base : Loc) : Path :=
  loc.path.drop base.path.length

end Loc

/-- Identity of a file system object; never reused. -/
abbrev ObjId := Nat

/-- `struct timespec` -/
structure Timespec where
  sec : Int
  nsec : Nat
  deriving Repr, DecidableEq

/-- A file system object.  `data` is the content of a regular file or the
target of a symbolic link, `stIno` the inode number the file system reports. -/
structure Obj where
  kind : FileKind
  perm : UInt32
  uid : UInt32
  gid : UInt32
  rdev : UInt64
  data : List UInt8
  atime : Timespec
  mtime : Timespec
  xattrs : FMap Name (List UInt8)
  stIno : UInt64

namespace Obj

/-- A character device with device number 0:0. -/
def isWhiteoutDev (obj : Obj) : Bool :=
  obj.kind = .chr && obj.rdev = 0

end Obj

/--
All trees together, the objects, and the clock of the running call.  Every name
leads to an object, and the next object is a new one.
-/
structure Disk where
  names : FMap Loc ObjId
  objs : FMap ObjId Obj
  nextObj : ObjId
  now : Timespec
  dev : Root → UInt64
  named :
    ∀ {loc id}, names.get? loc = some id → (objs.get? id).isSome = true
  bounded : ∀ {id obj}, objs.get? id = some obj → id < nextObj

/-- `libc::stat`, as far as the program reads it. -/
structure Stat where
  ino : UInt64
  dev : UInt64
  mode : Mode
  nlink : Nat
  uid : UInt32
  gid : UInt32
  rdev : UInt64
  size : Nat
  atime : Timespec
  mtime : Timespec
  deriving DecidableEq

/-- A directory entry; `none` as type is `DT_UNKNOWN`. -/
structure DirEntry where
  name : Name
  ino : UInt64
  dtype : Option FileKind
  deriving DecidableEq

/-- The access mode and the flags of an open call that the program tests. -/
structure OpenFlags where
  read : Bool
  write : Bool
  creat : Bool
  excl : Bool
  trunc : Bool
  append : Bool
  noFollow : Bool
  directory : Bool
  direct : Bool
  pathOnly : Bool
  deriving DecidableEq

namespace OpenFlags

/-- `O_RDONLY` -/
def rdonly : OpenFlags :=
  ⟨true, false, false, false, false, false, false, false, false, false⟩

end OpenFlags

/-- An open file descriptor: its object and where it was opened. -/
structure Fd where
  obj : ObjId
  root : Root
  read : Bool
  write : Bool
  append : Bool
  pathOnly : Bool
  deriving DecidableEq

/-- The number of symbolic links one walk may follow. -/
def linkLimit : Nat := 40

namespace Disk

/-! ## Queries -/

/-- The object at a location, its parents not looked at. -/
def find?
    (disk : Disk)
    (loc : Loc) :
    Option Obj :=
  (disk.names.get? loc).bind disk.objs.get?

/-- The file type at a location. -/
def kindAt
    (disk : Disk)
    (loc : Loc) :
    Option FileKind :=
  (disk.find? loc).map (·.kind)

/--
Walk the components `todo` from `cwd` to a directory.  At a symbolic link the
walk goes on with `onLink`, given the new starting point and all that is left.
-/
def walk
    (disk : Disk)
    (base : Loc)
    (onLink : Path → Path → Except Errno Path) :
    Path → Path → Except Errno Path
  | cwd, [] => .ok cwd
  | cwd, name :: rest =>
      if name = dotName ∨ name = [] then
        walk disk base onLink cwd rest
      else if name = dotDotName then
        walk disk base onLink
          (if cwd = base.path then cwd else cwd.dropLast) rest
      else
        let next : Path := cwd ++ [name]
        match disk.find? ⟨base.root, next⟩ with
        | none => .error .ENOENT
        | some obj =>
            match obj.kind with
            | .dir => walk disk base onLink next rest
            | .lnk =>
                onLink
                  (if obj.data.head? = some slash then base.path else cwd)
                  (splitPath obj.data ++ rest)
            | _ => .error .ENOTDIR

/-- Resolve a path to a directory, following at most `budget` links. -/
def resolveDir
    (disk : Disk)
    (base : Loc) :
    Nat → Path → Path → Except Errno Path
  | 0 => disk.walk base fun _ _ => .error .ELOOP
  | budget + 1 => disk.walk base (resolveDir disk base budget)

/-- The directory at `path` below `base`, all links followed. -/
def openDir
    (disk : Disk)
    (base : Loc)
    (path : Path) :
    Except Errno Loc :=
  (disk.resolveDir base linkLimit base.path path).map (⟨base.root, ·⟩)

/--
`open_parent_safe`: the location of the last component, its parent resolved.
The empty path is the directory itself.
-/
def locate
    (disk : Disk)
    (base : Loc)
    (path : Path) :
    Except Errno Loc :=
  match path.getLast? with
  | none => .ok base
  | some name =>
      match disk.openDir base path.dropLast with
      | .error errno => .error errno
      | .ok dir => .ok (dir.entry name)

/-- `locate`, then follow a symbolic link at the last component. -/
def locateFollow
    (disk : Disk)
    (base : Loc) :
    Nat → Path → Path → Except Errno Loc
  | budget, cwd, path =>
      match path.getLast? with
      | none => .ok ⟨base.root, cwd⟩
      | some name =>
          if name = dotName ∨ name = dotDotName ∨ name = [] then
            (disk.resolveDir base linkLimit cwd path).map (⟨base.root, ·⟩)
          else
          match disk.resolveDir base linkLimit cwd path.dropLast with
          | .error errno => .error errno
          | .ok dir =>
              let loc : Loc := ⟨base.root, dir ++ [name]⟩
              match disk.find? loc with
              | none => .ok loc
              | some obj =>
                  if obj.kind = .lnk then
                    match budget with
                    | 0 => .error .ELOOP
                    | budget + 1 =>
                        locateFollow disk base budget
                          (if obj.data.head? = some slash then base.path
                            else dir)
                          (splitPath obj.data)
                  else
                    .ok loc

/-- The number of names of an object. -/
def linkCount
    (disk : Disk)
    (id : ObjId) : Nat :=
  (disk.names.toList.filter fun entry => entry.2 = id).length

/-- The `stat` of an object seen through a root. -/
def statObj
    (disk : Disk)
    (root : Root)
    (id : ObjId)
    (obj : Obj) :
    Stat where
  ino := obj.stIno
  dev := disk.dev root
  mode := ⟨some obj.kind, obj.perm⟩
  nlink := disk.linkCount id
  uid := obj.uid
  gid := obj.gid
  rdev := obj.rdev
  size := obj.data.length
  atime := obj.atime
  mtime := obj.mtime

/-- `fstatat` without following a link at the location. -/
def statLoc
    (disk : Disk)
    (loc : Loc) :
    Except Errno Stat :=
  match disk.names.get? loc with
  | none => .error .ENOENT
  | some id =>
      match disk.objs.get? id with
      | none => .error .ENOENT
      | some obj => .ok (disk.statObj loc.root id obj)

/-- `DirectAccess::statat` with `AT_SYMLINK_NOFOLLOW` -/
def statat
    (disk : Disk)
    (root : Root)
    (path : Path) :
    Except Errno Stat :=
  match disk.locate ⟨root, []⟩ path with
  | .error errno => .error errno
  | .ok loc => disk.statLoc loc

/-- `DirectAccess::file_exists` -/
def fileExists
    (disk : Disk)
    (root : Root)
    (path : Path) :
    Except Errno Bool :=
  match disk.locate ⟨root, []⟩ path with
  | .error errno => .error errno
  | .ok loc => .ok (disk.find? loc).isSome

/-- The names stored in a directory. -/
def list
    (disk : Disk)
    (loc : Loc) :
    List Name :=
  disk.names.toList.filterMap fun entry =>
    if entry.1.root = loc.root ∧ entry.1.path.dropLast = loc.path then
      entry.1.path.getLast?
    else
      none

/-- One entry of a directory stream. -/
def dirEntry
    (disk : Disk)
    (reportsType : Bool)
    (loc : Loc)
    (name : Name) :
    DirEntry :=
  match disk.find? (loc.child name) with
  | some obj => ⟨name, obj.stIno, if reportsType then some obj.kind else none⟩
  | none => ⟨name, 0, none⟩

/--
`DirectAccess::opendir` and its stream: `.` and `..` come first, and a link at
the last component is not followed.
-/
def opendir
    (disk : Disk)
    (reportsType : Bool)
    (root : Root)
    (path : Path) :
    Except Errno (List DirEntry) :=
  match disk.locate ⟨root, []⟩ path with
  | .error errno => .error errno
  | .ok loc =>
      match disk.kindAt loc with
      | none => .error .ENOENT
      | some .dir =>
          .ok (([dotName, dotDotName] ++ disk.list loc).map
            (disk.dirEntry reportsType loc))
      | some _ => .error .ENOTDIR

/-- The value of an extended attribute of an object. -/
def xattrOf
    (disk : Disk)
    (id : ObjId)
    (attr : Name) :
    Except Errno (List UInt8) :=
  match disk.objs.get? id with
  | none => .error .ENOENT
  | some obj =>
      match obj.xattrs.get? attr with
      | none => .error .ENODATA
      | some value => .ok value

/-- `DirectAccess::getxattr` -/
def getxattr
    (disk : Disk)
    (root : Root)
    (path : Path)
    (attr : Name) :
    Except Errno (List UInt8) :=
  match disk.locate ⟨root, []⟩ path with
  | .error errno => .error errno
  | .ok loc =>
      match disk.names.get? loc with
      | none => .error .ENOENT
      | some id => disk.xattrOf id attr

/-- `DirectAccess::readlinkat` -/
def readlinkat
    (disk : Disk)
    (root : Root)
    (path : Path) :
    Except Errno (List UInt8) :=
  match disk.locate ⟨root, []⟩ path with
  | .error errno => .error errno
  | .ok loc =>
      match disk.find? loc with
      | none => .error .ENOENT
      | some obj => if obj.kind = .lnk then .ok obj.data else .error .EINVAL

/-! ## Changes -/

/-- Change an object in place. -/
def modifyObj
    (disk : Disk)
    (id : ObjId)
    (change : Obj → Obj) :
    Disk where
  names := disk.names
  objs := disk.objs.modify id change
  nextObj := disk.nextObj
  now := disk.now
  dev := disk.dev
  named := by
    intro loc query stored
    rw [FMap.get?_modify]
    split
    · next same =>
        simpa [same] using disk.named stored
    · exact disk.named stored
  bounded := by
    intro query obj stored
    rw [FMap.get?_modify] at stored
    split at stored
    · obtain ⟨old, oldStored, -⟩ := Option.map_eq_some_iff.mp stored
      next same => exact same ▸ disk.bounded oldStored
    · exact disk.bounded stored

/-- Other names for the objects there are. -/
def withNames
    (disk : Disk)
    (names : FMap Loc ObjId)
    (known :
      ∀ {loc id}, names.get? loc = some id →
        ∃ old, disk.names.get? old = some id) :
    Disk :=
  { disk with
    names := names
    named := fun stored => by
      obtain ⟨old, oldStored⟩ := known stored
      exact disk.named oldStored }

/-- One more name for an object. -/
def addName
    (disk : Disk)
    (loc old : Loc)
    (id : ObjId)
    (stored : disk.names.get? old = some id) :
    Disk :=
  disk.withNames (disk.names.set loc id) fun {query found} foundStored => by
    rw [FMap.get?_set] at foundStored
    split at foundStored
    · exact ⟨old, foundStored ▸ stored⟩
    · exact ⟨query, foundStored⟩

/-- A name goes. -/
def dropName
    (disk : Disk)
    (loc : Loc) :
    Disk :=
  disk.withNames (disk.names.remove loc) fun {query found} foundStored => by
    rw [FMap.get?_remove] at foundStored
    split at foundStored
    · cases foundStored
    · exact ⟨query, foundStored⟩

/-- Names move. -/
def moveNames
    (disk : Disk)
    (place : Loc → Option Loc) :
    Disk :=
  disk.withNames (disk.names.rekey place) fun foundStored => by
    obtain ⟨old, oldStored, -⟩ := FMap.exists_of_get?_rekey foundStored
    exact ⟨old, oldStored⟩

/-- A new object under a new name. -/
def addObj
    (disk : Disk)
    (loc : Loc)
    (obj : Obj) :
    Disk where
  names := disk.names.set loc disk.nextObj
  objs := disk.objs.set disk.nextObj obj
  nextObj := disk.nextObj + 1
  now := disk.now
  dev := disk.dev
  named := by
    intro query id stored
    rw [FMap.get?_set] at stored
    rw [FMap.get?_set]
    split at stored
    · simp [Option.some.inj stored]
    · split
      · rfl
      · exact disk.named stored
  bounded := by
    intro id found stored
    rw [FMap.get?_set] at stored
    split at stored
    · next same => exact same ▸ Nat.lt_succ_self _
    · exact Nat.lt_succ_of_lt (disk.bounded stored)

/-- No trees at all. -/
def empty : Disk where
  names := ∅
  objs := ∅
  nextObj := 0
  now := ⟨0, 0⟩
  dev := fun _ => 0
  named := by simp
  bounded := by simp

/-- The trees that hold the given objects, each under one name. -/
def ofList (entries : List (Loc × Obj)) : Disk :=
  entries.foldl (fun disk entry => disk.addObj entry.1 entry.2) empty

/-- A change of a directory's entries sets its modification time. -/
def touch
    (disk : Disk)
    (loc : Loc) :
    Disk :=
  match disk.names.get? loc with
  | none => disk
  | some id => disk.modifyObj id fun obj => { obj with mtime := disk.now }

/-- Whether a directory has an entry. -/
def hasEntries
    (disk : Disk)
    (loc : Loc) : Bool :=
  !(disk.list loc).isEmpty

/-- The last components that no call may create, remove or rename. -/
def isSpecial (name : Name) : Bool :=
  name = dotName || name = dotDotName || name = []

/-- Make a new object under a name that is not in use. -/
def create
    (disk : Disk)
    (dir : Loc)
    (name : Name)
    (obj : Obj) :
    Except Errno (ObjId × Disk) :=
  match disk.kindAt dir with
  | none => .error .ENOENT
  | some .dir =>
      if isSpecial name || (disk.names.get? (dir.child name)).isSome then
        .error .EEXIST
      else
        .ok (disk.nextObj, (disk.addObj (dir.child name) obj).touch dir)
  | some _ => .error .ENOTDIR

/-- `linkat` without flags -/
def linkat
    (disk : Disk)
    (oldDir : Loc)
    (oldName : Name)
    (newDir : Loc)
    (newName : Name) :
    Except Errno Disk :=
  match stored : disk.names.get? (oldDir.entry oldName) with
  | none => .error .ENOENT
  | some id =>
      if disk.kindAt (oldDir.entry oldName) = some .dir then
        .error .EPERM
      else if disk.kindAt newDir ≠ some .dir then
        .error .ENOENT
      else if isSpecial newName
          || (disk.names.get? (newDir.child newName)).isSome then
        .error .EEXIST
      else
        .ok ((disk.addName (newDir.child newName) (oldDir.entry oldName) id
          stored).touch newDir)

/-- `unlinkat`; `removeDir` is `AT_REMOVEDIR`. -/
def unlinkat
    (disk : Disk)
    (dir : Loc)
    (name : Name)
    (removeDir : Bool) :
    Except Errno Disk :=
  if isSpecial name then
    .error (if removeDir then .EINVAL else .EISDIR)
  else
  match disk.kindAt (dir.child name) with
  | none => .error .ENOENT
  | some kind =>
      if kind = .dir && !removeDir then
        .error .EISDIR
      else if removeDir && kind ≠ .dir then
        .error .ENOTDIR
      else if removeDir && disk.hasEntries (dir.child name) then
        .error .ENOTEMPTY
      else
        .ok ((disk.dropName (dir.child name)).touch dir)

/-- The new place of a location when the tree at `src` replaces `dst`. -/
def movePlace
    (src dst loc : Loc) :
    Option Loc :=
  if loc.isUnder src then
    some ⟨dst.root, dst.path ++ loc.below src⟩
  else if loc.isUnder dst then
    none
  else
    some loc

/-- The new place of a location when two trees are exchanged. -/
def exchangePlace
    (src dst loc : Loc) :
    Option Loc :=
  if loc.isUnder src then
    some ⟨dst.root, dst.path ++ loc.below src⟩
  else if loc.isUnder dst then
    some ⟨src.root, src.path ++ loc.below dst⟩
  else
    some loc

/-- The checks of `renameat` when the destination may be replaced. -/
def renameCheck
    (disk : Disk)
    (src dst : Loc) :
    Except Errno Unit :=
  match disk.kindAt src with
  | none => .error .ENOENT
  | some srcKind =>
      if srcKind = .dir && dst.isUnder src then
        .error .EINVAL
      else
        match disk.kindAt dst with
        | none => .ok ()
        | some dstKind =>
            if srcKind = .dir && dstKind ≠ .dir then
              .error .ENOTDIR
            else if srcKind ≠ .dir && dstKind = .dir then
              .error .EISDIR
            else if dstKind = .dir && disk.hasEntries dst then
              .error .ENOTEMPTY
            else
              .ok ()

/-- `renameat`: two names of one object are left alone. -/
def renameat
    (disk : Disk)
    (oldDir : Loc)
    (oldName : Name)
    (newDir : Loc)
    (newName : Name) :
    Except Errno Disk :=
  let src := oldDir.child oldName
  let dst := newDir.child newName
  if isSpecial oldName || isSpecial newName then
    .error .EBUSY
  else if disk.kindAt newDir ≠ some .dir then
    .error .ENOENT
  else if (disk.names.get? src).isSome
      && disk.names.get? src = disk.names.get? dst then
    .ok disk
  else
    match disk.renameCheck src dst with
    | .error errno => .error errno
    | .ok () =>
        .ok (((disk.moveNames (movePlace src dst)).touch oldDir).touch newDir)

/-- `renameat2` with `RENAME_EXCHANGE` -/
def renameExchange
    (disk : Disk)
    (oldDir : Loc)
    (oldName : Name)
    (newDir : Loc)
    (newName : Name) :
    Except Errno Disk :=
  let src := oldDir.child oldName
  let dst := newDir.child newName
  if isSpecial oldName || isSpecial newName then
    .error .EBUSY
  else if (disk.kindAt src).isNone || (disk.kindAt dst).isNone then
    .error .ENOENT
  else if src = dst then
    .ok disk
  else if dst.isUnder src || src.isUnder dst then
    .error .EINVAL
  else
    .ok (((disk.moveNames (exchangePlace src dst)).touch oldDir).touch newDir)

/-- Write `bytes` at `offset`, filling a gap with zeros. -/
def spliceData
    (old bytes : List UInt8)
    (offset : Nat) :
    List UInt8 :=
  old.take offset ++ List.replicate (offset - old.length) 0 ++ bytes ++
    old.drop (offset + bytes.length)

end Disk

end FuseOverlay
