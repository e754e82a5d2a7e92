import FuseOverlay.Syscall

namespace FuseOverlay

/-!
# Whiteouts and opaque directories

A whiteout is a character device 0:0 under the deleted name, or a regular file
with the prefix `.wh.`.  A directory is opaque by one of three extended
attributes or by a sentinel file.
-/

namespace Whiteout

open Syscall

variable (env : Env)

/-- The attributes that mark a directory opaque, in the order of the tests. -/
def opaqueXattrs : List Name :=
  [Xattr.privilegedOpaque, Xattr.unprivilegedOpaque, Xattr.opaqueXattr]

/-- Whether one of the attributes is there and starts with `y`. -/
def hasOpaqueXattr
    (root : Root)
    (path : Path) :
    List Name → Syscall Bool
  | [] => pure false
  | attr :: rest => do
      let value ← (getxattr env root path attr 16).attempt
      match value with
      | .ok (first :: _) =>
          if first = 121 then pure true else hasOpaqueXattr root path rest
      | _ => hasOpaqueXattr root path rest

/-- `is_directory_opaque` -/
def isDirectoryOpaque
    (root : Root)
    (path : Path) :
    Syscall Bool := do
  if ← hasOpaqueXattr env root path opaqueXattrs then
    pure true
  else do
    let found ← (fileExists root (path ++ [opaqueWhiteout])).attempt
    match found with
    | .ok answer => pure answer
    | .error .ENOENT => pure false
    | .error errno => Act.fail errno

/-- The flags `O_CREAT | O_WRONLY` -/
def creatWronly : OpenFlags :=
  { OpenFlags.rdonly with read := false, write := true, creat := true }

/-- The attribute part of `set_fd_opaque`: whether an attribute was set. -/
def setOpaqueXattr
    (fd : Fd) :
    Syscall Bool := do
  match ← (fsetxattr env fd Xattr.privilegedOpaque [121]).attempt with
  | .ok () => pure true
  | .error .ENOTSUP => pure false
  | .error .EPERM => do
      match ← (fsetxattr env fd Xattr.unprivilegedOpaque [121]).attempt with
      | .ok () => pure true
      | .error .ENOTSUP => pure false
      | .error errno => Act.fail errno
  | .error errno => Act.fail errno

/-- `set_fd_opaque` of a directory with its descriptor -/
def setFdOpaque
    (dir : Loc)
    (fd : Fd) :
    Syscall Unit := do
  let xattrSet ← setOpaqueXattr env fd
  let sentinel ←
    (safeOpenat env dir [opaqueWhiteout] creatWronly 0o700).attempt
  match sentinel with
  | .ok _ => pure ()
  | .error errno => if xattrSet then pure () else Act.fail errno

/-- `is_chardev_whiteout` -/
def isChardevWhiteout (st : Stat) : Bool :=
  st.mode.kind = some .chr && st.rdev = 0

/-- The parent directory of a whiteout, opened without following a link. -/
def whiteoutDir
    (upper : Loc)
    (parentPath : Path) :
    Syscall Loc :=
  if parentPath = [] then pure upper else openDirAt upper parentPath true

/-- The device part of `delete_whiteout`. -/
def deleteDevice
    (dir : Loc)
    (name : Name) :
    Syscall Unit := do
  match ← (fstatat dir name).attempt with
  | .ok st => Act.runIf (isChardevWhiteout st) (unlinkat dir name false)
  | .error _ => pure ()

/-- `delete_whiteout` in a directory that is open already -/
def deleteWhiteoutAt
    (dir : Loc)
    (name : Name) :
    Syscall Unit := do
  let canMknod ← Act.gets fun os => os.canMknodFlag
  Act.runIf canMknod (deleteDevice dir name)
  match ← (unlinkat dir (whName name) false).attempt with
  | .ok () => pure ()
  | .error .ENOENT => pure ()
  | .error errno => Act.fail errno

/-- `delete_whiteout` -/
def deleteWhiteout
    (upper : Loc)
    (dirfd : Option Loc)
    (parentPath : Path)
    (name : Name) :
    Syscall Unit := do
  match dirfd with
  | some dir => deleteWhiteoutAt dir name
  | none => do
      let dir ← whiteoutDir upper parentPath
      deleteWhiteoutAt dir name

/-- The fallback of `create_whiteout`: a regular file `.wh.<name>`. -/
def createWhFile
    (dir : Loc)
    (name : Name) :
    Syscall Unit := do
  let _ ← safeOpenat env dir [whName name] creatWronly 0o700

/-- `create_whiteout` -/
def createWhiteout
    (upper : Loc)
    (parentPath : Path)
    (name : Name)
    (canMknod : Bool) :
    Syscall Unit := do
  let dir ← whiteoutDir upper parentPath
  if canMknod then do
    match ← (mknodat env dir name ⟨some .chr, 0o700⟩ 0).attempt with
    | .ok () => pure ()
    | .error .EEXIST => do
        match ← (fstatat dir name).attempt with
        | .ok st => Act.check (isChardevWhiteout st) .EEXIST
        | .error _ => Act.fail .EEXIST
    | .error .EPERM | .error .ENOTSUP => do
        Act.modify fun os => { os with canMknodFlag := false }
        createWhFile env dir name
    | .error errno => Act.fail errno
  else
    createWhFile env dir name

end Whiteout

end FuseOverlay
