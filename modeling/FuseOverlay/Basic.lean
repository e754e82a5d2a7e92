import Mathlib.Algebra.Group.Int.Defs
import Mathlib.Algebra.GroupWithZero.Nat
import Mathlib.Data.Finset.Basic
import FuseOverlay.Lib.FMap

namespace FuseOverlay

/-!
# Names, paths and error numbers

Names are the bytes the kernel and the directory streams deliver.  A path is
kept as its components; `[]` is the root of a layer, written `.` in the source.
`renderPath` gives the bytes the source builds from the components.
-/

/-- One path component. -/
abbrev Name := List UInt8

/-- A path relative to a layer root, as its components. -/
abbrev Path := List Name

/-- The bytes of an ASCII literal. -/
def ascii (text : String) : List UInt8 :=
  text.toList.map fun character => character.val.toUInt8

/-- The byte `/`. -/
def slash : UInt8 := 47

/-- `b"."` -/
def dotName : Name := [46]

/-- `b".."` -/
def dotDotName : Name := [46, 46]

/-- `b".wh."`, the prefix of whiteout files. -/
def whPrefix : Name := [46, 119, 104, 46]

/-- `xattr::OPAQUE_WHITEOUT`, that is `b".wh..wh..opq"`. -/
def opaqueWhiteout : Name :=
  ascii ".wh..wh..opq"

/-- The name of the `.wh.` file that whites out `name`. -/
def whName (name : Name) : Name :=
  whPrefix ++ name

/-- `name.starts_with(b".wh.")` -/
def hasWhPrefix (name : Name) : Bool :=
  whPrefix.isPrefixOf name

@[simp] theorem hasWhPrefix_whName
    (name : Name) :
    hasWhPrefix (whName name) = true := by
  simp [hasWhPrefix, whName, whPrefix]

theorem whName_injective :
    Function.Injective whName := by
  intro first second same
  exact List.append_cancel_left same

/-- Join components with `/`, as `compute_path` does after its loop. -/
def joinPath : Path → List UInt8
  | [] => []
  | [name] => name
  | name :: rest => name ++ slash :: joinPath rest

/-- The bytes of a path: `.` for the root, else the joined components. -/
def renderPath : Path → List UInt8
  | [] => dotName
  | path => joinPath path

/-- Split bytes at `/`. -/
def splitPath (bytes : List UInt8) : Path :=
  bytes.splitOn slash

/-- The error numbers the program tests for or replies. -/
inductive Errno where
  | EPERM
  | ENOENT
  | EIO
  | ENXIO
  | EBADF
  | EBUSY
  | ENOMEM
  | EACCES
  | EEXIST
  | EXDEV
  | ENOTDIR
  | EISDIR
  | EINVAL
  | EROFS
  | EMLINK
  | ERANGE
  | ENAMETOOLONG
  | ENOSYS
  | ENOTEMPTY
  | ELOOP
  | ENODATA
  | ENOTSUP
  | other (code : Nat)
  deriving Repr, DecidableEq

/-- The file types of `st_mode & S_IFMT`. -/
inductive FileKind where
  | reg
  | dir
  | lnk
  | chr
  | blk
  | fifo
  | sock
  deriving Repr, DecidableEq

/--
A `mode_t`: the type bits and the low twelve permission bits.  A value without
type bits (the source writes plain `0`) has no kind.
-/
structure Mode where
  kind : Option FileKind
  perm : UInt32
  deriving Repr, DecidableEq

namespace Mode

/-- `libc::S_IFDIR` without permission bits. -/
def ifDir : Mode := ⟨some .dir, 0⟩

/-- The mode `0`. -/
def zero : Mode := ⟨none, 0⟩

/-- `(mode & S_IFMT) == S_IFDIR` -/
def isDir (mode : Mode) : Bool :=
  mode.kind = some .dir

end Mode

end FuseOverlay
