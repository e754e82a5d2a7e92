import FuseOverlay.DiskTwins
import FuseOverlay.Looking

namespace FuseOverlay

/-!
# Requests that only look

Two states that differ in attributes the mount does not read are twins.  The
requests that show names and owners, `lookup`, `getattr`, `readlink` and the
directory streams, reply the same in twins and lead to twins, so a whole run of
them cannot tell two twins apart.
-/

open Act (Agrees)

/-- The attribute carries the owner of an object on one of the layers. -/
def Env.ReadsOwner
    (env : Env)
    (names : FMap Loc ObjId)
    (id : ObjId)
    (attr : Name) : Prop :=
  ∃ idx path layer, names.get? ⟨.layer idx, path⟩ = some id ∧
    env.layers[idx]? = some layer ∧
    Override.overrideXattr layer.statOverrideMode = some attr

/-- The attributes that a mount reads of an object by itself. -/
def Env.Reads
    (env : Env)
    (names : FMap Loc ObjId)
    (id : ObjId)
    (attr : Name) : Prop :=
  attr ∈ Whiteout.opaqueXattrs ∨ env.ReadsOwner names id attr

/-- The trees are twins for the mount, the rest is the same. -/
structure Os.Twin
    (env : Env)
    (first second : Os) : Prop where
  disk : Disk.Twin (env.Reads first.disk.names) first.disk second.disk
  counter : first.wdCounter = second.wdCounter
  flag : first.canMknodFlag = second.canMknodFlag
  faults : first.faults = second.faults
  inos : first.inos = second.inos

/-- The states agree in everything but attributes the mount does not read. -/
structure Sys.Twin
    (env : Env)
    (first second : Sys) : Prop where
  os : Os.Twin env first.os second.os
  nodes : first.nodes = second.nodes
  inodes : first.inodes = second.inodes
  files : first.openFiles = second.openFiles
  nextFh : first.nextFh = second.nextFh
  dirs : first.openDirs = second.openDirs
  nextDh : first.nextDh = second.nextDh

namespace Syscall

open Whiteout

variable {env : Env}

/-! ## System calls -/

theorem agrees_takeFault :
    Agrees (Os.Twin env) takeFault := by
  intro first second twin
  unfold takeFault
  rw [← twin.faults]
  cases first.faults with
  | nil =>
      exact ⟨rfl, twin⟩
  | cons fault rest =>
      cases fault with
      | none =>
          exact ⟨rfl, twin.disk, twin.counter, twin.flag, rfl, twin.inos⟩
      | some errno =>
          exact ⟨rfl, twin.disk, twin.counter, twin.flag, rfl, twin.inos⟩

/-- A call that reads the same from twins. -/
theorem agrees_query
    {α : Type}
    {read : Disk → Except Errno α}
    (same :
      ∀ first second, Disk.Twin (env.Reads first.names) first second →
        read first = read second) :
    Agrees (Os.Twin env) (query read) := by
  refine .bind agrees_takeFault fun _ => ?_
  intro first second twin
  exact ⟨same _ _ twin.disk, twin⟩

theorem agrees_statat
    (root : Root)
    (path : Path) :
    Agrees (Os.Twin env) (statat root path) :=
  agrees_query fun _ _ twin => twin.statat root path

theorem agrees_fileExists
    (root : Root)
    (path : Path) :
    Agrees (Os.Twin env) (fileExists root path) :=
  agrees_query fun _ _ twin => twin.fileExists root path

theorem agrees_opendir
    (layerIdx : Nat)
    (path : Path) :
    Agrees (Os.Twin env) (opendir env layerIdx path) :=
  agrees_query fun _ _ twin => twin.opendir _ _ path

theorem agrees_readlinkat
    (root : Root)
    (path : Path) :
    Agrees (Os.Twin env) (readlinkat root path) :=
  agrees_query fun _ _ twin => twin.readlinkat root path

theorem agrees_fstatat
    (dir : Loc)
    (name : Name) :
    Agrees (Os.Twin env) (fstatat dir name) :=
  agrees_query fun _ _ twin => twin.statLoc (dir.entry name)

theorem agrees_getxattr
    {layerIdx : Nat}
    (path : Path)
    {attr : Name}
    (size : Nat)
    (isRead :
      ∀ names place id, FMap.get? names ⟨.layer layerIdx, place⟩ = some id →
        env.Reads names id attr) :
    Agrees (Os.Twin env) (getxattr env (.layer layerIdx) path attr size) := by
  refine agrees_query fun first second twin => ?_
  rw [twin.getxattr path fun place id named => isRead _ place id named]

theorem twin_reading : Reading env (Os.Twin env) where
  statat := fun layerIdx path => agrees_statat (.layer layerIdx) path
  fileExists := fun layerIdx path => agrees_fileExists (.layer layerIdx) path
  opendir := agrees_opendir
  readlinkat := fun layerIdx path => agrees_readlinkat (.layer layerIdx) path
  mark := fun _ path _ isMark =>
    agrees_getxattr path 16 fun _ _ _ _ => .inl isMark
  owner := fun layerIdx found path _ stored isOverride =>
    agrees_getxattr path 64 fun _ place _ named =>
      .inr ⟨layerIdx, place, found, named, stored, isOverride⟩
  handle := fun layer layerIdx path => .gets fun first second twin => by
    simp only [twin.disk.locate, twin.disk.names]

end Syscall

namespace Daemon

open Syscall

variable {env : Env}

theorem twin_looking :
    Looking env (Os.Twin env) (fun _ => True) (Sys.Twin env) where
  reading := twin_reading
  hiddenStat := fun wd _ => agrees_fstatat _ wd
  os := fun _ _ twin => twin.os
  setOs := fun _ _ twin _ _ os =>
    ⟨os, twin.nodes, twin.inodes, twin.files, twin.nextFh, twin.dirs,
      twin.nextDh⟩
  nodes := fun _ _ twin => twin.nodes
  hides := fun _ _ _ _ _ _ => .inr trivial
  setNodes := fun _ _ twin _ _ =>
    ⟨twin.os, rfl, twin.inodes, twin.files, twin.nextFh, twin.dirs,
      twin.nextDh⟩
  inodes := fun _ _ twin => twin.inodes
  setInodes := fun _ _ twin _ =>
    ⟨twin.os, twin.nodes, rfl, twin.files, twin.nextFh, twin.dirs,
      twin.nextDh⟩
  dirs := fun _ _ twin => ⟨twin.dirs, twin.nextDh⟩
  setDirs := fun _ _ twin _ _ =>
    ⟨twin.os, twin.nodes, twin.inodes, twin.files, twin.nextFh, rfl, rfl⟩

end Daemon

namespace Sys

variable {env : Env}

/-- The replies to a list of requests. -/
def replies
    (env : Env) :
    Sys → List Call → List (Except Errno Reply)
  | _, [] => []
  | sys, call :: rest =>
      (sys.step env call).1 :: replies env (sys.step env call).2 rest

theorem Twin.begin
    {first second : Sys}
    (twin : Twin env first second)
    (call : Call) :
    Twin env (first.begin call) (second.begin call) where
  os := ⟨⟨twin.os.disk.names, twin.os.disk.dev, twin.os.disk.objs⟩,
    twin.os.counter, twin.os.flag, rfl, rfl⟩
  nodes := twin.nodes
  inodes := twin.inodes
  files := twin.files
  nextFh := twin.nextFh
  dirs := twin.dirs
  nextDh := twin.nextDh

/-- No run of observing requests tells twins apart. -/
theorem Twin.replies_eq
    {first second : Sys}
    (twin : Twin env first second)
    {calls : List Call}
    (observing : ∀ call ∈ calls, call.request.Observes) :
    first.replies env calls = second.replies env calls := by
  induction calls generalizing first second with
  | nil =>
      rfl
  | cons call rest inductionHypothesis =>
      obtain ⟨same, later⟩ :=
        Daemon.twin_looking.observes (observing call List.mem_cons_self) _ _
          (twin.begin call)
      have rest := inductionHypothesis later fun query member =>
        observing query (List.mem_cons_of_mem call member)
      exact congrArg₂ List.cons same rest

end Sys

end FuseOverlay
