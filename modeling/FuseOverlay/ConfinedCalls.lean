import FuseOverlay.Confinement
import FuseOverlay.Lib.Yields
import FuseOverlay.Quiet

namespace FuseOverlay

/-!
# System calls that stay within a guard

Every sequence of system calls that the handlers issue works at a root it was
given, and through descriptors opened there.  The lemmas say so of each of
them: called at a root where names may change, it leaves the rest of the trees
alone, and the places and descriptors that it returns are at that root again.
-/

open Act (Keeps Yields)

/-- The trees of the system calls are spared. -/
def Os.Spared
    (guard : Guard)
    (start : Disk)
    (os : Os) : Prop :=
  Disk.Spared guard start os.disk

namespace Guard

/-- Names may change on the upper layer and in the work directory. -/
structure Upper (guard : Guard) : Prop where
  layer : guard.writable (.layer 0)
  work : guard.writable .workdir

/--
The guard goes with the mount: names may change on the layers that are not
lower ones and, with an upper layer, on that one and in the work directory,
and a symbolic link that a call follows does not lead elsewhere.
-/
structure Fits
    (guard : Guard)
    (env : Env) : Prop where
  upper : Syscall.hasUpper env = true → guard.Upper
  layers :
    ∀ layerIdx layer, env.layers[layerIdx]? = some layer →
      layer.low = false → guard.writable (.layer layerIdx)
  leaves :
    ∀ disk loc rest target, guard.writable loc.root →
      env.host.leaves disk loc rest = .ok target →
      guard.writable target.root

/-- The content of the object may change through the descriptor. -/
def Free
    (guard : Guard)
    (fd : Fd) : Prop :=
  ¬ guard.fixed fd.obj

/-- The attributes of the object may change through the descriptor. -/
def Marks
    (guard : Guard)
    (fd : Fd) : Prop :=
  guard.fixed fd.obj → guard.loose

theorem Free.marks
    {guard : Guard}
    {fd : Fd}
    (free : guard.Free fd) :
    guard.Marks fd :=
  fun fixed => (free fixed).elim

/-- A descriptor that is open for writing, or at a root where names may
change, is of an object that is not fixed. -/
structure Tame
    (guard : Guard)
    (fd : Fd) : Prop where
  writes : fd.write = true → guard.Free fd
  inside : guard.writable fd.root → guard.Free fd

end Guard

namespace Syscall

open Whiteout

variable {env : Env} {guard : Guard} {start : Disk}

/-- A transformed outcome comes from a value. -/
theorem map_returns
    {α β : Type}
    {outcome : Except Errno α}
    {transform : α → β}
    {value : β}
    (returned : outcome.map transform = .ok value) :
    ∃ result, outcome = .ok result ∧ transform result = value := by
  cases outcome with
  | error errno =>
      cases returned
  | ok result =>
      cases returned
      exact ⟨result, rfl, rfl⟩

/-- A call that only reads the trees keeps them spared. -/
theorem Reads.confined
    {α : Type}
    {act : Syscall α}
    (reads : Reads act) :
    Keeps (Os.Spared guard start) act :=
  reads (Disk.Spared guard start)

/-! ## Single calls -/

theorem yields_query
    {α : Type}
    {read : Disk → Except Errno α}
    {fact : α → Prop}
    (holds : ∀ disk value, read disk = .ok value → fact value) :
    Yields (Os.Spared guard start) (query read) fact := by
  apply Yields.after (Reads.confined (fun _ => keeps_takeFault))
  intro _ os spared
  exact ⟨spared, fun value returned => holds os.disk value returned⟩

theorem yields_call
    {α : Type}
    {run : Disk → Except Errno (α × Disk)}
    {fact : α → Prop}
    (runs :
      ∀ disk value later, Disk.Spared guard start disk →
        run disk = .ok (value, later) →
        Disk.Spared guard start later ∧ fact value) :
    Yields (Os.Spared guard start) (call run) fact := by
  apply Yields.after (Reads.confined (fun _ => keeps_takeFault))
  intro _ os spared
  cases ran : run os.disk with
  | error errno =>
      simp only [ran]
      exact ⟨spared, fun value returned => by cases returned⟩
  | ok made =>
      obtain ⟨keeps, holds⟩ := runs os.disk made.1 made.2 spared ran
      simp only [ran]
      refine ⟨keeps, fun value returned => ?_⟩
      cases returned
      exact holds

theorem yields_change
    {run : Disk → Except Errno Disk}
    {fact : Prop}
    (runs :
      ∀ disk later, Disk.Spared guard start disk → run disk = .ok later →
        Disk.Spared guard start later ∧ fact) :
    Yields (Os.Spared guard start) (change run) fun _ => fact := by
  apply yields_call
  intro disk value later spared ran
  obtain ⟨changed, made, same⟩ := map_returns ran
  cases same
  exact runs disk later spared made

theorem confined_change
    {run : Disk → Except Errno Disk}
    (runs :
      ∀ disk later, Disk.Spared guard start disk → run disk = .ok later →
        Disk.Spared guard start later) :
    Keeps (Os.Spared guard start) (change run) :=
  @keeps_change (Disk.Spared guard start) run
    fun {disk later} spared ran => runs disk later spared ran

/-- A place that is found below a base is at the base's root. -/
theorem yields_openDirAt
    (base : Loc)
    (path : Path)
    (noFollow : Bool) :
    Yields (Os.Spared guard start) (openDirAt base path noFollow)
      fun dir => dir.root = base.root := by
  apply yields_query
  intro disk dir found
  split at found
  · split at found
    · cases found
    · next loc located =>
        split at found
        · cases found
        · cases found
          exact Disk.root_of_locate located
        · cases found
  · exact Disk.root_of_openDir found

theorem yields_safeParent
    (base : Loc)
    (path : Path) :
    Yields (Os.Spared guard start) (safeParent base path)
      fun place => place.1.root = base.root := by
  unfold safeParent
  split
  · exact Yields.pure rfl
  · split
    · exact Yields.pure rfl
    · apply Yields.bind (yields_openDirAt base _ false)
      intro dir sameRoot
      exact Yields.pure sameRoot

theorem yields_whiteoutDir
    (upper : Loc)
    (parentPath : Path) :
    Yields (Os.Spared guard start) (whiteoutDir upper parentPath)
      fun dir => dir.root = upper.root := by
  unfold whiteoutDir
  split
  · exact Yields.pure rfl
  · exact yields_openDirAt upper parentPath true

section

variable {dir oldDir newDir : Loc} {name oldName newName : Name}

/-- A new object is not fixed. -/
theorem yields_create
    (permits : guard.writable dir.root)
    (make : Disk → Obj) :
    Yields (Os.Spared guard start)
      (call fun disk => disk.create dir name (make disk))
      fun id => ¬ guard.fixed id :=
  yields_call fun _ _ _ spared made => spared.create permits made

theorem confined_makeObj
    (permits : guard.writable dir.root)
    (kind : FileKind)
    (perm : UInt32)
    (rdev : UInt64)
    (data : List UInt8) :
    Keeps (Os.Spared guard start)
      (makeObj env dir name kind perm rdev data) := by
  refine Keeps.bind reads_nextStIno.confined fun ino => ?_
  exact (yields_create permits _).keeps

theorem confined_mkdirat
    (permits : guard.writable dir.root)
    (mode : Mode) :
    Keeps (Os.Spared guard start) (mkdirat env dir name mode) :=
  Keeps.bind (confined_makeObj permits _ _ _ _) fun _ => Keeps.pure _

theorem confined_mknodat
    (permits : guard.writable dir.root)
    (mode : Mode)
    (rdev : UInt64) :
    Keeps (Os.Spared guard start) (mknodat env dir name mode rdev) := by
  have makes :
      ∀ kind rdev, Keeps (Os.Spared guard start) (do
        let _ ← makeObj env dir name kind (mode.perm &&& 0o7777) rdev []) :=
    fun kind rdev =>
      Keeps.bind (confined_makeObj permits kind _ rdev []) fun _ =>
        Keeps.pure _
  unfold mknodat
  split
  · exact Keeps.fail _
  · exact Keeps.fail _
  · split
    · exact makes _ rdev
    · exact (Reads.query _).confined
  · split
    · exact makes _ rdev
    · exact (Reads.query _).confined
  · exact makes _ 0
  · exact makes .reg 0

theorem confined_symlinkat
    (permits : guard.writable dir.root)
    (target : List UInt8) :
    Keeps (Os.Spared guard start) (symlinkat env target dir name) := by
  refine Keeps.bind reads_nextStIno.confined fun ino => ?_
  exact Keeps.bind (yields_create permits _).keeps fun _ => Keeps.pure _

theorem confined_linkat
    (oldPermits : guard.writable oldDir.root)
    (newPermits : guard.writable newDir.root) :
    Keeps (Os.Spared guard start) (linkat oldDir oldName newDir newName) :=
  confined_change fun _ _ spared ran =>
    spared.linkat oldPermits newPermits ran

theorem confined_unlinkat
    (permits : guard.writable dir.root)
    (removeDir : Bool) :
    Keeps (Os.Spared guard start) (unlinkat dir name removeDir) :=
  confined_change fun _ _ spared ran => spared.unlinkat permits ran

theorem confined_renameat
    (oldPermits : guard.writable oldDir.root)
    (newPermits : guard.writable newDir.root) :
    Keeps (Os.Spared guard start)
      (renameat oldDir oldName newDir newName) :=
  confined_change fun _ _ spared ran =>
    spared.renameat oldPermits newPermits ran

/-- The whiteout of a rename is a new object at the old name. -/
theorem spared_renameWhiteout
    (oldPermits : guard.writable oldDir.root)
    (newPermits : guard.writable newDir.root)
    {ino : UInt64}
    {disk later : Disk}
    (spared : Disk.Spared guard start disk)
    (ran :
      renameWhiteout env ino disk oldDir oldName newDir newName =
        .ok later) :
    Disk.Spared guard start later := by
  unfold renameWhiteout at ran
  split at ran
  · split at ran
    · cases ran
    · next renamed moved =>
        have between := spared.renameat oldPermits newPermits moved
        obtain ⟨made, created, same⟩ := map_returns ran
        rw [← same]
        exact (between.create oldPermits created).1
  · cases ran

theorem confined_renameat2
    (oldPermits : guard.writable oldDir.root)
    (newPermits : guard.writable newDir.root)
    (flags : UInt32) :
    Keeps (Os.Spared guard start)
      (renameat2 env oldDir oldName newDir newName flags) := by
  unfold renameat2
  simp only
  split
  case' isTrue => refine Keeps.bind reads_nextStIno.confined fun ino => ?_
  case' isFalse => refine Keeps.bind (Keeps.pure (0 : UInt64)) fun ino => ?_
  all_goals
    apply confined_change
    intro disk later spared ran
    split at ran
    · exact spared.renameat oldPermits newPermits ran
    · split at ran
      · split at ran
        · cases ran
        · exact spared.renameat oldPermits newPermits ran
      · split at ran
        · exact spared.renameExchange oldPermits newPermits ran
        · split at ran
          · exact spared_renameWhiteout oldPermits newPermits spared ran
          · split at ran
            · split at ran
              · cases ran
              · exact spared_renameWhiteout oldPermits newPermits spared ran
            · cases ran

/-- A change of the object under a name. -/
theorem confined_changeNamed
    (permits : guard.writable dir.root)
    (update : Disk → Obj → Obj) :
    Keeps (Os.Spared guard start) (changeNamed dir name update) := by
  apply confined_change
  intro disk later spared ran
  split at ran
  · cases ran
  · next id named =>
      cases ran
      apply spared.modify
      apply spared.apart _ id _ named
      rw [Loc.root_entry]
      exact permits

theorem confined_changeFollowed
    (fits : guard.Fits env)
    (permits : guard.writable dir.root)
    (update : Disk → Obj → Obj) :
    Keeps (Os.Spared guard start) (changeFollowed env dir name update) := by
  apply confined_change
  intro disk later spared ran
  split at ran
  · cases ran
  · next loc followed =>
      have permitsLoc : guard.writable loc.root := by
        unfold followLast at followed
        split at followed
        · apply fits.leaves disk (dir.entry name) [] loc _ followed
          rw [Loc.root_entry]
          exact permits
        · cases followed
          rw [Loc.root_entry]
          exact permits
      split at ran
      · cases ran
      · next id named =>
          cases ran
          exact spared.modify (spared.apart loc id permitsLoc named) _

end

/-! ## Descriptors -/

section

variable {fd : Fd}

/-- A change of attributes through a descriptor. -/
theorem confined_changeFd
    (marks : guard.Marks fd)
    {update : Disk → Obj → Obj}
    (same : ∀ disk obj, (update disk obj).content = obj.content) :
    Keeps (Os.Spared guard start) (changeFd fd update) := by
  apply confined_change
  intro disk later spared ran
  split at ran
  · cases ran
  · cases ran
    exact spared.mark marks (same disk)

theorem confined_fchown
    (marks : guard.Marks fd)
    (uid gid : UInt32) :
    Keeps (Os.Spared guard start) (fchown fd uid gid) :=
  confined_changeFd marks fun _ _ => rfl

theorem confined_fchmod
    (marks : guard.Marks fd)
    (perm : UInt32) :
    Keeps (Os.Spared guard start) (fchmod fd perm) :=
  confined_changeFd marks fun _ _ => rfl

theorem confined_futimens
    (marks : guard.Marks fd)
    (atime mtime : TimeChange) :
    Keeps (Os.Spared guard start) (futimens fd atime mtime) :=
  confined_changeFd marks fun _ _ => rfl

/-- A change of content needs a descriptor that is open for writing. -/
theorem yields_changeContent
    (free : fd.write = true → guard.Free fd)
    (failure : Errno)
    (update : Disk → Obj → Obj) :
    Yields (Os.Spared guard start) (changeContent fd failure update)
      fun _ => guard.Free fd := by
  apply yields_change
  intro disk later spared ran
  split at ran
  · next writes =>
      simp only [Bool.and_eq_true] at writes
      cases ran
      exact ⟨spared.modify (free writes.1) _, free writes.1⟩
  · cases ran

theorem confined_fsetxattr
    (marks : guard.Marks fd)
    (attr : Name)
    (value : List UInt8) :
    Keeps (Os.Spared guard start) (fsetxattr env fd attr value) := by
  apply confined_change
  intro disk later spared ran
  simp only [bind, Except.bind] at ran
  split at ran
  · cases ran
  · split at ran
    · cases ran
    · split at ran
      · cases ran
      · cases ran
        exact spared.mark marks fun _ => rfl

/-- What an open of an existing object returns and changes. -/
theorem openObj_returns
    {disk later : Disk}
    {root : Root}
    {id : ObjId}
    {obj : Obj}
    {flags : OpenFlags}
    (opened : openObj disk root id obj flags = .ok (fd, later)) :
    fd.obj = id ∧ fd.root = root ∧ fd.write = flags.write ∧
      (later = disk ∨ flags.trunc = true ∧
        ∃ update, later = disk.modifyObj id update) := by
  unfold openObj at opened
  split at opened
  · cases opened
  · split at opened
    · cases opened
      exact ⟨rfl, rfl, rfl, .inl rfl⟩
    · split at opened
      · cases opened
      · split at opened
        · cases opened
        · split at opened
          · cases opened
          · split at opened
            · next empties =>
                simp only [Bool.and_eq_true] at empties
                cases opened
                exact ⟨rfl, rfl, rfl, .inr ⟨empties.1, _, rfl⟩⟩
            · cases opened
              exact ⟨rfl, rfl, rfl, .inl rfl⟩

/-- What is known of a descriptor that was opened below a base. -/
structure OpenedAt
    (guard : Guard)
    (base : Loc)
    (flags : OpenFlags)
    (fd : Fd) : Prop where
  root : fd.root = base.root
  write : fd.write = flags.write
  free : guard.writable base.root → guard.Free fd

theorem OpenedAt.tame
    {base : Loc}
    {flags : OpenFlags}
    (openedAt : OpenedAt guard base flags fd)
    (permits : flags.write = true → guard.writable base.root) :
    guard.Tame fd where
  writes := fun writes =>
    openedAt.free (permits (openedAt.write ▸ writes))
  inside := by
    rw [openedAt.root]
    exact openedAt.free

/-- An open makes or empties a file only where names may change. -/
theorem yields_safeOpenat
    {base : Loc}
    {flags : OpenFlags}
    (changes :
      flags.creat = true ∨ flags.trunc = true → guard.writable base.root)
    (path : Path)
    (perm : UInt32) :
    Yields (Os.Spared guard start) (safeOpenat env base path flags perm)
      (OpenedAt guard base flags) := by
  apply Yields.after reads_nextStIno.confined
  intro ino
  apply yields_call
  intro disk fd later spared ran
  simp only at ran
  cases located :
      (if flags.noFollow then disk.locate base path
        else disk.locateFollow base linkLimit base.path path) with
  | error errno =>
      rw [located] at ran
      cases ran
  | ok loc =>
      rw [located] at ran
      simp only at ran
      have root : loc.root = base.root := by
        split at located
        · exact Disk.root_of_locate located
        · exact Disk.root_of_locateFollow located
      split at ran
      · split at ran
        · next creates =>
            split at ran
            · cases ran
            · have permits := changes (.inl creates)
              obtain ⟨made, created, same⟩ := map_returns ran
              rw [← root] at permits
              obtain ⟨after, free⟩ :=
                @Disk.Spared.create guard start disk made.2
                  ⟨loc.root, loc.path.dropLast⟩ made.1 _ spared permits _
                  created
              cases same
              exact ⟨after, root, rfl, fun _ => free⟩
        · cases ran
      · next id named =>
          have free : guard.writable base.root → ¬ guard.fixed id := by
            rw [← root]
            exact fun permits => spared.apart loc id permits named
          split at ran
          · cases ran
          · split at ran
            · cases ran
            · obtain ⟨isObj, isRoot, writes, left⟩ := openObj_returns ran
              have known : OpenedAt guard base flags fd := by
                refine ⟨isRoot.trans root, writes, fun permits => ?_⟩
                unfold Guard.Free
                rw [isObj]
                exact free permits
              rcases left with same | ⟨empties, update, emptied⟩
              · rw [same]
                exact ⟨spared, known⟩
              · rw [emptied]
                exact ⟨spared.modify (free (changes (.inr empties))) update,
                  known⟩

/-- An open where names may change. -/
theorem yields_openInside
    {base : Loc}
    (permits : guard.writable base.root)
    (path : Path)
    (flags : OpenFlags)
    (perm : UInt32) :
    Yields (Os.Spared guard start) (safeOpenat env base path flags perm)
      guard.Free :=
  (yields_safeOpenat (fun _ => permits) path perm).imp
    fun _ openedAt => openedAt.free permits

end

/-! ## Paths that are not confined -/

theorem procLocate_root
    (fits : guard.Fits env)
    {disk : Disk}
    {root : Root}
    (permits : guard.writable root)
    {cwd path : Path}
    {loc : Loc}
    (located : procLocate env disk root cwd path = .ok loc) :
    guard.writable loc.root := by
  induction path generalizing cwd with
  | nil =>
      cases located
      exact permits
  | cons name rest inductionHypothesis =>
      cases rest with
      | nil =>
          cases located
          exact permits
      | cons second rest =>
          unfold procLocate at located
          split at located
          · cases located
          · exact inductionHypothesis located
          · exact fits.leaves disk _ _ loc permits located
          · cases located

theorem confined_lsetxattr
    (fits : guard.Fits env)
    {root : Root}
    (permits : guard.writable root)
    (path : Path)
    (attr : Name)
    (value : List UInt8)
    (create replace : Bool) :
    Keeps (Os.Spared guard start)
      (lsetxattr env root path attr value create replace) := by
  apply confined_change
  intro disk later spared ran
  simp only [bind, Except.bind] at ran
  split at ran
  · cases ran
  · split at ran
    · cases ran
    · next loc located =>
        have permitsLoc := procLocate_root fits permits located
        split at ran
        · cases ran
        · next id named =>
            have free := spared.apart loc id permitsLoc named
            split at ran
            · split at ran
              · cases ran
              · cases ran
                exact spared.modify free _
            · split at ran
              · cases ran
              · cases ran
                exact spared.modify free _

theorem confined_lremovexattr
    (fits : guard.Fits env)
    {root : Root}
    (permits : guard.writable root)
    (path : Path)
    (attr : Name) :
    Keeps (Os.Spared guard start) (lremovexattr env root path attr) := by
  apply confined_change
  intro disk later spared ran
  simp only [bind, Except.bind] at ran
  split at ran
  · cases ran
  · split at ran
    · cases ran
    · next loc located =>
        have permitsLoc := procLocate_root fits permits located
        split at ran
        · cases ran
        · next id named =>
            have free := spared.apart loc id permitsLoc named
            split at ran
            · cases ran
            · cases ran
              exact spared.modify free _

/-! ## Whiteouts and opaque marks -/

section

variable {dir : Loc} {fd : Fd}

theorem confined_setOpaqueXattr
    (marks : guard.Marks fd) :
    Keeps (Os.Spared guard start) (setOpaqueXattr env fd) := by
  refine Keeps.bind (Keeps.attempt (confined_fsetxattr marks _ _))
    fun outcome => ?_
  split
  · exact Keeps.pure true
  · exact Keeps.pure false
  · refine Keeps.bind (Keeps.attempt (confined_fsetxattr marks _ _))
      fun second => ?_
    split
    · exact Keeps.pure true
    · exact Keeps.pure false
    · exact Keeps.fail _
  · exact Keeps.fail _

theorem confined_setFdOpaque
    (permits : guard.writable dir.root)
    (marks : guard.Marks fd) :
    Keeps (Os.Spared guard start) (setFdOpaque env dir fd) := by
  refine Keeps.bind (confined_setOpaqueXattr marks) fun xattrSet => ?_
  refine Keeps.bind (Keeps.attempt (yields_openInside permits _ _ _).keeps)
    fun sentinel => ?_
  split
  · exact Keeps.pure ()
  · split
    · exact Keeps.pure ()
    · exact Keeps.fail _

theorem confined_deleteWhiteoutAt
    (permits : guard.writable dir.root)
    (name : Name) :
    Keeps (Os.Spared guard start) (deleteWhiteoutAt dir name) := by
  have device : Keeps (Os.Spared guard start) (deleteDevice dir name) := by
    refine Keeps.bind (Keeps.attempt (Reads.query _).confined)
      fun found => ?_
    split
    · exact Keeps.runIf (confined_unlinkat permits false)
    · exact Keeps.pure ()
  refine Keeps.bind (Keeps.gets _) fun canMknod => ?_
  refine Keeps.bind (Keeps.runIf device) fun _ => ?_
  refine Keeps.bind (Keeps.attempt (confined_unlinkat permits false))
    fun outcome => ?_
  split
  · exact Keeps.pure ()
  · exact Keeps.pure ()
  · exact Keeps.fail _

/-- In a directory that is open already, or below the base. -/
theorem confined_deleteWhiteout
    {upper : Loc}
    {dirfd : Option Loc}
    (permits : guard.writable upper.root)
    (permitsDir : ∀ dir, dirfd = some dir → guard.writable dir.root)
    (parentPath : Path)
    (name : Name) :
    Keeps (Os.Spared guard start)
      (deleteWhiteout upper dirfd parentPath name) := by
  cases dirfd with
  | some dir =>
      exact confined_deleteWhiteoutAt (permitsDir dir rfl) name
  | none =>
      apply Yields.bindKeeps (yields_whiteoutDir upper parentPath)
      intro dir sameRoot
      exact confined_deleteWhiteoutAt (sameRoot ▸ permits) name

theorem confined_createWhFile
    (permits : guard.writable dir.root)
    (name : Name) :
    Keeps (Os.Spared guard start) (createWhFile env dir name) :=
  Keeps.bind (yields_openInside permits _ _ _).keeps fun _ => Keeps.pure ()

theorem confined_createWhiteout
    {upper : Loc}
    (permits : guard.writable upper.root)
    (parentPath : Path)
    (name : Name)
    (canMknod : Bool) :
    Keeps (Os.Spared guard start)
      (createWhiteout env upper parentPath name canMknod) := by
  apply Yields.bindKeeps (yields_whiteoutDir upper parentPath)
  intro dir sameRoot
  have permitsDir : guard.writable dir.root := sameRoot ▸ permits
  have fallback :
      Keeps (Os.Spared guard start) (do
        Act.modify fun os : Os => { os with canMknodFlag := false }
        createWhFile env dir name) :=
    Keeps.bind (Keeps.modify fun _ spared => spared) fun _ =>
      confined_createWhFile permitsDir name
  split
  · refine Keeps.bind (Keeps.attempt (confined_mknodat permitsDir _ _))
      fun outcome => ?_
    split
    · exact Keeps.pure ()
    · refine Keeps.bind (Keeps.attempt (Reads.query _).confined)
        fun found => ?_
      split
      · exact Keeps.check _ _
      · exact Keeps.fail _
    · exact fallback
    · exact fallback
    · exact Keeps.fail _
  · exact confined_createWhFile permitsDir name

end

/-! ## Copy-up -/

section

variable {dir : Loc} {source dest : Fd}

theorem confined_copyXattr
    (marks : guard.Marks dest) :
    Keeps (Os.Spared guard start) (copyXattr env source dest) := by
  have one :
      ∀ attr, Keeps (Os.Spared guard start)
        (copyOneXattr env source dest attr) := by
    intro attr
    refine Keeps.bind (Keeps.attempt (Reads.query _).confined)
      fun value => ?_
    split
    · exact Keeps.pure ()
    · exact Keeps.fail _
    · refine Keeps.bind (Keeps.attempt (confined_fsetxattr marks _ _))
        fun outcome => ?_
      split
      · exact Keeps.pure ()
      · exact Keeps.pure ()
      · exact Keeps.pure ()
      · exact Keeps.fail _
  refine Keeps.bind (Keeps.attempt (Reads.query _).confined) fun listed => ?_
  split
  · exact Keeps.pure ()
  · exact Keeps.pure ()
  · exact Keeps.fail _
  · exact Keeps.each one _

theorem confined_copyData
    (free : guard.Free dest)
    (size : Nat) :
    Keeps (Os.Spared guard start) (copyData source dest size) := by
  have writes :
      ∀ failure update, Keeps (Os.Spared guard start)
        (changeContent dest failure update) :=
    fun failure update =>
      (yields_changeContent (fun _ => free) failure update).keeps
  refine Keeps.bind (Keeps.attempt (Reads.query _).confined)
    fun content => ?_
  split
  · exact Keeps.fail _
  · refine Keeps.bind (Keeps.attempt (writes _ _)) fun cloned => ?_
    split
    · exact Keeps.pure ()
    · refine Keeps.bind (Keeps.attempt (writes _ _)) fun sent => ?_
      split
      · exact Keeps.pure ()
      · exact writes _ _

theorem confined_abandonDir
    (up : guard.Upper)
    {α : Type}
    (wd : Name)
    (errno : Errno) :
    Keeps (Os.Spared guard start) (abandonDir wd errno : Syscall α) :=
  Keeps.bind (Keeps.attempt (confined_unlinkat up.work true)) fun _ =>
    Keeps.fail _

theorem confined_installDir
    (up : guard.Upper)
    (permits : guard.writable dir.root)
    (wd name : Name) :
    Keeps (Os.Spared guard start) (installDir env wd dir name) := by
  have rename :
      Keeps (Os.Spared guard start)
        (renameat workRoot wd dir name).attempt :=
    Keeps.attempt (confined_renameat up.work permits)
  refine Keeps.bind rename fun outcome => ?_
  cases outcome with
  | ok value =>
      exact Keeps.pure ()
  | error errno =>
      cases errno with
      | EEXIST | ENOTEMPTY =>
          refine Keeps.bind
            (Keeps.attempt (confined_renameat2 up.work permits 2))
            fun exchanged => ?_
          cases exchanged with
          | ok value =>
              exact Keeps.bind
                (Keeps.attempt (confined_unlinkat up.work true))
                fun _ => Keeps.pure ()
          | error errno =>
              exact confined_abandonDir up wd errno
      | ENOTDIR =>
          refine Keeps.bind (Keeps.attempt (confined_unlinkat permits false))
            fun _ => ?_
          refine Keeps.bind rename fun again => ?_
          cases again with
          | ok value =>
              exact Keeps.pure ()
          | error errno =>
              exact confined_abandonDir up wd errno
      | _ =>
          exact confined_abandonDir up wd _

theorem confined_installFile
    (up : guard.Upper)
    (permits : guard.writable dir.root)
    (wd name : Name) :
    Keeps (Os.Spared guard start) (installFile wd dir name) := by
  refine Keeps.bind (Keeps.attempt (confined_renameat up.work permits))
    fun outcome => ?_
  split
  · exact Keeps.pure ()
  · exact Keeps.bind (Keeps.attempt (confined_unlinkat up.work false))
      fun _ => Keeps.fail _

/-- The place of a path on the upper layer. -/
theorem yields_upperPlace
    (up : guard.Upper)
    (path : Path) :
    Yields (Os.Spared guard start) (safeParent upperRoot path)
      fun place => guard.writable place.1.root :=
  (yields_safeParent upperRoot path).imp fun _ sameRoot =>
    sameRoot ▸ up.layer

theorem confined_copyDirectory
    (up : guard.Upper)
    (layerIdx : Nat)
    (path : Path) :
    Keeps (Os.Spared guard start) (copyDirectory env layerIdx path) := by
  refine Keeps.bind (reads_layer layerIdx).confined fun _ => ?_
  refine Keeps.bind (reads_safeOpenat rfl rfl _ _ _).confined fun source => ?_
  refine Keeps.bind (Reads.query _).confined fun st => ?_
  refine Keeps.bind reads_nextWdName.confined fun wd => ?_
  refine Keeps.bind (confined_mkdirat up.work _) fun _ => ?_
  apply Yields.bindKeeps (yields_openInside up.work _ _ _)
  intro dest free
  refine Keeps.bind (Keeps.attempt (confined_fchown free.marks _ _))
    fun _ => ?_
  refine Keeps.bind (Keeps.attempt (confined_futimens free.marks _ _))
    fun _ => ?_
  refine Keeps.bind (Keeps.attempt (confined_copyXattr free.marks))
    fun _ => ?_
  apply Yields.bindKeeps (yields_upperPlace up path)
  intro place permits
  exact confined_installDir up permits wd place.2

theorem confined_copySpecialXattrs
    (up : guard.Upper)
    (root : Root)
    (path : Path)
    (wd : Name) :
    Keeps (Os.Spared guard start) (copySpecialXattrs env root path wd) := by
  apply Yields.bindKeeps (yields_openInside up.work _ _ _).attempt
  intro opened free
  split
  · exact Keeps.pure ()
  · next dest =>
      refine Keeps.bind
        (Keeps.attempt (reads_safeOpenat rfl rfl _ _ _).confined)
        fun found => ?_
      split
      · exact Keeps.pure ()
      · exact Keeps.bind (Keeps.attempt
          (confined_copyXattr (free dest rfl).marks)) fun _ => Keeps.pure ()

theorem confined_copySymlink
    (up : guard.Upper)
    (root : Root)
    (path : Path)
    (st : Stat) :
    Keeps (Os.Spared guard start) (copySymlink env root path st) := by
  refine Keeps.bind (Reads.query _).confined fun target => ?_
  refine Keeps.bind reads_nextWdName.confined fun wd => ?_
  refine Keeps.bind (confined_symlinkat up.work _) fun _ => ?_
  refine Keeps.bind (Keeps.attempt (confined_changeNamed up.work _))
    fun _ => ?_
  apply Yields.bindKeeps (yields_upperPlace up path)
  intro place permits
  exact confined_installFile up permits wd place.2

theorem confined_copySpecial
    (up : guard.Upper)
    (root : Root)
    (path : Path)
    (st : Stat) :
    Keeps (Os.Spared guard start) (copySpecial env root path st) := by
  refine Keeps.bind reads_nextWdName.confined fun wd => ?_
  refine Keeps.bind (confined_mknodat up.work _ _) fun _ => ?_
  refine Keeps.bind (Keeps.attempt (confined_changeNamed up.work _))
    fun _ => ?_
  refine Keeps.bind (confined_copySpecialXattrs up root path wd) fun _ => ?_
  apply Yields.bindKeeps (yields_upperPlace up path)
  intro place permits
  exact confined_installFile up permits wd place.2

theorem confined_copyRegular
    (up : guard.Upper)
    (root : Root)
    (path : Path)
    (st : Stat) :
    Keeps (Os.Spared guard start) (copyRegular env root path st) := by
  refine Keeps.bind reads_nextWdName.confined fun wd => ?_
  refine Keeps.bind (reads_safeOpenat rfl rfl _ _ _).confined fun source => ?_
  apply Yields.bindKeeps (yields_openInside up.work _ _ _)
  intro dest free
  refine Keeps.bind (Keeps.attempt (confined_fchown free.marks _ _))
    fun _ => ?_
  refine Keeps.bind (confined_copyData free _) fun _ => ?_
  refine Keeps.bind (Keeps.attempt (confined_futimens free.marks _ _))
    fun _ => ?_
  refine Keeps.bind (Keeps.attempt (confined_copyXattr free.marks))
    fun _ => ?_
  refine Keeps.bind (Keeps.attempt (confined_fchmod free.marks _))
    fun _ => ?_
  apply Yields.bindKeeps (yields_upperPlace up path)
  intro place permits
  refine Keeps.bind (confined_installFile up permits wd place.2) fun _ => ?_
  exact Keeps.bind (Keeps.attempt (confined_unlinkat permits false))
    fun _ => Keeps.pure ()

theorem confined_hideOnDisk
    (up : guard.Upper)
    (path : Path)
    (parentPath : Option Path)
    (nodeName : Name)
    (whited : Bool)
    (wd : Name) :
    Keeps (Os.Spared guard start)
      (hideOnDisk env path parentPath nodeName whited wd) := by
  apply Yields.bindKeeps (yields_upperPlace up path)
  intro place permits
  obtain ⟨dir, name⟩ := place
  have away :
      Keeps (Os.Spared guard start) (renameat dir name workRoot wd) :=
    confined_renameat permits up.work
  simp only
  split
  · unfold hideBehindWhiteout
    simp only
    split
    case' isTrue =>
      refine Keeps.bind
        (Keeps.attempt (confined_renameat2 permits up.work 4))
        fun outcome => ?_
    case' isFalse =>
      refine Keeps.bind (Keeps.pure (Except.error Errno.ENOSYS))
        fun outcome => ?_
    all_goals
      split
      · exact Keeps.pure ()
      · split
        · exact away
        · exact Keeps.bind
            (@confined_createWhiteout env guard start upperRoot up.layer
              _ _ _) fun _ => away
  · exact away

end

/-! ## The parts of the handlers -/

section

variable {dir : Loc} {fd : Fd}

theorem confined_chownNew
    (up : guard.Upper)
    (caller : Caller)
    (wd : Name) :
    Keeps (Os.Spared guard start) (chownNew env caller wd) :=
  Keeps.bind (Keeps.attempt (confined_changeNamed up.work _)) fun _ =>
    Keeps.pure ()

theorem yields_placeNew
    (up : guard.Upper)
    (wd : Name)
    (isDir : Bool)
    (path : Path) :
    Yields (Os.Spared guard start) (placeNew wd isDir path)
      fun place => guard.writable place.1.root := by
  apply Yields.bind (yields_upperPlace up path).attempt
  intro outcome permits
  split
  · next place =>
      exact Yields.pure (permits place rfl)
  · apply Yields.after (Keeps.attempt (confined_unlinkat up.work isDir))
    intro _
    exact Yields.fail _

theorem confined_markNewOpaque
    (up : guard.Upper)
    (wd : Name)
    (lastLayerIdx : Nat) :
    Keeps (Os.Spared guard start) (markNewOpaque env wd lastLayerIdx) := by
  apply Keeps.runIf
  apply Yields.bindKeeps (yields_openInside up.work _ _ _).attempt
  intro opened free
  split
  · next fd =>
      exact Keeps.bind (Keeps.attempt
        (@confined_setFdOpaque env guard start (workRoot.child wd) fd up.work
          (free fd rfl).marks)) fun _ => Keeps.pure ()
  · exact Keeps.pure ()

theorem confined_installNewDir
    (up : guard.Upper)
    (permits : guard.writable dir.root)
    (wd name : Name) :
    Keeps (Os.Spared guard start) (installNewDir wd dir name) := by
  have rename :
      Keeps (Os.Spared guard start)
        (renameat workRoot wd dir name).attempt :=
    Keeps.attempt (confined_renameat up.work permits)
  refine Keeps.bind rename fun outcome => ?_
  split
  · exact Keeps.pure ()
  · refine Keeps.bind (Keeps.attempt (confined_unlinkat permits false))
      fun _ => ?_
    refine Keeps.bind rename fun again => ?_
    split
    · exact Keeps.pure ()
    · exact confined_abandonDir up wd _
  · exact confined_abandonDir up wd _

theorem confined_emptyUpperDir
    (up : guard.Upper)
    (path : Path) :
    Keeps (Os.Spared guard start) (emptyUpperDir env path) := by
  apply Yields.bindKeeps (yields_openDirAt upperRoot path false)
  intro dir sameRoot
  have permits : guard.writable dir.root := sameRoot ▸ up.layer
  refine Keeps.bind (Reads.query _).confined fun entries => ?_
  apply Keeps.each
  intro entry
  exact Keeps.bind (Keeps.attempt (confined_unlinkat permits _)) fun _ =>
    Keeps.pure ()

theorem confined_renameOnDisk
    (up : guard.Upper)
    (srcPath dparentPath : Path)
    (newname : Name)
    (flags : UInt32) :
    Keeps (Os.Spared guard start)
      (renameOnDisk env srcPath dparentPath newname flags) := by
  apply Yields.bindKeeps (yields_upperPlace up srcPath)
  intro src srcPermits
  apply Yields.bindKeeps (yields_upperPlace up (dparentPath ++ [newname]))
  intro dst dstPermits
  obtain ⟨dstDir, dstLast⟩ := dst
  simp only
  split
  · exact confined_renameat2 srcPermits dstPermits flags
  · exact confined_renameat srcPermits dstPermits

/-- A write through a descriptor that is open for writing. -/
theorem confined_writeFile
    (tame : guard.Tame fd)
    (offset : Nat)
    (bytes : List UInt8)
    (writeCache : Bool) :
    Keeps (Os.Spared guard start) (writeFile fd offset bytes writeCache) := by
  refine Keeps.bind (reads_restoreMode fd writeCache).confined fun mode => ?_
  apply Yields.bindKeeps (yields_changeContent tame.writes _ _)
  intro _ free
  split
  · exact Keeps.pure ()
  · exact Keeps.bind (Keeps.attempt (confined_fchmod free.marks _)) fun _ =>
      Keeps.pure ()

theorem confined_copyRange
    {fdIn fdOut : Fd}
    (tame : guard.Tame fdOut)
    (offsetIn offsetOut len : Nat) :
    Keeps (Os.Spared guard start)
      (copyRange fdIn offsetIn fdOut offsetOut len) := by
  refine Keeps.bind (reads_readFile fdIn offsetIn len).confined
    fun bytes => ?_
  refine Keeps.bind (Keeps.check _ _) fun _ => ?_
  exact Keeps.bind (yields_changeContent tame.writes _ _).keeps fun _ =>
    Keeps.pure _

theorem yields_openNew
    (up : guard.Upper)
    (whited : Bool)
    (pnodePath : Path)
    (name : Name)
    (flags : OpenFlags)
    (perm : UInt32) :
    Yields (Os.Spared guard start)
      (openNew env whited pnodePath name flags perm) guard.Free := by
  unfold openNew
  split
  · apply Yields.after reads_nextWdName.confined
    intro wd
    apply Yields.after (yields_openInside up.work _ _ _).keeps
    intro _
    apply Yields.bind (yields_placeNew up wd false _)
    intro place permits
    apply Yields.after (confined_installFile up permits wd place.2)
    intro _
    apply Yields.after
    · apply Keeps.attempt
      apply @confined_deleteWhiteout guard start upperRoot _ up.layer
      intro dir same
      cases same
      exact permits
    · intro _
      exact @yields_openInside env guard start upperRoot up.layer _ _ _
  · exact @yields_openInside env guard start upperRoot up.layer _ _ _

/-! ## The parts of `setattr` -/

/-- A descriptor that `setattr` works on. -/
def Guard.Settable
    (guard : Guard)
    (fd : Option Fd) : Prop :=
  ∀ opened, fd = some opened → guard.Tame opened ∧ guard.Marks opened

variable {fd : Option Fd} {root : Root} {path : Path} {change : SetAttr}

theorem confined_setTimes
    (permits : guard.writable root)
    (settable : Guard.Settable guard fd) :
    Keeps (Os.Spared guard start) (setTimes fd root path change) := by
  apply Keeps.runIf
  split
  · next opened =>
      exact confined_futimens (settable opened rfl).2 _ _
  · apply Yields.bindKeeps (yields_safeParent ⟨root, []⟩ path)
    intro place sameRoot
    exact confined_changeNamed (sameRoot ▸ permits) _

theorem confined_setModeAndOwner
    (fits : guard.Fits env)
    (permits : guard.writable root)
    (settable : Guard.Settable guard fd) :
    Keeps (Os.Spared guard start)
      (setModeAndOwner env fd root path change) := by
  have mode :
      ∀ mode, Keeps (Os.Spared guard start)
        (setMode env fd root path mode) := by
    intro mode
    unfold setMode
    split
    · next opened =>
        exact confined_fchmod (settable opened rfl).2 mode
    · apply Yields.bindKeeps (yields_safeParent ⟨root, []⟩ path)
      intro place sameRoot
      exact confined_changeFollowed fits (sameRoot ▸ permits) _
  have owner :
      Keeps (Os.Spared guard start)
        (setOwner env fd root path change.uid change.gid) := by
    unfold setOwner
    simp only
    split
    · next opened =>
        exact confined_fchown (settable opened rfl).2 _ _
    · apply Yields.bindKeeps (yields_safeParent ⟨root, []⟩ path)
      intro place sameRoot
      exact confined_changeNamed (sameRoot ▸ permits) _
  unfold setModeAndOwner
  simp only
  split
  · exact Keeps.runIf owner
  · exact Keeps.bind (mode _) fun _ => Keeps.runIf owner

theorem confined_setOverride
    (fits : guard.Fits env)
    (up : guard.Upper)
    (settable : Guard.Settable guard fd)
    (attr : Name) :
    Keeps (Os.Spared guard start)
      (setOverride env fd root path attr change) := by
  cases fd with
  | some opened =>
      refine Keeps.bind (Reads.query _).confined fun st => ?_
      refine Keeps.bind (reads_currentOverride (some opened) attr st).confined
        fun current => ?_
      exact confined_fsetxattr (settable opened rfl).2 attr _
  | none =>
      refine Keeps.bind (Reads.query _).confined fun st => ?_
      refine Keeps.bind (reads_currentOverride none attr st).confined
        fun current => ?_
      exact confined_lsetxattr fits up.layer path attr _ _ _

theorem confined_setPermissions
    (fits : guard.Fits env)
    (up : guard.Upper)
    (permits : guard.writable root)
    (settable : Guard.Settable guard fd)
    (layer : Layer) :
    Keeps (Os.Spared guard start)
      (setPermissions env fd layer root path change) := by
  unfold setPermissions
  split
  · exact confined_setModeAndOwner fits permits settable
  · exact Keeps.runIf (confined_setOverride fits up settable _)

theorem confined_setSize
    (fits : guard.Fits env)
    (permits : guard.writable root)
    (settable : Guard.Settable guard fd)
    (size : Option Nat) :
    Keeps (Os.Spared guard start) (setSize env fd root path size) := by
  unfold setSize
  split
  · exact Keeps.pure ()
  · split
    · next opened =>
        exact (yields_changeContent (settable opened rfl).1.writes _ _).keeps
    · apply Yields.bindKeeps (yields_safeParent ⟨root, []⟩ path)
      intro place sameRoot
      exact confined_changeFollowed fits (sameRoot ▸ permits) _

end

end Syscall

end FuseOverlay
