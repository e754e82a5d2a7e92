import FuseOverlay.ObjectChanges
import FuseOverlay.Sample

namespace FuseOverlay

/-!
# The permissions of new objects

`create`, `mkdir` and `mknod` make one object of the type that was asked for,
and nothing that they do afterwards changes its permissions.  So the system
call that makes it decides, and it knows only the umask of the daemon.
-/

open Act (Keeps Gives)

namespace Disk

/-! ## Types and permissions on a disk -/

/-- Every object was there before, with the same type and permissions. -/
def SameModes (before after : Disk) : Prop :=
  ∀ id obj, after.objs.get? id = some obj →
    ∃ old, before.objs.get? id = some old ∧ old.kind = obj.kind ∧
      old.perm = obj.perm

/-- Every object of the type that is not in `start` has the permissions. -/
def Made
    (start : Disk)
    (kind : FileKind)
    (perm : UInt32)
    (disk : Disk) : Prop :=
  ∀ id obj, disk.objs.get? id = some obj → start.objs.get? id = none →
    obj.kind = kind → obj.perm = perm

section

variable {start disk before after later : Disk} {kind : FileKind}
  {perm : UInt32}

theorem Made.refl :
    Made start kind perm start := by
  intro id obj stored fresh
  rw [fresh] at stored
  cases stored

theorem Made.sameModes
    (made : Made start kind perm before)
    (same : SameModes before after) :
    Made start kind perm after := by
  intro id obj stored fresh isKind
  obtain ⟨old, oldStored, oldKind, oldPerm⟩ := same id obj stored
  rw [← oldPerm]
  exact made id old oldStored fresh (oldKind.trans isKind)

namespace SameModes

theorem refl
    (disk : Disk) :
    SameModes disk disk :=
  fun _ obj stored => ⟨obj, stored, rfl, rfl⟩

theorem trans
    {middle : Disk}
    (first : SameModes before middle)
    (second : SameModes middle after) :
    SameModes before after := by
  intro id obj stored
  obtain ⟨between, betweenStored, sameKind, samePerm⟩ := second id obj stored
  obtain ⟨old, oldStored, oldKind, oldPerm⟩ := first id between betweenStored
  exact ⟨old, oldStored, oldKind.trans sameKind, oldPerm.trans samePerm⟩

theorem modifyObj
    (disk : Disk)
    (id : ObjId)
    {change : Obj → Obj}
    (sameKind : ∀ obj, (change obj).kind = obj.kind)
    (samePerm : ∀ obj, (change obj).perm = obj.perm) :
    SameModes disk (disk.modifyObj id change) := by
  intro query obj stored
  rw [objs_modifyObj] at stored
  split at stored
  · next same =>
      obtain ⟨old, oldStored, rfl⟩ := Option.map_eq_some_iff.mp stored
      exact ⟨old, same ▸ oldStored, (sameKind old).symm, (samePerm old).symm⟩
  · exact ⟨obj, stored, rfl, rfl⟩

theorem touch
    (disk : Disk)
    (dir : Loc) :
    SameModes disk (disk.touch dir) := by
  unfold Disk.touch
  split
  · exact .refl disk
  · exact modifyObj disk _ (fun _ => rfl) fun _ => rfl

theorem unlinkat
    {dir : Loc}
    {name : Name}
    {removeDir : Bool}
    (returned : disk.unlinkat dir name removeDir = .ok later) :
    SameModes disk later := by
  rw [unlinkat_returns returned]
  exact (SameModes.refl disk).trans (touch (disk.dropName _) dir)

theorem renameat
    {oldDir newDir : Loc}
    {oldName newName : Name}
    (returned : disk.renameat oldDir oldName newDir newName = .ok later) :
    SameModes disk later := by
  unfold Disk.renameat at returned
  simp only at returned
  split at returned
  · cases returned
  · split at returned
    · cases returned
    · split at returned
      · cases returned
        exact .refl disk
      · split at returned
        · cases returned
        · cases returned
          have moved : ∀ place, SameModes disk (disk.moveNames place) :=
            fun _ => .refl disk
          exact ((moved _).trans (touch _ oldDir)).trans (touch _ newDir)

end SameModes

/-- A new object decides for itself. -/
theorem Made.create
    {dir : Loc}
    {name : Name}
    {obj : Obj}
    {id : ObjId}
    (made : Made start kind perm before)
    (isPerm : obj.kind = kind → obj.perm = perm)
    (returned : before.create dir name obj = .ok (id, later)) :
    Made start kind perm later := by
  obtain ⟨-, -, -, -, rfl⟩ := create_returns returned
  have added :
      Made start kind perm (before.addObj (dir.child name) obj) := by
    intro query found stored fresh isKind
    rw [objs_addObj] at stored
    split at stored
    · cases stored
      exact isPerm isKind
    · exact made query found stored fresh isKind
  exact added.sameModes (SameModes.touch _ dir)

end

end Disk

namespace Syscall

open Disk Whiteout

section

variable {env : Env} {start : Disk} {kind : FileKind} {perm : UInt32}

/-! ## System calls -/

theorem keeps_made_change
    {run : Disk → Except Errno Disk}
    (same : ∀ {disk later}, run disk = .ok later → SameModes disk later) :
    Keeps (fun os => Made start kind perm os.disk) (change run) :=
  @keeps_change (Made start kind perm) _ fun made ran =>
    made.sameModes (same ran)

theorem keeps_made_query
    {α : Type}
    (read : Disk → Except Errno α) :
    Keeps (fun os => Made start kind perm os.disk) (query read) :=
  @keeps_query α (Made start kind perm) read

theorem keeps_made_unlinkat
    (dir : Loc)
    (name : Name)
    (removeDir : Bool) :
    Keeps (fun os => Made start kind perm os.disk)
      (unlinkat dir name removeDir) :=
  keeps_made_change SameModes.unlinkat

theorem keeps_made_renameat
    (oldDir : Loc)
    (oldName : Name)
    (newDir : Loc)
    (newName : Name) :
    Keeps (fun os => Made start kind perm os.disk)
      (renameat oldDir oldName newDir newName) :=
  keeps_made_change SameModes.renameat

theorem keeps_made_fchownat
    (dir : Loc)
    (name : Name)
    (uid gid : UInt32) :
    Keeps (fun os => Made start kind perm os.disk)
      (fchownat dir name uid gid) := by
  refine keeps_made_change fun ran => ?_
  split at ran
  · cases ran
  · cases ran
    exact .modifyObj _ _ (fun _ => rfl) fun _ => rfl

theorem keeps_made_fchown
    (fd : Fd)
    (uid gid : UInt32) :
    Keeps (fun os => Made start kind perm os.disk) (fchown fd uid gid) := by
  refine keeps_made_change fun ran => ?_
  split at ran
  · cases ran
  · cases ran
    exact .modifyObj _ _ (fun _ => rfl) fun _ => rfl

theorem keeps_made_fsetxattr
    (fd : Fd)
    (attr : Name)
    (value : List UInt8) :
    Keeps (fun os => Made start kind perm os.disk)
      (fsetxattr env fd attr value) := by
  refine keeps_made_change fun {disk later} ran => ?_
  cases allowed : writableXattr env attr with
  | error errno =>
      simp only [allowed, bind, Except.bind] at ran
      cases ran
  | ok granted =>
      simp only [allowed, bind, Except.bind] at ran
      split at ran
      · cases ran
      · split at ran
        · cases ran
        · rw [← Except.ok.inj ran]
          exact .modifyObj _ _ (fun _ => rfl) fun _ => rfl

theorem keeps_made_nextStIno :
    Keeps (fun os => Made start kind perm os.disk) nextStIno := by
  intro os holds
  unfold nextStIno
  split <;> exact holds

theorem sameModes_openObj
    {disk later : Disk}
    {root : Root}
    {id : ObjId}
    {obj : Obj}
    {flags : OpenFlags}
    {fd : Fd}
    (returned : openObj disk root id obj flags = .ok (fd, later)) :
    SameModes disk later := by
  unfold openObj at returned
  simp only at returned
  split at returned
  · cases returned
  · split at returned
    · cases returned
      exact .refl disk
    · split at returned
      · cases returned
      · split at returned
        · cases returned
        · split at returned
          · cases returned
          · split at returned
            · cases returned
              exact .modifyObj disk id (fun _ => rfl) fun _ => rfl
            · cases returned
              exact .refl disk

/-- What an open can make is a regular file. -/
theorem keeps_made_safeOpenat
    {base : Loc}
    {path : Path}
    {flags : OpenFlags}
    {asked : UInt32}
    (makes :
      flags.creat = true → kind = .reg →
        (asked &&& 0o7777) &&& ~~~env.host.umask = perm) :
    Keeps (fun os => Made start kind perm os.disk)
      (safeOpenat env base path flags asked) := by
  refine Keeps.bind keeps_made_nextStIno fun ino => ?_
  refine @keeps_call _ (Made start kind perm) _ fun made ran => ?_
  simp only at ran
  split at ran
  · cases ran
  · next loc located =>
      split at ran
      · split at ran
        · next creat =>
            split at ran
            · cases ran
            · next name ends =>
                generalize outcome : Disk.create _ _ name _ = created at ran
                cases created with
                | error errno =>
                    cases ran
                | ok new =>
                    cases ran
                    exact made.create (fun isReg => makes creat isReg.symm)
                      outcome
        · cases ran
      · split at ran
        · cases ran
        · split at ran
          · cases ran
          · exact made.sameModes (sameModes_openObj ran)

theorem keeps_made_makeObj
    {dir : Loc}
    {name : Name}
    {newKind : FileKind}
    {asked : UInt32}
    {rdev : UInt64}
    {data : List UInt8}
    (makes : newKind = kind → asked &&& ~~~env.host.umask = perm) :
    Keeps (fun os => Made start kind perm os.disk)
      (makeObj env dir name newKind asked rdev data) := by
  refine Keeps.bind keeps_made_nextStIno fun ino => ?_
  exact @keeps_call _ (Made start kind perm) _ fun made ran =>
    made.create makes ran

theorem keeps_made_mkdirat
    {dir : Loc}
    {name : Name}
    {mode : Mode}
    (makes :
      kind = .dir → (mode.perm &&& 0o1777) &&& ~~~env.host.umask = perm) :
    Keeps (fun os => Made start kind perm os.disk)
      (mkdirat env dir name mode) :=
  Keeps.bind (keeps_made_makeObj fun isDir => makes isDir.symm) fun _ =>
    Keeps.pure _

theorem keeps_made_mknodat
    {dir : Loc}
    {name : Name}
    {mode : Mode}
    {rdev : UInt64}
    (makes : (mode.perm &&& 0o7777) &&& ~~~env.host.umask = perm) :
    Keeps (fun os => Made start kind perm os.disk)
      (mknodat env dir name mode rdev) := by
  have new :
      ∀ newKind rdev, Keeps (fun os => Made start kind perm os.disk)
        (do
          let _ ← makeObj env dir name newKind (mode.perm &&& 0o7777) rdev []
          pure ()) :=
    fun _ _ => Keeps.bind (keeps_made_makeObj fun _ => makes) fun _ =>
      Keeps.pure _
  unfold mknodat
  split
  · exact Keeps.fail _
  · exact Keeps.fail _
  · split
    · exact new _ _
    · exact keeps_made_query _
  · split
    · exact new _ _
    · exact keeps_made_query _
  · exact new _ _
  · exact new _ _

/-! ## Series of calls -/

theorem keeps_made_safeParent
    (base : Loc)
    (path : Path) :
    Keeps (fun os => Made start kind perm os.disk) (safeParent base path) := by
  unfold safeParent
  split
  · exact Keeps.pure _
  · split
    · exact Keeps.pure _
    · exact Keeps.bind (keeps_made_query _) fun dir => Keeps.pure _

theorem keeps_made_chownNew
    (caller : Caller)
    (wd : Name) :
    Keeps (fun os => Made start kind perm os.disk) (chownNew env caller wd) :=
  Keeps.bind (Keeps.attempt (keeps_made_fchownat _ _ _ _)) fun _ =>
    Keeps.pure _

theorem keeps_made_placeNew
    (wd : Name)
    (isDir : Bool)
    (path : Path) :
    Keeps (fun os => Made start kind perm os.disk) (placeNew wd isDir path) := by
  refine Keeps.bind (Keeps.attempt (keeps_made_safeParent _ _))
    fun outcome => ?_
  split
  · exact Keeps.pure _
  · exact Keeps.bind (Keeps.attempt (keeps_made_unlinkat _ _ _)) fun _ =>
      Keeps.fail _

theorem keeps_made_installFile
    (wd : Name)
    (dir : Loc)
    (name : Name) :
    Keeps (fun os => Made start kind perm os.disk)
      (installFile wd dir name) := by
  refine Keeps.bind (Keeps.attempt (keeps_made_renameat _ _ _ _))
    fun outcome => ?_
  split
  · exact Keeps.pure _
  · exact Keeps.bind (Keeps.attempt (keeps_made_unlinkat _ _ _)) fun _ =>
      Keeps.fail _

theorem keeps_made_abandonDir
    {α : Type}
    (wd : Name)
    (errno : Errno) :
    Keeps (fun os => Made start kind perm os.disk)
      (abandonDir wd errno : Syscall α) :=
  Keeps.bind (Keeps.attempt (keeps_made_unlinkat _ _ _)) fun _ => Keeps.fail _

theorem keeps_made_installNewDir
    (wd : Name)
    (dir : Loc)
    (name : Name) :
    Keeps (fun os => Made start kind perm os.disk)
      (installNewDir wd dir name) := by
  refine Keeps.bind (Keeps.attempt (keeps_made_renameat _ _ _ _))
    fun outcome => ?_
  split
  · exact Keeps.pure _
  · refine Keeps.bind (Keeps.attempt (keeps_made_unlinkat _ _ _)) fun _ => ?_
    refine Keeps.bind (Keeps.attempt (keeps_made_renameat _ _ _ _))
      fun outcome => ?_
    split
    · exact Keeps.pure _
    · exact keeps_made_abandonDir _ _
  · exact keeps_made_abandonDir _ _

theorem keeps_made_setOpaqueXattr
    (fd : Fd) :
    Keeps (fun os => Made start kind perm os.disk)
      (setOpaqueXattr env fd) := by
  refine Keeps.bind (Keeps.attempt (keeps_made_fsetxattr _ _ _))
    fun outcome => ?_
  split
  · exact Keeps.pure _
  · exact Keeps.pure _
  · refine Keeps.bind (Keeps.attempt (keeps_made_fsetxattr _ _ _))
      fun outcome => ?_
    split
    · exact Keeps.pure _
    · exact Keeps.pure _
    · exact Keeps.fail _
  · exact Keeps.fail _

/-- The mark of a new directory is no directory. -/
theorem keeps_made_markNewOpaque
    (notReg : kind ≠ .reg)
    (wd : Name)
    (lastLayerIdx : Nat) :
    Keeps (fun os => Made start kind perm os.disk)
      (markNewOpaque env wd lastLayerIdx) := by
  have opens :
      ∀ {base path flags asked}, Keeps (fun os => Made start kind perm os.disk)
        (safeOpenat env base path flags asked) :=
    keeps_made_safeOpenat fun _ isReg => absurd isReg notReg
  refine Keeps.runIf ?_
  refine Keeps.bind (Keeps.attempt opens) fun outcome => ?_
  split
  · refine Keeps.bind (Keeps.attempt ?_) fun _ => Keeps.pure _
    refine Keeps.bind (keeps_made_setOpaqueXattr _) fun xattrSet => ?_
    refine Keeps.bind (Keeps.attempt opens) fun sentinel => ?_
    split
    · exact Keeps.pure _
    · split
      · exact Keeps.pure _
      · exact Keeps.fail _
  · exact Keeps.pure _

theorem keeps_made_deleteWhiteout
    (upper dir : Loc)
    (parentPath : Path)
    (name : Name) :
    Keeps (fun os => Made start kind perm os.disk)
      (deleteWhiteout upper (some dir) parentPath name) := by
  refine Keeps.bind (Keeps.gets _) fun canMknod => ?_
  refine Keeps.bind (Keeps.runIf ?_) fun _ => ?_
  · refine Keeps.bind (Keeps.attempt (keeps_made_query _)) fun outcome => ?_
    split
    · exact Keeps.runIf (keeps_made_unlinkat _ _ _)
    · exact Keeps.pure _
  · refine Keeps.bind (Keeps.attempt (keeps_made_unlinkat _ _ _))
      fun outcome => ?_
    split
    · exact Keeps.pure _
    · exact Keeps.pure _
    · exact Keeps.fail _

theorem keeps_made_nextWdName :
    Keeps (fun os => Made start kind perm os.disk) nextWdName :=
  fun _ holds => holds

/-- Both ways of `create` to its file. -/
theorem keeps_made_openNew
    {whited : Bool}
    {pnodePath : Path}
    {name : Name}
    {flags : OpenFlags}
    {asked : UInt32}
    (makes :
      kind = .reg → (asked &&& 0o7777) &&& ~~~env.host.umask = perm) :
    Keeps (fun os => Made start kind perm os.disk)
      (openNew env whited pnodePath name flags asked) := by
  unfold openNew
  split
  · refine Keeps.bind keeps_made_nextWdName fun wd => ?_
    refine Keeps.bind (keeps_made_safeOpenat fun _ => makes) fun _ => ?_
    refine Keeps.bind (keeps_made_placeNew _ _ _) fun place => ?_
    refine Keeps.bind (keeps_made_installFile _ _ _) fun _ => ?_
    refine Keeps.bind (Keeps.attempt (keeps_made_deleteWhiteout _ _ _ _))
      fun _ => ?_
    exact keeps_made_safeOpenat fun _ => makes
  · exact keeps_made_safeOpenat fun _ => makes

end

end Syscall

/-! ## The handlers -/

namespace Daemon

open Syscall Disk

section

variable {env : Env} {start : Disk} {kind : FileKind} {perm : UInt32}

theorem keeps_made_lift
    {α : Type}
    {act : Syscall α}
    (keeps : Keeps (fun os => Made start kind perm os.disk) act) :
    Keeps (fun sys => Made start kind perm sys.os.disk)
      (liftM act : Daemon α) :=
  fun sys holds => keeps sys.os holds

theorem keeps_made_inheritAcl
    (parentId : NodeId)
    (target : Fd) :
    Keeps (fun sys => Made start kind perm sys.os.disk)
      (inheritAcl env parentId target) := by
  unfold inheritAcl
  split
  · exact Keeps.pure _
  · refine Keeps.bind (Keeps.gets _) fun path => ?_
    refine Keeps.bind (Keeps.gets _) fun found => ?_
    split
    · exact Keeps.pure _
    · split
      · exact Keeps.pure _
      · refine Keeps.bind (keeps_made_lift (Keeps.attempt
          (keeps_made_query _))) fun value => ?_
        split
        · exact Keeps.pure _
        · exact Keeps.pure _
        · exact Keeps.bind (keeps_made_lift (Keeps.attempt
            (keeps_made_fsetxattr _ _ _))) fun _ => Keeps.pure _

theorem keeps_made_inheritNewAcl
    (parentId : NodeId)
    (wd : Name)
    {flags : OpenFlags}
    (opens : flags.creat = false) :
    Keeps (fun sys => Made start kind perm sys.os.disk)
      (inheritNewAcl env parentId wd flags) := by
  refine Keeps.bind (keeps_made_lift (Keeps.attempt
    (keeps_made_safeOpenat fun creat => ?_))) fun outcome => ?_
  · rw [opens] at creat
    cases creat
  · split
    · exact keeps_made_inheritAcl _ _
    · exact Keeps.pure _

theorem keeps_made_createAndRegisterChild
    (parentId : NodeId)
    (name : Name)
    (st : Stat)
    (isDir : Bool) :
    Keeps (fun sys => Made start kind perm sys.os.disk)
      (createAndRegisterChild env parentId name st isDir) := by
  refine Keeps.bind (fun _ holds => holds) fun childId => ?_
  refine Keeps.bind (fun sys holds => ?_) fun registered => ?_
  · unfold register
    split <;> exact holds
  · refine Keeps.bind (Keeps.orFail _ _) fun fuseIno => ?_
    refine Keeps.bind (fun _ holds => holds) fun _ => ?_
    refine Keeps.bind (Keeps.gets _) fun parent => ?_
    refine Keeps.bind (Keeps.check _ _) fun _ => ?_
    exact Keeps.bind (fun _ holds => holds) fun _ => Keeps.pure _

theorem keeps_made_statAndRegisterChild
    (parentId : NodeId)
    (name : Name)
    (path : Path) :
    Keeps (fun sys => Made start kind perm sys.os.disk)
      (statAndRegisterChild env parentId name path) := by
  refine Keeps.bind (keeps_made_lift (keeps_made_query _)) fun st => ?_
  exact Keeps.bind (keeps_made_createAndRegisterChild _ _ _ _) fun _ =>
    Keeps.pure _

theorem keeps_made_installNew
    (wd : Name)
    (pnodeId : NodeId)
    (pnodePath : Path)
    (name : Name) :
    Keeps (fun sys => Made start kind perm sys.os.disk)
      (installNew env wd pnodeId pnodePath name) := by
  refine Keeps.bind (keeps_made_lift (keeps_made_placeNew _ _ _))
    fun place => ?_
  refine Keeps.bind (keeps_made_lift (keeps_made_installFile _ _ _))
    fun _ => ?_
  refine Keeps.bind (keeps_made_lift (Keeps.attempt
    (keeps_made_deleteWhiteout _ _ _ _))) fun _ => ?_
  exact keeps_made_statAndRegisterChild _ _ _

/-- A creating request up to where it makes its object: the name is free and
the parent directory is on the upper layer. -/
def readyParent
    (env : Env) :
    Request → Daemon Unit
  | .create _ parent name _ _ => do
      checkNamemax env name
      let _ ← createsOverWhiteout env parent name
      let _ ← prepareCreateParent env parent
  | .mkdir _ parent name _ | .mknod _ parent name _ _ => do
      checkNamemax env name
      checkFree env parent name
      let _ ← prepareCreateParent env parent
  | _ => pure ()

variable {sys : Sys} {caller : Caller} {parent : UInt64} {name : Name}
  {mode : Mode}

/-- What `mknod` makes has the bits of its mode and of `0755`. -/
theorem mknod_makes
    {rdev : UInt32}
    {reply : Reply}
    (replied : (mknod env caller parent name mode rdev sys).1 = .ok reply) :
    Made (readyParent env (.mknod caller parent name mode rdev) sys).2.os.disk
      kind (((mode.perm ||| 0o755) &&& 0o7777) &&& ~~~env.host.umask)
      (mknod env caller parent name mode rdev sys).2.os.disk := by
  unfold mknod at replied ⊢
  obtain ⟨_, named, checked, rest⟩ := Act.bind_returns replied
  rw [rest] at replied ⊢
  obtain ⟨_, free, found, rest⟩ := Act.bind_returns replied
  rw [rest] at replied ⊢
  obtain ⟨⟨pnodeId, pnodePath⟩, ready, prepared, rest⟩ :=
    Act.bind_returns replied
  rw [rest]
  have isReady :
      (readyParent env (.mknod caller parent name mode rdev) sys).2 = ready := by
    simp only [readyParent]
    rw [Act.bind_ok checked, Act.bind_ok found, Act.bind_ok prepared]
    rfl
  rw [isReady]
  refine (?_ : Keeps (fun sys => Made ready.os.disk kind _ sys.os.disk) _)
    ready .refl
  refine Keeps.bind (keeps_made_lift keeps_made_nextWdName) fun wd => ?_
  refine Keeps.bind (keeps_made_lift (keeps_made_mknodat rfl)) fun _ => ?_
  refine Keeps.bind (keeps_made_lift (keeps_made_chownNew _ _)) fun _ => ?_
  refine Keeps.bind (keeps_made_inheritNewAcl _ _ rfl) fun _ => ?_
  exact keeps_made_installNew _ _ _ _

/-- The directory that `mkdir` makes has the bits of its mode. -/
theorem mkdir_makes
    {reply : Reply}
    (replied : (mkdir env caller parent name mode sys).1 = .ok reply) :
    Made (readyParent env (.mkdir caller parent name mode) sys).2.os.disk
      .dir ((mode.perm &&& 0o1777) &&& ~~~env.host.umask)
      (mkdir env caller parent name mode sys).2.os.disk := by
  unfold mkdir at replied ⊢
  obtain ⟨_, named, checked, rest⟩ := Act.bind_returns replied
  rw [rest] at replied ⊢
  obtain ⟨_, free, found, rest⟩ := Act.bind_returns replied
  rw [rest] at replied ⊢
  obtain ⟨⟨pnodeId, pnodePath⟩, ready, prepared, rest⟩ :=
    Act.bind_returns replied
  rw [rest]
  have isReady :
      (readyParent env (.mkdir caller parent name mode) sys).2 = ready := by
    simp only [readyParent]
    rw [Act.bind_ok checked, Act.bind_ok found, Act.bind_ok prepared]
    rfl
  rw [isReady]
  refine (?_ : Keeps (fun sys => Made ready.os.disk .dir _ sys.os.disk) _)
    ready .refl
  refine Keeps.bind (Keeps.bind (Keeps.gets _) fun _ =>
    Keeps.orFail _ _) fun pnode => ?_
  refine Keeps.bind (keeps_made_lift keeps_made_nextWdName) fun wd => ?_
  refine Keeps.bind (keeps_made_lift (keeps_made_mkdirat fun _ => rfl))
    fun _ => ?_
  refine Keeps.bind (keeps_made_lift (keeps_made_chownNew _ _)) fun _ => ?_
  refine Keeps.bind (keeps_made_lift
    (keeps_made_markNewOpaque (by decide) _ _)) fun _ => ?_
  refine Keeps.bind (keeps_made_inheritNewAcl _ _ rfl) fun _ => ?_
  refine Keeps.bind (keeps_made_lift (keeps_made_placeNew _ _ _))
    fun place => ?_
  refine Keeps.bind (keeps_made_lift (keeps_made_installNewDir _ _ _))
    fun _ => ?_
  refine Keeps.bind (keeps_made_lift (Keeps.attempt
    (keeps_made_deleteWhiteout _ _ _ _))) fun _ => ?_
  exact keeps_made_statAndRegisterChild _ _ _

/-- The file that `create` makes has the bits of its mode. -/
theorem create_makes
    {flags : OpenFlags}
    {reply : Reply}
    (replied : (create env caller parent name mode flags sys).1 = .ok reply) :
    Made (readyParent env (.create caller parent name mode flags) sys).2.os.disk
      kind ((mode.perm &&& 0o7777) &&& ~~~env.host.umask)
      (create env caller parent name mode flags sys).2.os.disk := by
  unfold create at replied ⊢
  obtain ⟨_, named, checked, rest⟩ := Act.bind_returns replied
  rw [rest] at replied ⊢
  obtain ⟨whited, free, found, rest⟩ := Act.bind_returns replied
  rw [rest] at replied ⊢
  obtain ⟨⟨pnodeId, pnodePath⟩, ready, prepared, rest⟩ :=
    Act.bind_returns replied
  rw [rest]
  have isReady :
      (readyParent env (.create caller parent name mode flags) sys).2 =
        ready := by
    simp only [readyParent]
    rw [Act.bind_ok checked, Act.bind_ok found, Act.bind_ok prepared]
    rfl
  rw [isReady]
  refine (?_ : Keeps (fun sys => Made ready.os.disk kind _ sys.os.disk) _)
    ready .refl
  refine Keeps.bind (keeps_made_lift (keeps_made_openNew fun _ => rfl))
    fun fd => ?_
  refine Keeps.bind (keeps_made_lift (Keeps.attempt
    (keeps_made_fchown _ _ _))) fun _ => ?_
  refine Keeps.bind (keeps_made_inheritAcl _ _) fun _ => ?_
  refine Keeps.bind (keeps_made_lift (keeps_made_query _)) fun st => ?_
  refine Keeps.bind (keeps_made_createAndRegisterChild _ _ _ _) fun _ => ?_
  exact Keeps.bind (fun _ holds => holds) fun _ => Keeps.pure _

end

end Daemon

/-! ## Umasks -/

/-- Both umasks take the same bits of a mode, where some bits are always
added to it. -/
theorem masked_eq_iff
    (mode always host umask : UInt32) :
    (mode ||| always) &&& ~~~host &&& 0o777 = mode &&& ~~~umask &&& 0o777 ↔
      mode &&& (host ^^^ umask) &&& 0o777 = 0 ∧
        always &&& ~~~mode &&& ~~~host &&& 0o777 = 0 := by
  simp only [← UInt32.toBitVec_inj, BitVec.eq_of_getLsbD_eq_iff]
  rw [← forall₂_and]
  refine forall₂_congr fun index below => ?_
  simp only [UInt32.toBitVec_and, UInt32.toBitVec_or, UInt32.toBitVec_xor,
    UInt32.toBitVec_not, UInt32.toBitVec_zero, BitVec.getLsbD_and,
    BitVec.getLsbD_or, BitVec.getLsbD_xor, BitVec.getLsbD_not,
    BitVec.getLsbD_zero, below, decide_true, Bool.true_and]
  -- one bit of each number
  generalize mode.toBitVec.getLsbD index = isMode
  generalize always.toBitVec.getLsbD index = isAlways
  generalize host.toBitVec.getLsbD index = isHost
  generalize umask.toBitVec.getLsbD index = isUmask
  generalize (511 : UInt32).toBitVec.getLsbD index = isLow
  revert isMode isAlways isHost isUmask isLow
  decide

/-- The low nine bits of what the host makes. -/
theorem low_masked
    {mask : UInt32}
    (covers : mask &&& 0o777 = 0o777)
    (mode host : UInt32) :
    (mode &&& mask) &&& ~~~host &&& 0o777 = mode &&& ~~~host &&& 0o777 := by
  calc
    (mode &&& mask) &&& ~~~host &&& 0o777 =
        mode &&& ~~~host &&& (mask &&& 0o777) := by
      rw [UInt32.and_assoc mode mask, UInt32.and_comm mask,
        ← UInt32.and_assoc mode, UInt32.and_assoc _ mask]
    _ = mode &&& ~~~host &&& 0o777 := by
      rw [covers]

/-! ## Requests -/

/-- The object that a request is to make: its type, its mode, and the bits
that the handler adds. -/
structure NewObject where
  kind : FileKind
  mode : UInt32
  always : UInt32

def Request.makes : Request → Option NewObject
  | .create _ _ _ mode _ => some ⟨.reg, mode.perm, 0⟩
  | .mkdir _ _ _ mode => some ⟨.dir, mode.perm, 0⟩
  | .mknod _ _ _ mode _ => some ⟨mode.kind.getD .reg, mode.perm, 0o755⟩
  | _ => none

namespace Sys

/-- The state in which a request makes its object. -/
def readied
    (env : Env)
    (sys : Sys)
    (call : Call) :
    Sys :=
  (Daemon.readyParent env call.request (sys.begin call)).2

section

variable {env : Env} {sys : Sys} {call : Call} {new : NewObject}
  {reply : Reply} {id : ObjId} {obj : Obj}

/-- The permissions of a new object: the umask of the daemon decides. -/
theorem perm_of_made
    (makes : call.request.makes = some new)
    (replied : (sys.step env call).1 = .ok reply)
    (fresh : (sys.readied env call).os.disk.objs.get? id = none)
    (stored : (sys.step env call).2.os.disk.objs.get? id = some obj)
    (isNew : obj.kind = new.kind) :
    obj.perm &&& 0o777 =
      (new.mode ||| new.always) &&& ~~~env.host.umask &&& 0o777 := by
  unfold readied at fresh
  unfold step at replied stored
  cases isRequest : call.request with
  | create caller parent name mode flags =>
      rw [isRequest] at makes replied fresh stored
      cases makes
      rw [Daemon.create_makes replied id obj stored fresh isNew,
        low_masked (by decide), UInt32.or_zero]
  | mkdir caller parent name mode =>
      rw [isRequest] at makes replied fresh stored
      cases makes
      rw [Daemon.mkdir_makes replied id obj stored fresh isNew,
        low_masked (by decide), UInt32.or_zero]
  | mknod caller parent name mode rdev =>
      rw [isRequest] at makes replied fresh stored
      cases makes
      rw [Daemon.mknod_makes replied id obj stored fresh isNew,
        low_masked (by decide)]
  | _ =>
      rw [isRequest] at makes
      cases makes

/--
A new object has the bits of its mode without the umask of the request exactly
if the umask of the daemon takes the same bits of the mode, and all that the
handler adds to it.
-/
theorem created_mode_iff
    {disk : Disk}
    (_reachable : Reachable env disk sys)
    (makes : call.request.makes = some new)
    (replied : (sys.step env call).1 = .ok reply)
    (fresh : (sys.readied env call).os.disk.objs.get? id = none)
    (stored : (sys.step env call).2.os.disk.objs.get? id = some obj)
    (isNew : obj.kind = new.kind)
    (umask : UInt32) :
    obj.perm &&& 0o777 = new.mode &&& ~~~umask &&& 0o777 ↔
      new.mode &&& (env.host.umask ^^^ umask) &&& 0o777 = 0 ∧
        new.always &&& ~~~new.mode &&& ~~~env.host.umask &&& 0o777 = 0 := by
  rw [perm_of_made makes replied fresh stored isNew]
  exact masked_eq_iff new.mode new.always env.host.umask umask

end

end Sys

namespace Sample

/-- A mount with one file. -/
def mounted : Sys :=
  .mount (env 0) upperFile

def makeDir : Call :=
  call (.mkdir ⟨0, 0⟩ 1 (ascii "f") ⟨some .dir, 0o775⟩)

def makeFifo : Call :=
  call (.mknod ⟨0, 0⟩ 1 (ascii "f") ⟨some .fifo, 0o600⟩ 0)

def makeFile : Call :=
  call (.create ⟨0, 0⟩ 1 (ascii "f") ⟨some .reg, 0o666⟩
    { OpenFlags.rdonly with write := true, creat := true })

/-- The object that a request makes, with its type and permissions. -/
def madeBy (call : Call) : Option (FileKind × UInt32) :=
  if ((mounted.step (env 0) call).1.toOption).isSome ∧
      (mounted.readied (env 0) call).os.disk.objs.get? 3 = none then
    ((mounted.step (env 0) call).2.os.disk.objs.get? 3).map fun obj =>
      (obj.kind, obj.perm)
  else
    none

/-- The umask of the daemon is the one of the request. -/
theorem created_mode_directory :
    madeBy makeDir = some (.dir, 0o755) ∧
      0o755 &&& 0o777 = (0o775 : UInt32) &&& ~~~0o022 &&& 0o777 := by
  refine ⟨by decide +kernel, ?_⟩
  have replied :
      (((mounted.step (env 0) makeDir).1.toOption).isSome) = true := by
    decide +kernel
  have stored :
      ((mounted.step (env 0) makeDir).2.os.disk.objs.get? 3).map (fun obj =>
        (obj.kind, obj.perm)) = some (.dir, 0o755) := by
    decide +kernel
  obtain ⟨obj, isObj, shape⟩ := Option.map_eq_some_iff.mp stored
  obtain ⟨isDir, isPerm⟩ := Prod.mk.inj shape
  cases outcome : (mounted.step (env 0) makeDir).1 with
  | error errno =>
      rw [outcome] at replied
      cases replied
  | ok reply =>
      rw [← isPerm]
      exact (@Sys.created_mode_iff (env 0) mounted makeDir
        ⟨.dir, 0o775, 0⟩ reply 3 obj upperFile ⟨[], rfl⟩ rfl outcome
        (by decide +kernel) isObj isDir 0o022).2 (by decide)

/-- A fifo is open to everyone, and a file keeps bits that the umask of its
request takes. -/
theorem created_mode_ignored :
    (madeBy makeFifo = some (.fifo, 0o755) ∧
      (0o755 : UInt32) &&& 0o777 ≠ 0o600 &&& ~~~0o077 &&& 0o777) ∧
    madeBy makeFile = some (.reg, 0o644) ∧
      (0o644 : UInt32) &&& 0o777 ≠ 0o666 &&& ~~~0o077 &&& 0o777 := by
  refine ⟨⟨?_, by decide⟩, ?_, by decide⟩ <;> decide +kernel

end Sample

end FuseOverlay
