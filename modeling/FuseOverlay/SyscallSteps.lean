import FuseOverlay.DiskPaths
import FuseOverlay.Syscall

namespace FuseOverlay

/-!
# System calls one by one

A call takes its fault and then reads or changes the trees.  The equations say
what each shape of a call does, and the lemmas below them what is known once a
call returned a value.
-/

namespace Os

/-- What the next system call fails with, if the disk makes it fail. -/
def nextFault (os : Os) : Option Errno :=
  os.faults.head?.join

/-- The state once a system call took its fault. -/
def called (os : Os) : Os :=
  { os with faults := os.faults.tail }

end Os

open Act (Keeps)

namespace Syscall

theorem takeFault_eq
    (os : Os) :
    takeFault os =
      (match os.nextFault with
        | none => .ok ()
        | some errno => .error errno, os.called) := by
  unfold takeFault Os.nextFault Os.called
  rcases os with ⟨disk, counter, flag, faults, inos⟩
  cases faults with
  | nil =>
      rfl
  | cons fault rest =>
      cases fault <;> rfl

theorem query_eq
    {α : Type}
    (read : Disk → Except Errno α)
    (os : Os) :
    query read os =
      (match os.nextFault with
        | none => read os.disk
        | some errno => .error errno, os.called) := by
  change Act.bind takeFault _ os = _
  unfold Act.bind
  rw [takeFault_eq]
  cases os.nextFault <;> rfl

theorem call_eq
    {α : Type}
    (run : Disk → Except Errno (α × Disk))
    (os : Os) :
    call run os =
      match os.nextFault with
      | some errno => (.error errno, os.called)
      | none =>
          match run os.disk with
          | .ok (value, disk) => (.ok value, { os.called with disk := disk })
          | .error errno => (.error errno, os.called) := by
  change Act.bind takeFault _ os = _
  unfold Act.bind
  rw [takeFault_eq]
  cases os.nextFault with
  | some errno =>
      rfl
  | none =>
      have sameDisk : os.called.disk = os.disk := rfl
      cases ran : run os.disk with
      | error errno =>
          simp [sameDisk, ran]
      | ok made =>
          simp [sameDisk, ran]

theorem change_eq
    (run : Disk → Except Errno Disk)
    (os : Os) :
    change run os =
      match os.nextFault with
      | some errno => (.error errno, os.called)
      | none =>
          match run os.disk with
          | .ok disk => (.ok (), { os.called with disk := disk })
          | .error errno => (.error errno, os.called) := by
  unfold change
  rw [call_eq]
  cases os.nextFault with
  | some errno =>
      rfl
  | none =>
      simp only
      cases run os.disk <;> rfl

/-- Taking an inode number changes nothing that a call can see. -/
theorem nextStIno_returns
    (os : Os) :
    ∃ ino inos, nextStIno os = (.ok ino, { os with inos := inos }) := by
  unfold nextStIno
  split
  · exact ⟨_, os.inos, rfl⟩
  · next ino rest _ =>
      exact ⟨ino, rest, rfl⟩

/-- A call without a fault, and what it leaves for the next one. -/
theorem nextFault_of_noFaults
    {os : Os}
    (noFaults : os.faults = []) :
    os.nextFault = none ∧ os.called = os := by
  rcases os with ⟨disk, counter, flag, faults, inos⟩
  cases noFaults
  exact ⟨rfl, rfl⟩

/-- Without faults a call runs on the trees. -/
theorem call_noFaults
    {α : Type}
    {run : Disk → Except Errno (α × Disk)}
    {os : Os}
    (noFaults : os.faults = []) :
    call run os =
      match run os.disk with
      | .ok (value, disk) => (.ok value, { os with disk := disk })
      | .error errno => (.error errno, os) := by
  obtain ⟨noFault, same⟩ := nextFault_of_noFaults noFaults
  rw [call_eq, noFault, same]

theorem change_noFaults
    {run : Disk → Except Errno Disk}
    {os : Os}
    (noFaults : os.faults = []) :
    change run os =
      match run os.disk with
      | .ok disk => (.ok (), { os with disk := disk })
      | .error errno => (.error errno, os) := by
  obtain ⟨noFault, same⟩ := nextFault_of_noFaults noFaults
  rw [change_eq, noFault, same]

theorem query_noFaults
    {α : Type}
    {read : Disk → Except Errno α}
    {os : Os}
    (noFaults : os.faults = []) :
    query read os = (read os.disk, os) := by
  obtain ⟨noFault, same⟩ := nextFault_of_noFaults noFaults
  rw [query_eq, noFault, same]

/-- What a query answers is on the disk. -/
theorem query_returns
    {α : Type}
    {read : Disk → Except Errno α}
    {value : α}
    {os later : Os}
    (returned : query read os = (.ok value, later)) :
    read os.disk = .ok value ∧ later.disk = os.disk := by
  rw [query_eq] at returned
  obtain ⟨answer, rfl⟩ := Prod.mk.inj returned
  cases fault : os.nextFault with
  | none =>
      rw [fault] at answer
      exact ⟨answer, rfl⟩
  | some errno =>
      rw [fault] at answer
      cases answer

/-- A change that succeeds changes the trees and may use up a fault. -/
theorem change_returns
    {run : Disk → Except Errno Disk}
    {os : Os}
    (returned : (change run os).1 = .ok ()) :
    ∃ disk faults, run os.disk = .ok disk ∧
      (change run os).2 = { os with disk := disk, faults := faults } := by
  rw [change_eq] at returned ⊢
  cases fault : os.nextFault with
  | some errno =>
      rw [fault] at returned
      cases returned
  | none =>
      rw [fault] at returned
      cases ran : run os.disk with
      | error errno =>
          simp only [ran] at returned
          cases returned
      | ok disk =>
          exact ⟨disk, os.faults.tail, rfl, rfl⟩

/-! ## What calls keep of the trees -/

theorem keeps_takeFault
    {kept : Disk → Prop} :
    Keeps (fun os => kept os.disk) takeFault := by
  intro os holds
  unfold takeFault
  split <;> exact holds

theorem keeps_query
    {α : Type}
    {kept : Disk → Prop}
    (read : Disk → Except Errno α) :
    Keeps (fun os => kept os.disk) (query read) :=
  Keeps.bind keeps_takeFault fun _ _ holds => holds

theorem keeps_change
    {kept : Disk → Prop}
    {run : Disk → Except Errno Disk}
    (keeps :
      ∀ {disk later}, kept disk → run disk = .ok later → kept later) :
    Keeps (fun os => kept os.disk) (change run) := by
  refine Keeps.bind keeps_takeFault fun _ os holds => ?_
  simp only
  cases ran : run os.disk with
  | error errno =>
      exact holds
  | ok later =>
      exact keeps holds ran

theorem keeps_call
    {α : Type}
    {kept : Disk → Prop}
    {run : Disk → Except Errno (α × Disk)}
    (keeps :
      ∀ {disk value later}, kept disk → run disk = .ok (value, later) →
        kept later) :
    Keeps (fun os => kept os.disk) (call run) := by
  refine Keeps.bind keeps_takeFault fun _ os holds => ?_
  simp only
  cases ran : run os.disk with
  | error errno =>
      exact holds
  | ok made =>
      exact keeps holds ran

/-! ## Names -/

/-- Where `safe_parent` leads. -/
theorem safeParent_returns
    {base dir : Loc}
    {path : Path}
    {last : Name}
    {os later : Os}
    (returned : safeParent base path os = (.ok (dir, last), later)) :
    os.disk.locate base path = .ok (dir.entry last) ∧
      (∀ parents name, path = parents ++ [name] →
        last = name ∧ os.disk.openDir base parents = .ok dir) ∧
      later.disk = os.disk := by
  unfold safeParent at returned
  cases ends : path.getLast? with
  | none =>
      rw [ends] at returned
      cases returned
      rw [List.getLast?_eq_none_iff] at ends
      subst ends
      refine ⟨rfl, fun parents name same => ?_, rfl⟩
      simp at same
  | some name =>
      have shape : path.dropLast ++ [name] = path :=
        List.dropLast_append_getLast? name ends
      have opens :
          os.disk.openDir base path.dropLast = .ok dir ∧ last = name ∧
            later.disk = os.disk := by
        rw [ends] at returned
        simp only at returned
        split at returned
        · next empty =>
            cases returned
            rw [empty]
            exact ⟨rfl, rfl, rfl⟩
        · obtain ⟨found, middle, opened, rest⟩ :=
            Act.bind_returns (congrArg Prod.fst returned)
          rw [rest] at returned
          cases returned
          obtain ⟨answer, unchanged⟩ := query_returns opened
          exact ⟨answer, rfl, unchanged⟩
      obtain ⟨opened, rfl, unchanged⟩ := opens
      refine ⟨?_, ?_, unchanged⟩
      · unfold Disk.locate
        rw [ends]
        simp only [opened]
      · intro parents other same
        rw [← shape] at same
        obtain ⟨rfl, rest⟩ := List.append_inj' same rfl
        cases rest
        exact ⟨rfl, opened⟩

/-! ## Descriptors -/

/-- The flags of a plain open: nothing is made, emptied or only named. -/
structure PlainFlags (flags : OpenFlags) : Prop where
  creat : flags.creat = false
  trunc : flags.trunc = false
  pathOnly : flags.pathOnly = false

theorem openObj_plain
    {disk later : Disk}
    {root : Root}
    {id : ObjId}
    {obj : Obj}
    {flags : OpenFlags}
    {fd : Fd}
    (plain : PlainFlags flags)
    (opened : openObj disk root id obj flags = .ok (fd, later)) :
    fd.obj = id ∧ fd.pathOnly = false ∧ later = disk := by
  unfold openObj at opened
  simp only [plain.pathOnly, plain.trunc, Bool.false_and, Bool.false_eq_true,
    ↓reduceIte] at opened
  split at opened
  · cases opened
  · split at opened
    · cases opened
    · split at opened
      · cases opened
      · split at opened
        · cases opened
        · cases opened
          exact ⟨rfl, rfl, rfl⟩

/-- The descriptor is of the object that an open of the path reaches. -/
def Reaches
    (disk : Disk)
    (base : Loc)
    (path : Path)
    (noFollow : Bool)
    (fd : Fd) : Prop :=
  ∃ loc,
    (if noFollow then disk.locate base path
      else disk.locateFollow base linkLimit base.path path) = .ok loc ∧
    disk.names.get? loc = some fd.obj ∧ fd.pathOnly = false

/-- A plain open changes nothing and leads to the object at the path. -/
theorem safeOpenat_plain
    {env : Env}
    {base : Loc}
    {path : Path}
    {flags : OpenFlags}
    {perm : UInt32}
    {os later : Os}
    {outcome : Except Errno Fd}
    (plain : PlainFlags flags)
    (ran : safeOpenat env base path flags perm os = (outcome, later)) :
    later.disk = os.disk ∧
      ∀ fd, outcome = .ok fd →
        Reaches os.disk base path flags.noFollow fd := by
  unfold safeOpenat at ran
  obtain ⟨ino, inos, supplied⟩ := nextStIno_returns os
  rw [Act.bind_ok supplied, call_eq] at ran
  have failed :
      ∀ {errno} {left : Os},
        ((.error errno, left) : Except Errno Fd × Os) = (outcome, later) →
        left.disk = os.disk → later.disk = os.disk ∧ ∀ fd, outcome = .ok fd →
          Reaches os.disk base path flags.noFollow fd :=
    fun ended same => by
      cases ended
      exact ⟨same, fun _ returned => by cases returned⟩
  cases fault : Os.nextFault { os with inos := inos } with
  | some errno =>
      rw [fault] at ran
      exact failed ran rfl
  | none =>
      rw [fault] at ran
      simp only at ran
      cases located :
          (if flags.noFollow then os.disk.locate base path
            else os.disk.locateFollow base linkLimit base.path path) with
      | error errno =>
          rw [located] at ran
          exact failed ran rfl
      | ok loc =>
          rw [located] at ran
          simp only [plain.creat, Bool.false_and, Bool.false_eq_true,
            ↓reduceIte] at ran
          cases named : os.disk.names.get? loc with
          | none =>
              rw [named] at ran
              exact failed ran rfl
          | some id =>
              rw [named] at ran
              simp only at ran
              cases stored : os.disk.objs.get? id with
              | none =>
                  rw [stored] at ran
                  exact failed ran rfl
              | some obj =>
                  rw [stored] at ran
                  simp only at ran
                  cases opened : openObj os.disk loc.root id obj flags with
                  | error errno =>
                      rw [opened] at ran
                      exact failed ran rfl
                  | ok made =>
                      rw [opened] at ran
                      cases ran
                      obtain ⟨isObj, notPath, same⟩ :=
                        openObj_plain plain opened
                      refine ⟨same, fun fd returned => ?_⟩
                      cases returned
                      exact ⟨loc, located, isObj ▸ named, notPath⟩

end Syscall

end FuseOverlay
