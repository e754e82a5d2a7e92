import FuseOverlay.DiskChanges
import FuseOverlay.Sample
import FuseOverlay.SyscallSteps
import FuseOverlay.TreeInvariant

namespace FuseOverlay

/-!
# Deleting and making whiteouts

A whiteout on the upper layer is a device under the name or a file with a
prefix.  `delete_whiteout` looks for the device only while `CAN_MKNOD` is set,
and takes a failed look for an absent device; a device that
`RENAME_WHITEOUT` left, or that an earlier mount left, stays.  The fallback of
`hide_node` makes the whiteout while the object still has the name.
-/

theorem whName_ne
    (name : Name) :
    whName name ≠ name := by
  intro same
  have lengths := congrArg List.length same
  simp only [whName, whPrefix, List.length_append, List.length_cons,
    List.length_nil] at lengths
  omega

theorem child_inj
    {dir place : Loc}
    {name other : Name} :
    dir.child name = place.child other ↔ dir = place ∧ name = other := by
  rcases dir with ⟨root, path⟩
  rcases place with ⟨root', path'⟩
  unfold Loc.child
  simp [and_assoc]

namespace Disk

variable {disk : Disk} {dir : Loc} {name : Name}

/-- Whether a name is a character device 0:0. -/
def whiteoutAt
    (disk : Disk)
    (loc : Loc) : Bool :=
  (disk.find? loc).any Obj.isWhiteoutDev

/-- The trees without an entry of a directory. -/
def unlinked
    (disk : Disk)
    (dir : Loc)
    (name : Name) :
    Disk :=
  (disk.dropName (dir.child name)).touch dir

theorem names_unlinked
    (disk : Disk)
    (dir query : Loc)
    (name : Name) :
    (disk.unlinked dir name).names.get? query =
      if query = dir.child name then none else disk.names.get? query := by
  unfold unlinked
  rw [names_touch, names_dropName]

theorem objs_unlinked
    {id : ObjId}
    (other : disk.names.get? dir ≠ some id) :
    (disk.unlinked dir name).objs.get? id = disk.objs.get? id := by
  unfold unlinked
  rw [objs_touch, names_dropName, if_neg (Loc.child_ne dir name).symm,
    if_neg other]
  rfl

theorem whiteoutAt_touch
    (disk : Disk)
    (dir query : Loc) :
    (disk.touch dir).whiteoutAt query = disk.whiteoutAt query := by
  unfold whiteoutAt find?
  rw [names_touch]
  cases disk.names.get? query with
  | none =>
      rfl
  | some id =>
      simp only [Option.bind_some, objs_touch]
      split
      · cases disk.objs.get? id <;> rfl
      · rfl

theorem whiteoutAt_unlinked
    {query : Loc}
    (other : query ≠ dir.child name) :
    (disk.unlinked dir name).whiteoutAt query = disk.whiteoutAt query := by
  unfold unlinked
  rw [whiteoutAt_touch]
  unfold whiteoutAt find?
  rw [names_dropName, if_neg other]
  rfl

/-- `unlinkat` of a name that is no directory. -/
theorem unlinkat_ok
    {later : Disk}
    (returned : disk.unlinkat dir name false = .ok later) :
    later = disk.unlinked dir name ∧ isSpecial name = false := by
  refine ⟨unlinkat_returns returned, ?_⟩
  unfold unlinkat at returned
  split at returned
  · cases returned
  · next proper =>
      simpa using proper

/-- The call finds no entry only where there is none. -/
theorem unlinkat_enoent
    (returned : disk.unlinkat dir name false = .error .ENOENT) :
    disk.names.get? (dir.child name) = none := by
  unfold unlinkat at returned
  split at returned
  · cases returned
  · split at returned
    · next missing =>
        cases stored : disk.names.get? (dir.child name) with
        | none =>
            rfl
        | some id =>
            obtain ⟨obj, -, found⟩ := find?_isSome stored
            unfold kindAt at missing
            rw [found] at missing
            cases missing
    · simp only [Bool.not_false, Bool.and_true, Bool.false_and,
        Bool.false_eq_true, ↓reduceIte] at returned
      split at returned
      · cases returned
      · cases returned

theorem create_ok
    {obj : Obj}
    (isDir : disk.kindAt dir = some .dir)
    (proper : isSpecial name = false)
    (free : disk.names.get? (dir.child name) = none) :
    disk.create dir name obj =
      .ok (disk.nextObj, (disk.addObj (dir.child name) obj).touch dir) := by
  unfold create
  simp only [isDir, proper, free, Option.isSome_none, Bool.or_self,
    Bool.false_eq_true, ↓reduceIte]

/-- A name in use is reported, whatever is to be made. -/
theorem create_exists
    {id : ObjId}
    (obj : Obj)
    (isDir : disk.kindAt dir = some .dir)
    (stored : disk.names.get? (dir.child name) = some id) :
    disk.create dir name obj = .error .EEXIST := by
  unfold create
  simp only [isDir, stored, Option.isSome_some, Bool.or_true, ↓reduceIte]

theorem isChardevWhiteout_statObj
    (disk : Disk)
    (root : Root)
    (id : ObjId)
    (obj : Obj) :
    Whiteout.isChardevWhiteout (disk.statObj root id obj) =
      obj.isWhiteoutDev := by
  unfold Whiteout.isChardevWhiteout Obj.isWhiteoutDev statObj
  simp

/-- `fstatat` tells a device from everything else. -/
theorem statLoc_whiteout
    (disk : Disk)
    (loc : Loc) :
    (match disk.statLoc loc with
      | .ok st => Whiteout.isChardevWhiteout st
      | .error _ => false) = disk.whiteoutAt loc := by
  unfold statLoc whiteoutAt find?
  cases disk.names.get? loc with
  | none =>
      rfl
  | some id =>
      simp only [Option.bind_some]
      cases disk.objs.get? id with
      | none =>
          rfl
      | some obj =>
          exact isChardevWhiteout_statObj disk loc.root id obj

end Disk

namespace Whiteout

open Syscall

variable {dir : Loc} {name : Name} {os later : Os}

/-- The faults that a call leaves were there before. -/
theorem mem_faults_of_called
    (os : Os) :
    ∀ fault ∈ os.called.faults, fault ∈ os.faults :=
  fun _ member => List.mem_of_mem_tail member

theorem unlinkat_returned
    (returned : unlinkat dir name false os = (.ok (), later)) :
    later.disk = os.disk.unlinked dir name ∧ Disk.isSpecial name = false ∧
      ∀ fault ∈ later.faults, fault ∈ os.faults := by
  unfold unlinkat at returned
  rw [change_eq] at returned
  cases fault : os.nextFault with
  | some errno =>
      rw [fault] at returned
      cases returned
  | none =>
      rw [fault] at returned
      cases ran : os.disk.unlinkat dir name false with
      | error errno =>
          simp only [ran] at returned
          cases returned
      | ok disk =>
          simp only [ran] at returned
          cases returned
          obtain ⟨isLater, proper⟩ := Disk.unlinkat_ok ran
          exact ⟨isLater, proper, mem_faults_of_called os⟩

/-- If the disk itself never says so, the missing entry is missing. -/
theorem unlinkat_missing
    (honest : some .ENOENT ∉ os.faults)
    (returned : unlinkat dir name false os = (.error .ENOENT, later)) :
    os.disk.names.get? (dir.child name) = none ∧ later.disk = os.disk := by
  unfold unlinkat at returned
  rw [change_eq] at returned
  cases fault : os.nextFault with
  | some errno =>
      rw [fault] at returned
      cases returned
      unfold Os.nextFault at fault
      refine absurd (List.mem_of_mem_head? ?_) honest
      exact Option.join_eq_some_iff.mp fault
  | none =>
      rw [fault] at returned
      cases ran : os.disk.unlinkat dir name false with
      | error errno =>
          simp only [ran] at returned
          cases returned
          exact ⟨Disk.unlinkat_enoent ran, rfl⟩
      | ok disk =>
          simp only [ran] at returned
          cases returned

/-- The device is found and taken away unless the look at it fails. -/
theorem deleteDevice_returns
    (returned : deleteDevice dir name os = (.ok (), later)) :
    (later.disk =
        if os.disk.whiteoutAt (dir.entry name) && os.nextFault.isNone then
          os.disk.unlinked dir name
        else os.disk) ∧
      (os.disk.whiteoutAt (dir.entry name) = true → os.nextFault = none →
        Disk.isSpecial name = false) ∧
      ∀ fault ∈ later.faults, fault ∈ os.faults := by
  unfold deleteDevice at returned
  rw [Act.bind_ok (Act.attempt_apply _ _)] at returned
  unfold fstatat at returned
  rw [query_eq] at returned
  have kept := mem_faults_of_called os
  have looked := os.disk.statLoc_whiteout (dir.entry name)
  cases fault : os.nextFault with
  | some errno =>
      rw [fault] at returned
      cases returned
      simp only [Option.isNone_some, Bool.and_false]
      exact ⟨rfl, (fun _ succeeds => by cases succeeds), kept⟩
  | none =>
      rw [fault] at returned
      cases stat : os.disk.statLoc (dir.entry name) with
      | error errno =>
          simp only [stat] at returned looked
          cases returned
          rw [← looked]
          exact ⟨rfl, (fun isDevice => by cases isDevice), kept⟩
      | ok st =>
          simp only [stat] at returned looked
          rw [looked] at returned
          cases isDevice : os.disk.whiteoutAt (dir.entry name) with
          | false =>
              rw [isDevice] at returned
              cases returned
              exact ⟨rfl, (fun isDevice => by cases isDevice), kept⟩
          | true =>
              rw [isDevice] at returned
              obtain ⟨isLater, proper, rest⟩ := unlinkat_returned returned
              exact ⟨isLater, fun _ _ => proper,
                fun fault member => kept fault (rest fault member)⟩

/-- The state that `delete_whiteout` is to leave behind. -/
structure Undone
    (dir : Loc)
    (name : Name)
    (before after : Disk) : Prop where
  noDevice : after.whiteoutAt (dir.entry name) = false
  noFile : after.names.get? (dir.child (whName name)) = none
  others :
    ∀ loc, loc ≠ dir.entry name → loc ≠ dir.child (whName name) →
      after.names.get? loc = before.names.get? loc
  objects :
    ∀ id, before.names.get? dir ≠ some id →
      after.objs.get? id = before.objs.get? id
  ordinary :
    before.whiteoutAt (dir.entry name) = false →
      after.names.get? (dir.entry name) = before.names.get? (dir.entry name)
  freed :
    before.whiteoutAt (dir.entry name) = true →
      after.names.get? (dir.entry name) = none

/-- The file part of `delete_whiteout`. -/
def deleteWhFile
    (dir : Loc)
    (name : Name) :
    Syscall Unit := do
  match ← (unlinkat dir (whName name) false).attempt with
  | .ok () => pure ()
  | .error .ENOENT => pure ()
  | .error errno => Act.fail errno

theorem deleteWhFile_returns
    (honest : some .ENOENT ∉ os.faults)
    (returned : deleteWhFile dir name os = (.ok (), later)) :
    later.disk.names.get? (dir.child (whName name)) = none ∧
      (later.disk = os.disk ∨
        later.disk = os.disk.unlinked dir (whName name)) := by
  unfold deleteWhFile at returned
  rw [Act.bind_ok (Act.attempt_apply _ _)] at returned
  rcases ran : unlinkat dir (whName name) false os with ⟨outcome, middle⟩
  simp only [ran] at returned
  split at returned
  · cases returned
    obtain ⟨isLater, -⟩ := unlinkat_returned ran
    refine ⟨?_, .inr isLater⟩
    rw [isLater, Disk.names_unlinked, if_pos rfl]
  · cases returned
    obtain ⟨missing, unchanged⟩ := unlinkat_missing honest ran
    rw [unchanged]
    exact ⟨missing, .inl rfl⟩
  · cases returned

/-- Both parts in a row. -/
theorem deleteWhiteoutAt_returns
    (returned : deleteWhiteoutAt dir name os = (.ok (), later)) :
    ∃ middle : Os,
      (middle.disk =
        if os.canMknodFlag && os.disk.whiteoutAt (dir.entry name)
            && os.nextFault.isNone then
          os.disk.unlinked dir name
        else os.disk) ∧
      (os.canMknodFlag = true → os.disk.whiteoutAt (dir.entry name) = true →
        os.nextFault = none → Disk.isSpecial name = false) ∧
      (∀ fault ∈ middle.faults, fault ∈ os.faults) ∧
      deleteWhFile dir name middle = (.ok (), later) := by
  unfold deleteWhiteoutAt at returned
  rw [Act.bind_ok (Act.gets_apply _ _)] at returned
  obtain ⟨_, middle, devices, rest⟩ :=
    Act.bind_returns (congrArg Prod.fst returned)
  rw [rest] at returned
  refine ⟨middle, ?_⟩
  cases flag : os.canMknodFlag with
  | false =>
      simp only [flag] at devices
      cases devices
      exact ⟨rfl, (fun isSet => by cases isSet), fun _ member => member,
        returned⟩
  | true =>
      simp only [flag] at devices
      obtain ⟨isMiddle, proper, kept⟩ := deleteDevice_returns devices
      exact ⟨isMiddle, fun _ => proper, kept, returned⟩

/-- The name is not that of its own whiteout file. -/
theorem entry_ne_whFile
    (dir : Loc)
    (name : Name) :
    dir.entry name ≠ dir.child (whName name) := by
  unfold Loc.entry
  split
  · exact (Loc.child_ne dir _).symm
  · exact fun same => whName_ne name (child_inj.mp same).2.symm

/--
In an open directory the whiteout is undone exactly if there was no device, or
the flag is still set and the look at the device does not fail.
-/
theorem deleteWhiteoutAt_undoes_iff
    (honest : some .ENOENT ∉ os.faults)
    (returned : deleteWhiteoutAt dir name os = (.ok (), later)) :
    Undone dir name os.disk later.disk ↔
      os.disk.whiteoutAt (dir.entry name) = false ∨
        os.canMknodFlag = true ∧ os.nextFault = none := by
  obtain ⟨middle, isMiddle, proper, kept, filesGone⟩ :=
    deleteWhiteoutAt_returns returned
  obtain ⟨noFile, fileStep⟩ :=
    deleteWhFile_returns (fun member => honest (kept _ member)) filesGone
  have apart := entry_ne_whFile dir name
  have sameDevice :
      later.disk.whiteoutAt (dir.entry name) =
        middle.disk.whiteoutAt (dir.entry name) := by
    rcases fileStep with same | same
    · rw [same]
    · rw [same, Disk.whiteoutAt_unlinked apart]
  have sameNames :
      ∀ loc, loc ≠ dir.child (whName name) →
        later.disk.names.get? loc = middle.disk.names.get? loc := by
    intro loc other
    rcases fileStep with same | same
    · rw [same]
    · rw [same, Disk.names_unlinked, if_neg other]
  have sameObjects :
      ∀ id, middle.disk.names.get? dir ≠ some id →
        later.disk.objs.get? id = middle.disk.objs.get? id := by
    intro id other
    rcases fileStep with same | same
    · rw [same]
    · rw [same, Disk.objs_unlinked other]
  cases isDevice : os.disk.whiteoutAt (dir.entry name) with
  | false =>
      rw [isDevice, Bool.and_false, Bool.false_and,
        if_neg Bool.false_ne_true] at isMiddle
      rw [isMiddle] at sameDevice sameNames sameObjects
      refine iff_of_true ?_ (.inl rfl)
      exact
        { noDevice := sameDevice.trans isDevice
          noFile := noFile
          others := fun loc _ other => sameNames loc other
          objects := sameObjects
          ordinary := fun _ => sameNames _ apart
          freed := fun wasDevice => by
            rw [isDevice] at wasDevice
            cases wasDevice }
  | true =>
      cases gone : os.canMknodFlag && os.nextFault.isNone with
      | false =>
          have stays : middle.disk = os.disk := by
            rw [isMiddle, isDevice, Bool.and_true, gone,
              if_neg Bool.false_ne_true]
          rw [stays] at sameDevice
          refine iff_of_false (fun undone => ?_) ?_
          · have noDevice := undone.noDevice
            rw [sameDevice, isDevice] at noDevice
            cases noDevice
          · rintro (noDevice | ⟨flag, succeeds⟩)
            · cases noDevice
            · rw [flag, succeeds] at gone
              cases gone
      | true =>
          obtain ⟨flag, succeeds⟩ := Bool.and_eq_true_iff.mp gone
          have succeeds := Option.isNone_iff_eq_none.mp succeeds
          have isEntry : dir.entry name = dir.child name :=
            Disk.entry_of_ne (Disk.ne_dotName (proper flag isDevice succeeds)) dir
          have removed : middle.disk = os.disk.unlinked dir name := by
            rw [isMiddle, isDevice, flag, succeeds]
            rfl
          rw [removed] at sameDevice sameNames sameObjects
          rw [isEntry] at isDevice apart
          have goneName :
              later.disk.names.get? (dir.child name) = none := by
            rw [sameNames _ apart, Disk.names_unlinked, if_pos rfl]
          refine iff_of_true ?_ (.inr ⟨flag, succeeds⟩)
          exact
            { noDevice := by
                rw [isEntry]
                unfold Disk.whiteoutAt Disk.find?
                rw [goneName]
                rfl
              noFile := noFile
              others := fun loc other other' => by
                rw [isEntry] at other
                rw [sameNames loc other', Disk.names_unlinked, if_neg other]
              objects := fun id other => by
                rw [sameObjects id ?_, Disk.objs_unlinked other]
                rw [Disk.names_unlinked, if_neg (Loc.child_ne dir name).symm]
                exact other
              ordinary := fun notDevice => by
                rw [isEntry, isDevice] at notDevice
                cases notDevice
              freed := fun _ => by
                rw [isEntry]
                exact goneName }

/-- The directory that `delete_whiteout` works in, opened if need be. -/
def parentDir
    (upper : Loc)
    (dirfd : Option Loc)
    (parentPath : Path) :
    Syscall Loc :=
  match dirfd with
  | some dir => pure dir
  | none => whiteoutDir upper parentPath

theorem deleteWhiteout_eq
    (upper : Loc)
    (dirfd : Option Loc)
    (parentPath : Path)
    (name : Name) :
    deleteWhiteout upper dirfd parentPath name =
      parentDir upper dirfd parentPath >>= fun dir =>
        deleteWhiteoutAt dir name := by
  cases dirfd <;> rfl

/-- Opening the directory only uses up faults. -/
theorem parentDir_returns
    {upper : Loc}
    {dirfd : Option Loc}
    {parentPath : Path}
    (opened : parentDir upper dirfd parentPath os = (.ok dir, later)) :
    later = os ∨ later = os.called := by
  unfold parentDir at opened
  cases dirfd with
  | some found =>
      cases opened
      exact .inl rfl
  | none =>
      simp only [whiteoutDir] at opened
      split at opened
      · cases opened
        exact .inl rfl
      · unfold openDirAt at opened
        rw [query_eq] at opened
        exact .inr (Prod.mk.inj opened).2.symm

/--
`delete_whiteout` undoes every whiteout of a name exactly if there is no
device, or `CAN_MKNOD` is still set and the look at the device does not fail.
-/
theorem delete_undoes_iff
    {upper : Loc}
    {dirfd : Option Loc}
    {parentPath : Path}
    {opened : Os}
    (honest : some .ENOENT ∉ os.faults)
    (opens : parentDir upper dirfd parentPath os = (.ok dir, opened))
    (returned :
      deleteWhiteout upper dirfd parentPath name os = (.ok (), later)) :
    Undone dir name os.disk later.disk ↔
      os.disk.whiteoutAt (dir.entry name) = false ∨
        os.canMknodFlag = true ∧ opened.nextFault = none := by
  rw [deleteWhiteout_eq, Act.bind_ok opens] at returned
  rcases parentDir_returns opens with rfl | rfl
  · exact deleteWhiteoutAt_undoes_iff honest returned
  · exact deleteWhiteoutAt_undoes_iff
      (fun member => honest (mem_faults_of_called os _ member)) returned

end Whiteout

namespace Sample

/-- A device 0:0 under a name on the upper layer, after `mknod` once failed. -/
def leftDevice (flag : Bool) : Os :=
  ⟨disk 0 [(⟨.layer 0, [ascii "a"]⟩, obj .chr [] 11)], 1, flag, [], []⟩

end Sample

namespace Whiteout

open Sample

theorem delete_undoes_device :
    Undone ⟨.layer 0, []⟩ (ascii "a") (leftDevice true).disk
      (deleteWhiteout ⟨.layer 0, []⟩ none [] (ascii "a")
        (leftDevice true)).2.disk := by
  have opens :
      parentDir ⟨.layer 0, []⟩ none [] (leftDevice true) =
        (.ok ⟨.layer 0, []⟩, leftDevice true) := rfl
  exact (delete_undoes_iff (by decide) opens rfl).mpr (.inr ⟨rfl, rfl⟩)

/-- With the flag cleared the device stays, and the name is not free. -/
theorem delete_leaves_device :
    (deleteWhiteout ⟨.layer 0, []⟩ none [] (ascii "a") (leftDevice false)).1 =
        .ok () ∧
      ¬ Undone ⟨.layer 0, []⟩ (ascii "a") (leftDevice false).disk
        (deleteWhiteout ⟨.layer 0, []⟩ none [] (ascii "a")
          (leftDevice false)).2.disk :=
  ⟨rfl, fun undone => by cases undone.noDevice⟩

end Whiteout

/-! ## Hiding without `RENAME_WHITEOUT` -/

/-- What a layer shows under a name in one of its directories. -/
inductive Sight where
  | silent
  | hidden
  | shown (id : ObjId) (obj : Obj)

namespace Disk

variable {disk : Disk} {dir : Loc} {name wd : Name}

/-- Whether a directory has the whiteout file of a name. -/
def whFileAt
    (disk : Disk)
    (dir : Loc)
    (name : Name) : Bool :=
  (disk.names.get? (dir.child (whName name))).isSome

/-- A whiteout of either style hides the name; it is shown otherwise. -/
def sight
    (disk : Disk)
    (dir : Loc)
    (name : Name) :
    Sight :=
  if disk.whiteoutAt (dir.child name) || disk.whFileAt dir name then .hidden
  else
    match disk.names.get? (dir.child name) with
    | none => .silent
    | some id =>
        match disk.objs.get? id with
        | none => .silent
        | some obj => .shown id obj

/--
The layers show the same under every name, so every merged directory is the same.
Whiteout files are no names of the merged view.
-/
def SameView
    (first second : Disk) : Prop :=
  ∀ dir name, dir.root ≠ .workdir → hasWhPrefix name = false →
    first.sight dir name = second.sight dir name

/-- What `RENAME_WHITEOUT` makes of the trees where it is supported. -/
def hiddenByKernel
    (disk : Disk)
    (dir : Loc)
    (name wd : Name)
    (device : Obj) :
    Except Errno Disk :=
  match disk.renameat dir name Syscall.workRoot wd with
  | .error errno => .error errno
  | .ok renamed => (renamed.create dir name device).map (·.2)

/-- Some device 0:0. -/
def whiteoutDevice : Obj :=
  ⟨.chr, 0, 0, 0, 0, [], ⟨0, 0⟩, ⟨0, 0⟩, ∅, 0⟩

/-- The object went to the work directory and a whiteout is in its place. -/
structure HiddenAway
    (dir : Loc)
    (name wd : Name)
    (before after : Disk) : Prop where
  moved :
    ∀ rest,
      after.names.get? ⟨.workdir, wd :: rest⟩ =
        before.names.get? ⟨dir.root, dir.path ++ name :: rest⟩
  whiteout : after.sight dir name = .hidden
  view :
    ∀ device ideal, device.isWhiteoutDev = true →
      before.hiddenByKernel dir name wd device = .ok ideal →
      SameView after ideal

/-- The calls of the fallback are permitted for the name. -/
structure CanHide
    (disk : Disk)
    (dir : Loc)
    (name wd : Name) : Prop where
  onUpper : dir.root = .layer 0
  isDir : disk.kindAt dir = some .dir
  proper : isSpecial name = false
  stored : ∃ id, disk.names.get? (dir.child name) = some id
  work : disk.kindAt Syscall.workRoot = some .dir
  properWd : isSpecial wd = false
  free : disk.names.get? (Syscall.workRoot.child wd) = none

/-- The trees after the object of a name went to the work directory. -/
def putAway
    (disk : Disk)
    (dir : Loc)
    (name wd : Name) :
    Disk :=
  ((disk.moveNames (movePlace (dir.child name)
    (Syscall.workRoot.child wd))).touch dir).touch Syscall.workRoot

namespace CanHide

variable {query : Loc}

theorem renameat
    (can : disk.CanHide dir name wd) :
    disk.renameat dir name Syscall.workRoot wd =
      .ok (disk.putAway dir name wd) := by
  obtain ⟨id, stored⟩ := can.stored
  obtain ⟨obj, -, found⟩ := find?_isSome stored
  have kind : disk.kindAt (dir.child name) = some obj.kind := by
    unfold kindAt
    rw [found, Option.map_some]
  have noKind : disk.kindAt (Syscall.workRoot.child wd) = none := by
    unfold kindAt find?
    rw [can.free]
    rfl
  have apart :
      (Syscall.workRoot.child wd).isUnder (dir.child name) = false := by
    rw [Bool.eq_false_iff]
    intro under
    have sameRoot : Root.workdir = dir.root := (Loc.isUnder_iff.mp under).1
    rw [can.onUpper] at sameRoot
    cases sameRoot
  have checked :
      disk.renameCheck (dir.child name) (Syscall.workRoot.child wd) =
        .ok () := by
    unfold renameCheck
    simp only [kind, noKind, apart, Bool.and_false, Bool.false_eq_true,
      ↓reduceIte]
  unfold Disk.renameat
  simp only [can.proper, can.properWd, can.work, stored, can.free, checked,
    Bool.or_self, Bool.false_eq_true, ne_eq, not_true_eq_false, ↓reduceIte,
    Option.isSome_some, reduceCtorEq, decide_false, Bool.and_false]
  rfl

end CanHide

theorem not_isUnder_child
    (dir : Loc)
    (name : Name) :
    dir.isUnder (dir.child name) = false := by
  rw [Bool.eq_false_iff]
  intro under
  have shorter := (Loc.isUnder_iff.mp under).2.length_le
  simp only [Loc.child, List.length_append, List.length_singleton] at shorter
  omega

/-- The directory of a name that goes to the work directory stays. -/
theorem moveOrigin_above
    (onUpper : dir.root = .layer 0) :
    moveOrigin (dir.child name) (Syscall.workRoot.child wd) dir = some dir := by
  have notWork : dir.isUnder (Syscall.workRoot.child wd) = false := by
    rw [Bool.eq_false_iff]
    intro under
    have sameRoot : dir.root = .workdir := (Loc.isUnder_iff.mp under).1
    rw [onUpper] at sameRoot
    cases sameRoot
  unfold moveOrigin
  simp only [notWork, not_isUnder_child, Bool.false_eq_true, ↓reduceIte]

theorem moveOrigin_work
    (onUpper : dir.root = .layer 0) :
    moveOrigin (dir.child name) (Syscall.workRoot.child wd)
      Syscall.workRoot = some Syscall.workRoot := by
  have notBelow : Syscall.workRoot.isUnder (dir.child name) = false := by
    rw [Bool.eq_false_iff]
    intro under
    have sameRoot : Root.workdir = dir.root := (Loc.isUnder_iff.mp under).1
    rw [onUpper] at sameRoot
    cases sameRoot
  unfold moveOrigin
  simp only [not_isUnder_child, notBelow, Bool.false_eq_true, ↓reduceIte]

/-- Outside of the work directory only the moved tree is gone. -/
theorem names_putAway
    (disk : Disk)
    (dir : Loc)
    (name wd : Name)
    {query : Loc}
    (notWork : query.root ≠ .workdir) :
    (disk.putAway dir name wd).names.get? query =
      if query.isUnder (dir.child name) then none
      else disk.names.get? query := by
  have notUnder : query.isUnder (Syscall.workRoot.child wd) = false := by
    rw [Bool.eq_false_iff]
    exact fun under => notWork (Loc.isUnder_iff.mp under).1
  unfold putAway
  rw [names_touch, names_touch, names_movePlace]
  unfold moveOrigin
  rw [notUnder, if_neg Bool.false_ne_true]
  split <;> rfl

/-- The moved tree is in the work directory. -/
theorem names_putAway_work
    (disk : Disk)
    (dir : Loc)
    (name wd : Name)
    (rest : Path) :
    (disk.putAway dir name wd).names.get? ⟨.workdir, wd :: rest⟩ =
      disk.names.get? ⟨dir.root, dir.path ++ name :: rest⟩ := by
  have isBelow :
      (⟨.workdir, wd :: rest⟩ : Loc) = ⟨.workdir, [wd] ++ rest⟩ := rfl
  unfold putAway
  rw [names_touch, names_touch, names_movePlace]
  unfold moveOrigin
  rw [isBelow]
  change (if Loc.isUnder ⟨.workdir, [wd] ++ rest⟩ ⟨.workdir, [wd]⟩ = true then
    some _ else _ : Option Loc).bind _ = _
  rw [if_pos (Loc.isUnder_append _ _ _)]
  simp [Loc.child, Syscall.workRoot, Loc.below]

/-- The object of an id after its directory and the work directory changed. -/
def touchedObj
    (disk : Disk)
    (dir : Loc)
    (id : ObjId) :
    Option Obj :=
  if disk.names.get? dir = some id
      ∨ disk.names.get? Syscall.workRoot = some id then
    (disk.objs.get? id).map fun obj => { obj with mtime := disk.now }
  else disk.objs.get? id

theorem objs_putAway
    (onUpper : dir.root = .layer 0)
    (id : ObjId) :
    (disk.putAway dir name wd).objs.get? id = disk.touchedObj dir id := by
  have sameDir :
      (disk.moveNames (movePlace (dir.child name)
        (Syscall.workRoot.child wd))).names.get? dir =
          disk.names.get? dir := by
    rw [names_movePlace, moveOrigin_above onUpper]
    rfl
  have sameWork :
      (disk.moveNames (movePlace (dir.child name)
        (Syscall.workRoot.child wd))).names.get? Syscall.workRoot =
          disk.names.get? Syscall.workRoot := by
    rw [names_movePlace, moveOrigin_work onUpper]
    rfl
  unfold putAway touchedObj
  rw [objs_touch, names_touch, objs_touch, sameDir, sameWork, now_touch]
  by_cases isWork : disk.names.get? Syscall.workRoot = some id
  · have either :
        disk.names.get? dir = some id ∨
          disk.names.get? Syscall.workRoot = some id := .inr isWork
    rw [if_pos isWork, if_pos either]
    by_cases isDir : disk.names.get? dir = some id
    · rw [if_pos isDir, Option.map_map]
      rfl
    · rw [if_neg isDir]
      rfl
  · rw [if_neg isWork]
    by_cases isDir : disk.names.get? dir = some id
    · have either :
          disk.names.get? dir = some id ∨
            disk.names.get? Syscall.workRoot = some id := .inl isDir
      rw [if_pos isDir, if_pos either]
      rfl
    · rw [if_neg isDir, if_neg (not_or.mpr ⟨isDir, isWork⟩)]
      rfl

theorem kindAt_putAway
    (onUpper : dir.root = .layer 0) :
    (disk.putAway dir name wd).kindAt dir = disk.kindAt dir := by
  unfold putAway
  rw [kindAt_touch, kindAt_touch]
  unfold kindAt find?
  rw [names_movePlace, moveOrigin_above onUpper]
  rfl

/-- The trees that `RENAME_WHITEOUT` leaves. -/
theorem CanHide.byKernel
    (can : disk.CanHide dir name wd)
    (device : Obj) :
    disk.hiddenByKernel dir name wd device =
      .ok (((disk.putAway dir name wd).addObj (dir.child name) device).touch
        dir) := by
  have notWork : (dir.child name).root ≠ .workdir := by
    intro isWork
    have isWork : dir.root = .workdir := isWork
    rw [can.onUpper] at isWork
    cases isWork
  have gone : (disk.putAway dir name wd).names.get? (dir.child name) = none := by
    rw [names_putAway disk dir name wd notWork, Loc.isUnder_self, if_pos rfl]
  unfold hiddenByKernel
  rw [can.renameat]
  have stillDir : (disk.putAway dir name wd).kindAt dir = some .dir := by
    rw [kindAt_putAway can.onUpper, can.isDir]
  simp only [create_ok stillDir can.proper gone]
  rfl

/-- The whiteout file of a name is there, nothing else changed. -/
structure WhMade
    (dir : Loc)
    (name : Name)
    (before after : Disk) : Prop where
  present : after.whFileAt dir name = true
  names :
    ∀ query, query ≠ dir.child (whName name) →
      after.names.get? query = before.names.get? query
  now : after.now = before.now
  objs :
    ∀ id obj, before.objs.get? id = some obj →
      after.objs.get? id = some obj ∨
        before.names.get? dir = some id ∧
          after.objs.get? id = some { obj with mtime := before.now }

theorem WhMade.refl
    (present : disk.whFileAt dir name = true) :
    WhMade dir name disk disk where
  present := present
  names := fun _ _ => rfl
  now := rfl
  objs := fun _ _ stored => .inl stored

theorem WhMade.addObj
    (obj : Obj) :
    WhMade dir name disk
      ((disk.addObj (dir.child (whName name)) obj).touch dir) where
  present := by
    unfold whFileAt
    rw [names_touch, names_addObj, if_pos rfl]
    rfl
  names := by
    intro query other
    rw [names_touch, names_addObj, if_neg other]
  now := by
    rw [now_touch]
    rfl
  objs := by
    intro id old stored
    have notNew : id ≠ disk.nextObj := Nat.ne_of_lt (disk.bounded stored)
    rw [objs_touch, names_addObj, if_neg (Loc.child_ne dir _).symm,
      objs_addObj, if_neg notNew, stored]
    split
    · next isDir =>
        exact .inr ⟨isDir, rfl⟩
    · exact .inl rfl

namespace WhMade

variable {made : Disk} {query : Loc}

theorem kindAt
    (whMade : WhMade dir name disk made)
    (other : query ≠ dir.child (whName name))
    {kind : FileKind}
    (before : disk.kindAt query = some kind) :
    made.kindAt query = some kind := by
  obtain ⟨obj, found, isKind⟩ := kindAt_eq_some_iff.mp before
  obtain ⟨id, stored, objStored⟩ := find?_eq_some_iff.mp found
  rw [kindAt_eq_some_iff]
  rcases whMade.objs id obj objStored with same | ⟨-, touched⟩
  · refine ⟨obj, find?_eq_some_iff.mpr ⟨id, ?_, same⟩, isKind⟩
    rw [whMade.names query other, stored]
  · refine ⟨_, find?_eq_some_iff.mpr ⟨id, ?_, touched⟩, isKind⟩
    rw [whMade.names query other, stored]

theorem canHide
    (whMade : WhMade dir name disk made)
    (can : disk.CanHide dir name wd) :
    made.CanHide dir name wd := by
  have notWork :
      ∀ query : Loc, query.root = .workdir →
        query ≠ dir.child (whName name) := by
    intro query isWork same
    rw [same] at isWork
    have isWork : dir.root = .workdir := isWork
    rw [can.onUpper] at isWork
    cases isWork
  have apart : dir.child name ≠ dir.child (whName name) :=
    fun same => whName_ne name (child_inj.mp same).2.symm
  exact
    { onUpper := can.onUpper
      isDir := whMade.kindAt (Loc.child_ne dir _).symm can.isDir
      proper := can.proper
      stored := by
        rw [whMade.names _ apart]
        exact can.stored
      work := whMade.kindAt (notWork _ rfl) can.work
      properWd := can.properWd
      free := by
        rw [whMade.names _ (notWork _ rfl)]
        exact can.free }

theorem touchedObj
    (whMade : WhMade dir name disk made)
    (onUpper : dir.root = .layer 0)
    {id : ObjId}
    {obj : Obj}
    (stored : disk.objs.get? id = some obj) :
    made.touchedObj dir id = disk.touchedObj dir id := by
  have notWork : Syscall.workRoot ≠ dir.child (whName name) := by
    intro same
    have sameRoot : Root.workdir = dir.root := congrArg Loc.root same
    rw [onUpper] at sameRoot
    cases sameRoot
  unfold Disk.touchedObj
  rw [whMade.names dir (Loc.child_ne dir _).symm, whMade.names _ notWork,
    whMade.now]
  rcases whMade.objs id obj stored with same | ⟨isDir, touched⟩
  · rw [same, stored]
  · have either :
        disk.names.get? dir = some id ∨
          disk.names.get? Syscall.workRoot = some id := .inl isDir
    rw [if_pos either, if_pos either, touched, stored]
    rfl

end WhMade

/-- The name, read as a whiteout file, hides nothing that is not hidden. -/
def ShadowsNothing
    (disk : Disk)
    (dir : Loc)
    (name : Name) : Prop :=
  ∀ other, name = whName other → hasWhPrefix other = false →
    disk.whiteoutAt (dir.child other) = true

theorem sight_hidden_iff :
    disk.sight dir name = .hidden ↔
      disk.whiteoutAt (dir.child name) = true ∨
        disk.whFileAt dir name = true := by
  rw [← Bool.or_eq_true_iff]
  unfold sight
  split
  · next isHidden =>
      exact iff_of_true rfl isHidden
  · next notHidden =>
      refine iff_of_false ?_ notHidden
      split
      · exact fun same => by cases same
      · split <;> exact fun same => by cases same

/-- What is shown depends on the name, its object and its whiteout file. -/
theorem sight_congr
    {first second : Disk}
    (sameName :
      first.names.get? (dir.child name) = second.names.get? (dir.child name))
    (sameObj :
      ∀ id, second.names.get? (dir.child name) = some id →
        first.objs.get? id = second.objs.get? id)
    (sameFile : first.whFileAt dir name = second.whFileAt dir name) :
    first.sight dir name = second.sight dir name := by
  unfold sight whiteoutAt find?
  rw [sameName, sameFile]
  cases stored : second.names.get? (dir.child name) with
  | none =>
      rfl
  | some id =>
      simp only [Option.bind_some, sameObj id stored]

section

variable {made : Disk} {device : Obj}

/-- The trees that `RENAME_WHITEOUT` leaves, with this device. -/
def kernelHidden
    (disk : Disk)
    (dir : Loc)
    (name wd : Name)
    (device : Obj) :
    Disk :=
  ((disk.putAway dir name wd).addObj (dir.child name) device).touch dir

theorem names_kernelHidden
    {query : Loc}
    (notWork : query.root ≠ .workdir)
    (other : query ≠ dir.child name) :
    (disk.kernelHidden dir name wd device).names.get? query =
      if query.isUnder (dir.child name) then none
      else disk.names.get? query := by
  unfold kernelHidden
  rw [names_touch, names_addObj, if_neg other,
    names_putAway disk dir name wd notWork]

theorem whiteoutAt_kernelHidden
    (isDevice : device.isWhiteoutDev = true) :
    (disk.kernelHidden dir name wd device).whiteoutAt (dir.child name) =
      true := by
  unfold kernelHidden
  rw [whiteoutAt_touch]
  unfold whiteoutAt find?
  rw [names_addObj, if_pos rfl, Option.bind_some, objs_addObj, if_pos rfl]
  exact isDevice

/-- The device reads as a whiteout file if the name is that of one. -/
theorem whFileAt_kernelHidden
    {other : Name}
    (isFile : name = whName other) :
    (disk.kernelHidden dir name wd device).whFileAt dir other = true := by
  unfold whFileAt kernelHidden
  rw [names_touch, names_addObj, if_pos (by rw [isFile])]
  rfl

theorem objs_kernelHidden
    (onUpper : dir.root = .layer 0)
    {id : ObjId}
    {obj : Obj}
    (stored : disk.objs.get? id = some obj) :
    (disk.kernelHidden dir name wd device).objs.get? id =
      disk.touchedObj dir id := by
  have notWork : dir.root ≠ .workdir := by
    rw [onUpper]
    exact fun isWork => by cases isWork
  have sameDir :
      (disk.putAway dir name wd).names.get? dir = disk.names.get? dir := by
    rw [names_putAway disk dir name wd notWork, not_isUnder_child,
      if_neg Bool.false_ne_true]
  have sameNow :
      ((disk.putAway dir name wd).addObj (dir.child name) device).now =
        disk.now := by
    change (disk.putAway dir name wd).now = disk.now
    unfold putAway
    rw [now_touch, now_touch]
    rfl
  have kept : ∃ obj, (disk.putAway dir name wd).objs.get? id = some obj := by
    rw [objs_putAway onUpper]
    unfold touchedObj
    rw [stored]
    split <;> exact ⟨_, rfl⟩
  obtain ⟨later, keptObj⟩ := kept
  have notNew : id ≠ (disk.putAway dir name wd).nextObj :=
    Nat.ne_of_lt ((disk.putAway dir name wd).bounded keptObj)
  unfold kernelHidden
  rw [objs_touch, names_addObj, if_neg (Loc.child_ne dir _).symm, objs_addObj,
    if_neg notNew, objs_putAway onUpper, sameDir, sameNow]
  split
  · next isDir =>
      have either :
          disk.names.get? dir = some id ∨
            disk.names.get? Syscall.workRoot = some id := .inl isDir
      unfold touchedObj
      rw [if_pos either, stored]
      rfl
  · rfl

theorem not_isUnder_sibling
    {other : Name}
    (different : other ≠ name) :
    (dir.child other).isUnder (dir.child name) = false := by
  rw [Bool.eq_false_iff]
  intro under
  have begins : dir.path ++ [name] <+: dir.path ++ [other] :=
    (Loc.isUnder_iff.mp under).2
  rw [List.prefix_append_right_inj] at begins
  have same : name = other := by simpa using begins
  exact different same.symm

/-- Touching an object does not make it a device. -/
theorem any_touchedObj
    (disk : Disk)
    (dir : Loc)
    (id : ObjId) :
    (disk.touchedObj dir id).any Obj.isWhiteoutDev =
      (disk.objs.get? id).any Obj.isWhiteoutDev := by
  unfold touchedObj
  split
  · cases disk.objs.get? id <;> rfl
  · rfl

namespace WhMade

variable {query : Loc}

/-- The names after the fallback moved the object. -/
theorem names_away
    (whMade : WhMade dir name disk made)
    (wd : Name)
    (outside : query.root ≠ .workdir)
    (other : query ≠ dir.child (whName name)) :
    (made.putAway dir name wd).names.get? query =
      if query.isUnder (dir.child name) then none
      else disk.names.get? query := by
  rw [names_putAway made dir name wd outside, whMade.names query other]

theorem objs_away
    (whMade : WhMade dir name disk made)
    (wd : Name)
    (onUpper : dir.root = .layer 0)
    {id : ObjId}
    {obj : Obj}
    (stored : disk.objs.get? id = some obj) :
    (made.putAway dir name wd).objs.get? id = disk.touchedObj dir id := by
  rw [objs_putAway onUpper, whMade.touchedObj onUpper stored]

theorem whFileAt_away
    (whMade : WhMade dir name disk made)
    (wd : Name)
    (outside : dir.root ≠ .workdir) :
    (made.putAway dir name wd).whFileAt dir name = true := by
  have outsideFile : (dir.child (whName name)).root ≠ .workdir := outside
  unfold whFileAt
  rw [names_putAway made dir name wd outsideFile,
    not_isUnder_sibling (whName_ne name), if_neg Bool.false_ne_true]
  exact whMade.present

theorem whiteoutAt_away
    (whMade : WhMade dir name disk made)
    (wd : Name)
    (onUpper : dir.root = .layer 0)
    (outside : query.root ≠ .workdir)
    (other : query ≠ dir.child (whName name))
    (notUnder : query.isUnder (dir.child name) = false) :
    (made.putAway dir name wd).whiteoutAt query = disk.whiteoutAt query := by
  unfold whiteoutAt find?
  rw [whMade.names_away wd outside other, notUnder,
    if_neg Bool.false_ne_true]
  cases stored : disk.names.get? query with
  | none =>
      rfl
  | some id =>
      obtain ⟨obj, objStored, -⟩ := find?_isSome stored
      simp only [Option.bind_some]
      rw [whMade.objs_away wd onUpper objStored, any_touchedObj]

/-- A name that is no whiteout file and not the hidden one. -/
theorem sight_away
    (whMade : WhMade dir name disk made)
    (wd : Name)
    (onUpper : dir.root = .layer 0)
    {place : Loc}
    {shown : Name}
    (outside : place.root ≠ .workdir)
    (visible : hasWhPrefix shown = false)
    (notName : place.child shown ≠ dir.child name)
    (notFile : place.child (whName shown) ≠ dir.child name) :
    (made.putAway dir name wd).sight place shown =
      (disk.kernelHidden dir name wd device).sight place shown := by
  have notOwn : place.child shown ≠ dir.child (whName name) := by
    intro same
    rw [(child_inj.mp same).2, hasWhPrefix_whName] at visible
    cases visible
  have notOwnFile : place.child (whName shown) ≠ dir.child (whName name) := by
    intro same
    obtain ⟨samePlace, sameFile⟩ := child_inj.mp same
    exact notName (child_inj.mpr ⟨samePlace, whName_injective sameFile⟩)
  have outsideName : (place.child shown).root ≠ .workdir := outside
  have outsideFile : (place.child (whName shown)).root ≠ .workdir := outside
  have sameName :
      (made.putAway dir name wd).names.get? (place.child shown) =
        (disk.kernelHidden dir name wd device).names.get?
          (place.child shown) := by
    rw [whMade.names_away wd outsideName notOwn,
      names_kernelHidden outsideName notName]
  apply sight_congr sameName
  · intro id stored
    rw [names_kernelHidden outsideName notName] at stored
    split at stored
    · cases stored
    · obtain ⟨obj, objStored, -⟩ := find?_isSome stored
      rw [whMade.objs_away wd onUpper objStored,
        objs_kernelHidden onUpper objStored]
  · unfold whFileAt
    rw [whMade.names_away wd outsideFile notOwnFile,
      names_kernelHidden outsideFile notFile]

end WhMade

/-- Without a whiteout the layer is silent. -/
theorem sight_putAway
    (onUpper : dir.root = .layer 0)
    (noFile : disk.whFileAt dir name = false) :
    (disk.putAway dir name wd).sight dir name = .silent := by
  have outside : ∀ query, (dir.child query).root ≠ .workdir := by
    intro query isWork
    have isWork : dir.root = .workdir := isWork
    rw [onUpper] at isWork
    cases isWork
  have gone :
      (disk.putAway dir name wd).names.get? (dir.child name) = none := by
    rw [names_putAway disk dir name wd (outside name), Loc.isUnder_self,
      if_pos rfl]
  have noFileLeft : (disk.putAway dir name wd).whFileAt dir name = false := by
    unfold whFileAt at noFile ⊢
    rw [names_putAway disk dir name wd (outside _),
      not_isUnder_sibling (whName_ne name), if_neg Bool.false_ne_true]
    exact noFile
  unfold sight whiteoutAt find?
  rw [noFileLeft, gone]
  rfl

/--
The object is hidden as `RENAME_WHITEOUT` would hide it once the whiteout file
is there, unless the name itself counts as a whiteout file.
-/
theorem CanHide.hiddenAway_iff
    (can : disk.CanHide dir name wd)
    (whMade : WhMade dir name disk made) :
    HiddenAway dir name wd disk (made.putAway dir name wd) ↔
      disk.ShadowsNothing dir name := by
  have onUpper := can.onUpper
  have notWork : dir.root ≠ .workdir := by
    rw [onUpper]
    exact fun isWork => by cases isWork
  have fileThere := whMade.whFileAt_away wd notWork
  constructor
  · intro hiddenAway other isFile visible
    have notName : other ≠ name := isFile ▸ (whName_ne other).symm
    have notOwn : other ≠ whName name := by
      intro same
      rw [same, hasWhPrefix_whName] at visible
      cases visible
    -- the device that the kernel leaves reads as a whiteout file
    have kernelHides :
        (disk.kernelHidden dir name wd whiteoutDevice).sight dir other =
          .hidden :=
      sight_hidden_iff.mpr (.inr (whFileAt_kernelHidden isFile))
    have hides :=
      hiddenAway.view whiteoutDevice _ rfl (can.byKernel _) dir other notWork
        visible
    rw [show ((disk.putAway dir name wd).addObj (dir.child name)
      whiteoutDevice).touch dir = disk.kernelHidden dir name wd whiteoutDevice
      from rfl, kernelHides, sight_hidden_iff] at hides
    have outsideOther : (dir.child other).root ≠ .workdir := notWork
    have outsideName : (dir.child name).root ≠ .workdir := notWork
    rcases hides with isDevice | isFileAway
    · rwa [whMade.whiteoutAt_away wd onUpper outsideOther
        (fun same => notOwn (child_inj.mp same).2)
        (not_isUnder_sibling notName)] at isDevice
    · unfold whFileAt at isFileAway
      rw [← isFile, names_putAway made dir name wd outsideName,
        Loc.isUnder_self, if_pos rfl] at isFileAway
      cases isFileAway
  · intro shadowsNothing
    refine ⟨fun rest => ?_, sight_hidden_iff.mpr (.inr fileThere), ?_⟩
    · rw [names_putAway_work]
      apply whMade.names
      intro same
      have paths : dir.path ++ name :: rest = dir.path ++ [whName name] :=
        congrArg Loc.path same
      have heads := List.append_cancel_left paths
      exact whName_ne name (List.cons.inj heads).1.symm
    · intro device ideal isDevice byKernel place shown outside visible
      rw [can.byKernel] at byKernel
      cases byKernel
      change _ = (disk.kernelHidden dir name wd device).sight place shown
      by_cases isName : place.child shown = dir.child name
      · obtain ⟨rfl, rfl⟩ := child_inj.mp isName
        rw [sight_hidden_iff.mpr (.inr fileThere),
          sight_hidden_iff.mpr (.inl (whiteoutAt_kernelHidden isDevice))]
      · by_cases standsFor : place.child (whName shown) = dir.child name
        · obtain ⟨rfl, sameName⟩ := child_inj.mp standsFor
          have isFile : name = whName shown := sameName.symm
          have wasDevice := shadowsNothing shown isFile visible
          have notOwn : place.child shown ≠ place.child (whName name) := by
            intro same
            rw [(child_inj.mp same).2, hasWhPrefix_whName] at visible
            cases visible
          have notUnder :=
            @not_isUnder_sibling place name shown
              (isFile ▸ (whName_ne shown).symm)
          have outsideName : (place.child shown).root ≠ .workdir := outside
          rw [← whMade.whiteoutAt_away wd onUpper outsideName notOwn notUnder]
            at wasDevice
          rw [sight_hidden_iff.mpr (.inl wasDevice),
            sight_hidden_iff.mpr (.inr (whFileAt_kernelHidden isFile))]
        · exact whMade.sight_away wd onUpper outside visible isName standsFor

end

end Disk

namespace Whiteout

open Syscall

variable {env : Env} {dir : Loc} {name wd : Name} {os later : Os}

/-- The whiteout file can be made: nothing but a file is in its place. -/
def WhFilePlain
    (disk : Disk)
    (dir : Loc)
    (name : Name) : Prop :=
  ∀ kind, disk.kindAt (dir.child (whName name)) = some kind → kind = .reg

theorem isSpecial_whName
    (name : Name) :
    Disk.isSpecial (whName name) = false := by
  simp [Disk.isSpecial, whName, whPrefix, dotName, dotDotName]

/-- The fallback makes the whiteout file or finds it. -/
theorem createWhFile_noFaults
    (noFaults : os.faults = [])
    (isDir : os.disk.kindAt dir = some .dir)
    (plain : WhFilePlain os.disk dir name) :
    ∃ later, createWhFile env dir name os = (.ok (), later) ∧
      later.faults = [] ∧ Disk.WhMade dir name os.disk later.disk := by
  obtain ⟨ino, inos, numbered⟩ := nextStIno_returns os
  obtain ⟨noFault, same⟩ := @nextFault_of_noFaults { os with inos := inos }
    noFaults
  have located :
      os.disk.locateFollow dir linkLimit dir.path [whName name] =
        .ok (dir.child (whName name)) := by
    apply Disk.locateFollow_name (isSpecial_whName name)
    intro isLink
    cases plain .lnk isLink
  have ends : (dir.child (whName name)).path.getLast? = some (whName name) := by
    simp [Loc.child]
  have parent : (dir.child (whName name)).path.dropLast = dir.path := by
    simp [Loc.child]
  unfold createWhFile safeOpenat
  rw [Act.bind_apply, Act.bind_ok numbered, call_eq, noFault]
  simp only [creatWronly, OpenFlags.rdonly, Bool.false_eq_true, ↓reduceIte,
    located, same]
  cases stored : os.disk.names.get? (dir.child (whName name)) with
  | none =>
      have sameDir :
          (⟨(dir.child (whName name)).root, dir.path⟩ : Loc) = dir := rfl
      simp only [ends, parent, sameDir,
        Disk.create_ok isDir (isSpecial_whName name) stored]
      exact ⟨_, rfl, noFaults, .addObj _⟩
  | some id =>
      obtain ⟨obj, objStored, found⟩ := Disk.find?_isSome stored
      have isReg : obj.kind = .reg :=
        plain obj.kind (Disk.kindAt_eq_some_iff.mpr ⟨obj, found, rfl⟩)
      have there : os.disk.whFileAt dir name = true := by
        unfold Disk.whFileAt
        rw [stored]
        rfl
      refine ⟨{ os with inos := inos }, ?_, noFaults, .refl there⟩
      simp [objStored, openObj, isReg, Obj.isWhiteoutDev]

/-- `mknodat` on a name in use, with or without the permission. -/
theorem mknodat_exists
    {id : ObjId}
    (noFaults : os.faults = [])
    (isDir : os.disk.kindAt dir = some .dir)
    (stored : os.disk.names.get? (dir.child name) = some id) :
    ∃ later, mknodat env dir name ⟨some .chr, 0o700⟩ 0 os =
        (.error .EEXIST, later) ∧
      later.faults = [] ∧ later.disk = os.disk := by
  unfold mknodat
  simp only
  split
  · obtain ⟨ino, inos, numbered⟩ := nextStIno_returns os
    obtain ⟨noFault, same⟩ := @nextFault_of_noFaults { os with inos := inos }
      noFaults
    unfold makeObj
    refine ⟨{ os with inos := inos }, ?_, noFaults, rfl⟩
    rw [Act.bind_apply, Act.bind_ok numbered, call_eq, noFault]
    simp only [Disk.create_exists _ isDir stored, same]
  · obtain ⟨noFault, same⟩ := nextFault_of_noFaults noFaults
    unfold refuseDevice
    refine ⟨os, ?_, noFaults, rfl⟩
    rw [query_eq, noFault, same]
    simp only [Disk.create_exists _ isDir stored]

/-- The directory that the whiteout goes to. -/
theorem whiteoutDir_noFaults
    {parentPath : Path}
    (noFaults : os.faults = [])
    (located : os.disk.locate upperRoot parentPath = .ok dir)
    (isDir : os.disk.kindAt dir = some .dir) :
    whiteoutDir upperRoot parentPath os = (.ok dir, os) := by
  unfold whiteoutDir
  split
  · next isRoot =>
      rw [isRoot] at located
      cases located
      rfl
  · obtain ⟨noFault, same⟩ := nextFault_of_noFaults noFaults
    unfold openDirAt
    rw [query_eq, noFault, same]
    simp only [↓reduceIte, located, isDir]

section

variable
  {parentPath : Path}
  (noFaults : os.faults = [])
  (located : os.disk.locate upperRoot parentPath = .ok dir)
  (can : os.disk.CanHide dir name wd)

include noFaults located can

/-- With `can_mknod` the name is still in use when the device is made. -/
theorem createWhiteout_device :
    ∃ later,
      createWhiteout env upperRoot parentPath name true os =
        (if os.disk.whiteoutAt (dir.child name) then .ok ()
          else .error .EEXIST, later) ∧
      later.faults = [] ∧ later.disk = os.disk := by
  obtain ⟨id, stored⟩ := can.stored
  obtain ⟨later, made, noMore, sameDisk⟩ :=
    @mknodat_exists env dir name os id noFaults can.isDir stored
  obtain ⟨noFault, same⟩ := nextFault_of_noFaults noMore
  have isEntry : dir.entry name = dir.child name :=
    Disk.entry_of_ne (Disk.ne_dotName can.proper) dir
  obtain ⟨obj, objStored, found⟩ := Disk.find?_isSome stored
  have isDevice :
      isChardevWhiteout (os.disk.statObj dir.root id obj) =
        os.disk.whiteoutAt (dir.child name) := by
    rw [Disk.isChardevWhiteout_statObj]
    unfold Disk.whiteoutAt
    rw [found]
    rfl
  have stat :
      fstatat dir name later =
        (.ok (os.disk.statObj dir.root id obj), later) := by
    unfold fstatat
    rw [query_eq, noFault, same, isEntry, sameDisk]
    unfold Disk.statLoc
    simp only [stored, objStored]
    rfl
  refine ⟨later, ?_, noMore, sameDisk⟩
  unfold createWhiteout
  rw [Act.bind_ok (whiteoutDir_noFaults noFaults located can.isDir),
    if_pos rfl, Act.bind_ok (Act.attempt_apply _ _), made]
  simp only
  rw [Act.bind_ok (Act.attempt_apply _ _), stat]
  simp only [isDevice]
  cases os.disk.whiteoutAt (dir.child name) <;> rfl

/-- Without `can_mknod` the whiteout file is made beside the object. -/
theorem createWhiteout_file
    (plain : WhFilePlain os.disk dir name) :
    ∃ later,
      createWhiteout env upperRoot parentPath name false os =
        (.ok (), later) ∧
      later.faults = [] ∧ Disk.WhMade dir name os.disk later.disk := by
  obtain ⟨later, made, noMore, whMade⟩ :=
    @createWhFile_noFaults env dir name os noFaults can.isDir plain
  refine ⟨later, ?_, noMore, whMade⟩
  unfold createWhiteout
  rw [Act.bind_ok (whiteoutDir_noFaults noFaults located can.isDir),
    if_neg Bool.false_ne_true, made]

omit located in
theorem renameat_away :
    ∃ later, renameat dir name workRoot wd os = (.ok (), later) ∧
      later.disk = os.disk.putAway dir name wd := by
  obtain ⟨noFault, same⟩ := nextFault_of_noFaults noFaults
  unfold Syscall.renameat
  rw [change_eq, noFault]
  simp only [can.renameat]
  exact ⟨_, rfl, rfl⟩

/-- The fallback hides the object as `RENAME_WHITEOUT` would. -/
theorem fallback_hides_iff
    (plain : WhFilePlain os.disk dir name)
    {canMknod : Bool}
    {fallback : Syscall Unit}
    (isFallback :
      fallback =
        createWhiteout env upperRoot parentPath name canMknod >>= fun _ =>
          Syscall.renameat dir name workRoot wd) :
    ((fallback os).1 = .ok () ∧
        Disk.HiddenAway dir name wd os.disk (fallback os).2.disk) ↔
      (canMknod = false ∨ os.disk.whiteoutAt (dir.child name) = true ∧
          os.disk.whFileAt dir name = true) ∧
        os.disk.ShadowsNothing dir name := by
  subst isFallback
  cases canMknod with
  | false =>
      obtain ⟨middle, made, noMore, whMade⟩ :=
        @createWhiteout_file env dir name wd os parentPath noFaults located can
          plain
      obtain ⟨later, renamed, isLater⟩ :=
        renameat_away noMore (whMade.canHide can)
      rw [Act.bind_ok made, renamed, isLater, can.hiddenAway_iff whMade]
      simp
  | true =>
      obtain ⟨middle, made, noMore, sameDisk⟩ :=
        @createWhiteout_device env dir name wd os parentPath noFaults located
          can
      cases isDevice : os.disk.whiteoutAt (dir.child name) with
      | false =>
          rw [isDevice, if_neg Bool.false_ne_true] at made
          rw [Act.bind_error made]
          simp
      | true =>
          rw [isDevice, if_pos rfl] at made
          rw [← sameDisk] at can
          obtain ⟨later, renamed, isLater⟩ := renameat_away noMore can
          rw [Act.bind_ok made, renamed, isLater]
          rw [sameDisk] at can ⊢
          cases there : os.disk.whFileAt dir name with
          | true =>
              rw [can.hiddenAway_iff (.refl there)]
              simp
          | false =>
              refine iff_of_false (fun holds => ?_) (by simp)
              have isHidden := holds.2.whiteout
              rw [Disk.sight_putAway can.onUpper there] at isHidden
              cases isHidden

end

/--
The state in which `hide_node` falls back: `renameat2` was not tried, or it
failed and left the trees as they were.
-/
def FallsBack
    (env : Env)
    (dir : Loc)
    (name wd : Name)
    (opened failed : Os) : Prop :=
  if env.canMknod then
    ∃ errno, renameat2 env dir name workRoot wd 4 opened =
        (.error errno, failed) ∧
      failed.disk = opened.disk
  else failed = opened

theorem FallsBack.sameDisk
    {opened failed : Os}
    (falls : FallsBack env dir name wd opened failed) :
    failed.disk = opened.disk := by
  unfold FallsBack at falls
  split at falls
  · obtain ⟨_, -, same⟩ := falls
    exact same
  · rw [falls]

theorem FallsBack.hideBehindWhiteout
    {opened failed : Os}
    (falls : FallsBack env dir name wd opened failed)
    (parentPath : Path) :
    hideBehindWhiteout env (some parentPath) name dir name wd opened =
      (createWhiteout env upperRoot parentPath name env.canMknod >>= fun _ =>
        Syscall.renameat dir name workRoot wd) failed := by
  unfold FallsBack at falls
  unfold Syscall.hideBehindWhiteout
  split at falls
  · next can =>
      obtain ⟨errno, failed, -⟩ := falls
      rw [if_pos can, Act.bind_ok (Act.attempt_apply _ _), failed]
  · next cannot =>
      rw [falls, if_neg cannot]
      rfl

end Whiteout

namespace Daemon

open Syscall Whiteout

variable {env : Env} {sys : Sys} {nodeId parentId : NodeId} {found : OvlNode}

/-- The node is marked once its object is hidden. -/
theorem detachHidden_ok
    (known : sys.nodes.get? nodeId = some found)
    (wd : Name) :
    ∃ later, detachHidden nodeId wd sys = (.ok (), later) ∧
      later.os = sys.os := by
  have isNode : node nodeId sys = (.ok found, sys) := by
    unfold node
    rw [Act.bind_ok (show getNode nodeId sys = (.ok (some found), sys) by
      unfold getNode; rw [Act.gets_apply, known])]
    rfl
  unfold detachHidden
  rw [Act.bind_ok isNode]
  cases found.parent with
  | none =>
      exact ⟨_, rfl, rfl⟩
  | some parent =>
      exact ⟨_, rfl, rfl⟩

/-- The system calls decide how `hide_node` ends. -/
theorem hideNode_eq
    {path parentPath : Path}
    {name wd : Name}
    (upper : hasUpper env = true)
    (known : sys.nodes.get? nodeId = some found)
    (isPath : nodeParts sys.nodes nodeId = path)
    (isParent : found.parent = some parentId)
    (isParentPath : nodeParts sys.nodes parentId = parentPath)
    (isName : found.name = name)
    (whited : needsWhiteout sys.nodes found = true)
    (isWd : wdName sys.os.wdCounter = wd) :
    let called := hideOnDisk env path (some parentPath) name true wd
      { sys.os with wdCounter := sys.os.wdCounter + 1 }
    (hideNode env nodeId true sys).1 = called.1 ∧
      (hideNode env nodeId true sys).2.os = called.2 := by
  subst isPath isParentPath isName isWd
  intro called
  let next : Sys :=
    { sys with os := { sys.os with wdCounter := sys.os.wdCounter + 1 } }
  have named :
      (liftM nextWdName : Daemon Name) sys =
        (.ok (wdName sys.os.wdCounter), next) := rfl
  have isNode : node nodeId next = (.ok found, next) := by
    unfold node
    rw [Act.bind_ok (show getNode nodeId next = (.ok (some found), next) by
      unfold getNode; rw [Act.gets_apply]; exact congrArg (Prod.mk · _)
        (congrArg Except.ok known))]
    rfl
  have run :
      hideNode env nodeId true sys =
        ((liftM (hideOnDisk env (nodeParts sys.nodes nodeId)
            (some (nodeParts sys.nodes parentId)) found.name true
            (wdName sys.os.wdCounter)) : Daemon Unit) >>= fun _ =>
          detachHidden nodeId (wdName sys.os.wdCounter)) next := by
    unfold hideNode
    rw [Act.bind_ok (Act.check_true upper _ _), Act.bind_ok named]
    have steps :
        (do
          let path ← nodePath nodeId
          let found ← node nodeId
          let whited ← Act.gets fun sys => needsWhiteout sys.nodes found
          let parentPath ←
            Act.gets fun sys => found.parent.map (nodeParts sys.nodes)
          liftM (hideOnDisk env path parentPath found.name whited
            (wdName sys.os.wdCounter)) : Daemon Unit) next =
          (liftM (hideOnDisk env (nodeParts sys.nodes nodeId)
            (some (nodeParts sys.nodes parentId)) found.name true
            (wdName sys.os.wdCounter)) : Daemon Unit) next := by
      rw [Act.bind_ok (show nodePath nodeId next =
          (.ok (nodeParts sys.nodes nodeId), next) from rfl),
        Act.bind_ok isNode, Act.bind_ok (Act.gets_apply _ _),
        Act.bind_ok (Act.gets_apply _ _)]
      have isWhited : needsWhiteout next.nodes found = true := whited
      rw [isWhited, isParent]
      rfl
    unfold Act.runIf
    rw [if_pos rfl, Act.bind_apply, steps, Act.bind_apply]
  rw [run]
  have lifted :
      (liftM (hideOnDisk env (nodeParts sys.nodes nodeId)
          (some (nodeParts sys.nodes parentId)) found.name true
          (wdName sys.os.wdCounter)) : Daemon Unit) next =
        (called.1, { next with os := called.2 }) := rfl
  rw [Act.bind_apply, lifted]
  cases called.1 with
  | error errno =>
      exact ⟨rfl, rfl⟩
  | ok done =>
      obtain ⟨later, detached, sameOs⟩ :=
        @detachHidden_ok { next with os := called.2 } nodeId found known
          (wdName sys.os.wdCounter)
      simpa only [detached, true_and] using sameOs

end Daemon

namespace Sample

def whiteoutEnv (canMknod : Bool) : Env :=
  { env 1 with canMknod := canMknod }

/-- A file on the upper layer over one of the same name. -/
def shadowingTrees : Disk :=
  disk 1 [(⟨.layer 0, [ascii "a"]⟩, obj .reg [] 11),
    (⟨.layer 1, [ascii "a"]⟩, obj .reg [] 12)]

/-- The file was looked up; the next calls meet the given faults. -/
def shadowing
    (canMknod : Bool)
    (faults : List (Option Errno)) :
    Sys :=
  ((Sys.mount (whiteoutEnv canMknod) shadowingTrees).run
    (whiteoutEnv canMknod) [lookupFile]).begin
    ⟨.unlink 1 (ascii "a"), faults, [], ⟨0, 0⟩⟩

end Sample

namespace Daemon

open Sample

theorem shadowing_tree
    (canMknod : Bool)
    (faults : List (Option Errno)) :
    (shadowing canMknod faults).nodes.Tree := by
  have ok :=
    @treeOk_run (whiteoutEnv canMknod) _
      (treeOk_mount (whiteoutEnv canMknod) shadowingTrees) [lookupFile]
  exact ok.tree

end Daemon

end FuseOverlay
