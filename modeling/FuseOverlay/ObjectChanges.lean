import FuseOverlay.DiskChanges
import FuseOverlay.SyscallSteps

namespace FuseOverlay

/-!
# Changes of an object in place

`chmod`, `chown`, `utimensat` and `setxattr` change one object and no name, so
every path leads where it led.  `Frames` says what a series of such calls
leaves alone of all objects, `ChangesAt` what one of them does.
-/

open Act (Keeps)

namespace Disk

/-! ## The object at a path -/

/-- The object at a path, a link at the last component not followed. -/
def idAt
    (disk : Disk)
    (root : Root)
    (path : Path) :
    Option ObjId :=
  match disk.locate ⟨root, []⟩ path with
  | .error _ => none
  | .ok loc => disk.names.get? loc

section

variable {disk : Disk} {root : Root} {path : Path}

theorem idAt_of_locate
    {loc : Loc}
    (located : disk.locate ⟨root, []⟩ path = .ok loc) :
    disk.idAt root path = disk.names.get? loc := by
  unfold idAt
  rw [located]

/-- The `stat` of a path is the one of the object there. -/
theorem statat_returns_iff
    {st : Stat} :
    disk.statat root path = .ok st ↔
      ∃ id obj, disk.idAt root path = some id ∧
        disk.objs.get? id = some obj ∧ st = disk.statObj root id obj := by
  unfold statat idAt
  cases located : disk.locate ⟨root, []⟩ path with
  | error errno =>
      simp
  | ok loc =>
      have sameRoot : loc.root = root := root_of_locate located
      unfold statLoc
      simp only [sameRoot]
      cases disk.names.get? loc with
      | none =>
          simp
      | some id =>
          cases stored : disk.objs.get? id with
          | none =>
              simp [stored]
          | some obj =>
              simp [stored, eq_comm]

end

/-! ## What stays -/

section

variable {β : Type}

/-- The names, and of every object what a walk reads and what `view` sees. -/
structure Frames
    (view : Obj → β)
    (before after : Disk) : Prop where
  names : after.names = before.names
  objs :
    ∀ id,
      (after.objs.get? id).map (fun obj => (onWalk obj, view obj)) =
        (before.objs.get? id).map fun obj => (onWalk obj, view obj)

/-- One object at most is changed in place. -/
structure ChangesAt
    (target : Option ObjId)
    (change : Obj → Obj)
    (before after : Disk) : Prop where
  names : after.names = before.names
  dev : after.dev = before.dev
  objs :
    ∀ id,
      after.objs.get? id =
        if target = some id then (before.objs.get? id).map change
        else before.objs.get? id

namespace Frames

variable {view : Obj → β} {before after : Disk}

theorem refl
    (disk : Disk) :
    Frames view disk disk :=
  ⟨rfl, fun _ => rfl⟩

theorem trans
    {middle : Disk}
    (first : Frames view before middle)
    (second : Frames view middle after) :
    Frames view before after where
  names := second.names.trans first.names
  objs id := (second.objs id).trans (first.objs id)

/-- What stays of an object that there is. -/
theorem stored
    (frames : Frames view before after)
    {id : ObjId}
    {obj : Obj}
    (stored : before.objs.get? id = some obj) :
    ∃ obj', after.objs.get? id = some obj' ∧ obj'.kind = obj.kind ∧
      view obj' = view obj := by
  have same := frames.objs id
  rw [stored, Option.map_some, Option.map_eq_some_iff] at same
  obtain ⟨obj', stored', read⟩ := same
  obtain ⟨walks, seen⟩ := Prod.mk.inj read
  exact ⟨obj', stored', (Prod.mk.inj walks).1, seen⟩

theorem walksAlike
    (frames : Frames view before after)
    (base : Loc) :
    WalksAlike before after base := by
  intro path
  unfold find?
  rw [frames.names]
  cases before.names.get? ⟨base.root, path⟩ with
  | none =>
      rfl
  | some id =>
      have same := congrArg (Option.map Prod.fst) (frames.objs id)
      rw [Option.map_map, Option.map_map] at same
      exact same

theorem locate
    (frames : Frames view before after)
    (base : Loc)
    (path : Path) :
    after.locate base path = before.locate base path :=
  locate_congr (frames.walksAlike base) path

theorem idAt
    (frames : Frames view before after)
    (root : Root)
    (path : Path) :
    after.idAt root path = before.idAt root path := by
  unfold Disk.idAt
  rw [frames.locate, frames.names]

end Frames

namespace ChangesAt

variable {target : Option ObjId} {change : Obj → Obj} {before after : Disk}

theorem modifyObj
    (disk : Disk)
    (target : ObjId)
    (change : Obj → Obj) :
    ChangesAt (some target) change disk (disk.modifyObj target change) where
  names := rfl
  dev := rfl
  objs := by
    intro id
    rw [objs_modifyObj]
    by_cases same : id = target
    · rw [if_pos same, if_pos (congrArg some same.symm), same]
    · rw [if_neg same, if_neg fun equal => same (Option.some.inj equal).symm]

/-- What the change leaves alone stays of every object. -/
theorem frames
    {view : Obj → β}
    (changes : ChangesAt target change before after)
    (walks : ∀ obj, onWalk (change obj) = onWalk obj)
    (seen : ∀ obj, view (change obj) = view obj) :
    Frames view before after where
  names := changes.names
  objs := by
    intro id
    rw [changes.objs]
    split
    · cases before.objs.get? id with
      | none =>
          rfl
      | some obj =>
          simp only [Option.map_some, walks, seen]
    · rfl

/-- The changed object itself, or another one. -/
theorem stored
    (changes : ChangesAt target change before after)
    {id : ObjId}
    {obj : Obj}
    (stored : before.objs.get? id = some obj) :
    after.objs.get? id =
      some (if target = some id then change obj else obj) := by
  rw [changes.objs, stored]
  split <;> rfl

/-- A `stat` of the changed disk. -/
theorem statObj
    (changes : ChangesAt target change before after)
    (root : Root)
    (id : ObjId)
    (obj : Obj) :
    after.statObj root id obj = before.statObj root id obj := by
  unfold Disk.statObj linkCount
  rw [changes.names, changes.dev]

end ChangesAt

end

end Disk

namespace Syscall

open Disk

variable {env : Env} {os later : Os}

/-! ## The calls -/

theorem change_ok
    {run : Disk → Except Errno Disk}
    (returned : change run os = (.ok (), later)) :
    run os.disk = .ok later.disk := by
  obtain ⟨disk, faults, ran, left⟩ :=
    change_returns (congrArg Prod.fst returned)
  rw [returned] at left
  rw [ran, show later = _ from left]

theorem changeFd_returns
    {fd : Fd}
    {update : Disk → Obj → Obj}
    (returned : changeFd fd update os = (.ok (), later)) :
    ChangesAt (some fd.obj) (update os.disk) os.disk later.disk := by
  have ran := change_ok returned
  split at ran
  · cases ran
  · rw [← Except.ok.inj ran]
    exact .modifyObj os.disk fd.obj _

theorem changeNamed_returns
    {dir : Loc}
    {name : Name}
    {update : Disk → Obj → Obj}
    (returned : changeNamed dir name update os = (.ok (), later)) :
    ∃ id, os.disk.names.get? (dir.entry name) = some id ∧
      ChangesAt (some id) (update os.disk) os.disk later.disk := by
  have ran := change_ok returned
  split at ran
  · cases ran
  · next id named =>
      refine ⟨id, named, ?_⟩
      rw [← Except.ok.inj ran]
      exact .modifyObj os.disk id _

/-- A change of the object at a path, through its parent directory. -/
theorem changeAt_returns
    {root : Root}
    {path : Path}
    {update : Disk → Obj → Obj}
    (returned :
      (do
        let (dir, name) ← safeParent ⟨root, []⟩ path
        changeNamed dir name update : Syscall Unit) os = (.ok (), later)) :
    ChangesAt (os.disk.idAt root path) (update os.disk) os.disk
      later.disk := by
  obtain ⟨⟨dir, name⟩, middle, found, rest⟩ :=
    Act.bind_returns (congrArg Prod.fst returned)
  rw [returned] at rest
  obtain ⟨located, -, unchanged⟩ := safeParent_returns found
  obtain ⟨id, named, changes⟩ := changeNamed_returns rest.symm
  rw [unchanged] at named changes
  rw [idAt_of_locate located, named]
  exact changes

/-! ## What the calls leave alone -/

section

variable {β : Type} {view : Obj → β} {start : Disk}

/-- An update that neither a walk nor `view` sees. -/
def Unseen
    (view : Obj → β)
    (update : Disk → Obj → Obj) : Prop :=
  ∀ disk obj, onWalk (update disk obj) = onWalk obj ∧
    view (update disk obj) = view obj

theorem keeps_frames_query
    {α : Type}
    (read : Disk → Except Errno α) :
    Keeps (fun os => Frames view start os.disk) (query read) :=
  @keeps_query α (Frames view start) read

theorem keeps_frames_safeParent
    (base : Loc)
    (path : Path) :
    Keeps (fun os => Frames view start os.disk) (safeParent base path) := by
  unfold safeParent
  split
  · exact Keeps.pure _
  · split
    · exact Keeps.pure _
    · exact Keeps.bind (keeps_frames_query _) fun dir => Keeps.pure _

theorem frames_modifyObj
    {update : Disk → Obj → Obj}
    (unseen : Unseen view update)
    {disk : Disk}
    (holds : Frames view start disk)
    (id : ObjId) :
    Frames view start (disk.modifyObj id (update disk)) :=
  holds.trans ((ChangesAt.modifyObj disk id (update disk)).frames
    (fun obj => (unseen disk obj).1) fun obj => (unseen disk obj).2)

theorem keeps_frames_changeFd
    {update : Disk → Obj → Obj}
    (unseen : Unseen view update)
    (fd : Fd) :
    Keeps (fun os => Frames view start os.disk) (changeFd fd update) := by
  refine @keeps_change (Frames view start) _ fun holds ran => ?_
  split at ran
  · cases ran
  · rw [← Except.ok.inj ran]
    exact frames_modifyObj unseen holds fd.obj

theorem keeps_frames_changeNamed
    {update : Disk → Obj → Obj}
    (unseen : Unseen view update)
    (dir : Loc)
    (name : Name) :
    Keeps (fun os => Frames view start os.disk)
      (changeNamed dir name update) := by
  refine @keeps_change (Frames view start) _ fun holds ran => ?_
  split at ran
  · cases ran
  · next id _ =>
      rw [← Except.ok.inj ran]
      exact frames_modifyObj unseen holds id

theorem keeps_frames_changeFollowed
    {update : Disk → Obj → Obj}
    (unseen : Unseen view update)
    (dir : Loc)
    (name : Name) :
    Keeps (fun os => Frames view start os.disk)
      (changeFollowed env dir name update) := by
  refine @keeps_change (Frames view start) _ fun holds ran => ?_
  split at ran
  · cases ran
  · split at ran
    · cases ran
    · next id _ =>
        rw [← Except.ok.inj ran]
        exact frames_modifyObj unseen holds id

end

end Syscall

end FuseOverlay
