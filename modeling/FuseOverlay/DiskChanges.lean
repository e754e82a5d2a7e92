import FuseOverlay.DiskPaths

namespace FuseOverlay

/-!
# What the changing calls do to the trees

Every call that makes, removes or moves a name is described by what the trees
hold afterwards at each location.  `Owns` is the statement that later steps
carry along: the location is the only name of an object with the given
attributes, so that no change elsewhere reaches it.
-/

namespace Loc

/-- The location lies in a lower layer. -/
def Lower (loc : Loc) : Prop :=
  loc.root ≠ .layer 0 ∧ loc.root ≠ .workdir

theorem lower_of_root
    {first second : Loc}
    (same : first.root = second.root)
    (low : first.Lower) :
    second.Lower := by
  unfold Lower at low ⊢
  rwa [← same]

theorem isUnder_iff
    {loc base : Loc} :
    loc.isUnder base = true ↔
      loc.root = base.root ∧ base.path <+: loc.path := by
  simp [isUnder]

theorem isUnder_self
    (loc : Loc) :
    loc.isUnder loc = true :=
  isUnder_iff.mpr ⟨rfl, List.prefix_rfl⟩

theorem isUnder_append
    (root : Root)
    (path rest : Path) :
    (⟨root, path ++ rest⟩ : Loc).isUnder ⟨root, path⟩ = true :=
  isUnder_iff.mpr ⟨rfl, List.prefix_append path rest⟩

/-- A location below another one is that one's path and a rest. -/
theorem eq_append_below
    {loc base : Loc}
    (under : loc.isUnder base = true) :
    loc = ⟨base.root, base.path ++ loc.below base⟩ := by
  obtain ⟨sameRoot, rest, joined⟩ := isUnder_iff.mp under
  obtain ⟨root, path⟩ := loc
  simp only at sameRoot joined
  subst sameRoot joined
  simp [below]

@[simp] theorem below_append
    (root : Root)
    (path rest : Path) :
    (⟨root, path ++ rest⟩ : Loc).below ⟨root, path⟩ = rest := by
  simp [below]

theorem child_ne
    (dir : Loc)
    (name : Name) :
    dir.child name ≠ dir := by
  intro same
  have lengths := congrArg (fun loc => loc.path.length) same
  simp [child] at lengths

end Loc

namespace Disk

variable {disk later : Disk} {loc dir : Loc} {name : Name} {id : ObjId}

/-! ## Single changes -/

theorem find?_eq_some_iff
    {obj : Obj} :
    disk.find? loc = some obj ↔
      ∃ id, disk.names.get? loc = some id ∧ disk.objs.get? id = some obj :=
  Option.bind_eq_some_iff

theorem kindAt_eq_some_iff
    {kind : FileKind} :
    disk.kindAt loc = some kind ↔
      ∃ obj, disk.find? loc = some obj ∧ obj.kind = kind :=
  Option.map_eq_some_iff

/-- A name that is stored has an object. -/
theorem find?_isSome
    (stored : disk.names.get? loc = some id) :
    ∃ obj, disk.objs.get? id = some obj ∧ disk.find? loc = some obj := by
  obtain ⟨obj, objStored⟩ := Option.isSome_iff_exists.mp (disk.named stored)
  exact ⟨obj, objStored, find?_eq_some_iff.mpr ⟨id, stored, objStored⟩⟩

@[simp] theorem names_modifyObj
    (disk : Disk)
    (id : ObjId)
    (change : Obj → Obj) :
    (disk.modifyObj id change).names = disk.names :=
  rfl

@[simp] theorem now_modifyObj
    (disk : Disk)
    (id : ObjId)
    (change : Obj → Obj) :
    (disk.modifyObj id change).now = disk.now :=
  rfl

theorem objs_modifyObj
    (disk : Disk)
    (id query : ObjId)
    (change : Obj → Obj) :
    (disk.modifyObj id change).objs.get? query =
      if query = id then (disk.objs.get? id).map change
      else disk.objs.get? query :=
  FMap.get?_modify disk.objs id query change

@[simp] theorem names_touch
    (disk : Disk)
    (dir : Loc) :
    (disk.touch dir).names = disk.names := by
  unfold touch
  split <;> rfl

@[simp] theorem now_touch
    (disk : Disk)
    (dir : Loc) :
    (disk.touch dir).now = disk.now := by
  unfold touch
  split <;> rfl

/-- Touching a directory changes the object under its name. -/
theorem objs_touch
    (disk : Disk)
    (dir : Loc)
    (query : ObjId) :
    (disk.touch dir).objs.get? query =
      if disk.names.get? dir = some query then
        (disk.objs.get? query).map fun obj => { obj with mtime := disk.now }
      else disk.objs.get? query := by
  unfold touch
  cases stored : disk.names.get? dir with
  | none =>
      simp
  | some id =>
      simp only [objs_modifyObj, Option.some.injEq]
      by_cases same : query = id
      · simp [same]
      · simp [same, Ne.symm same]

/-- Touching keeps every type. -/
@[simp] theorem kindAt_touch
    (disk : Disk)
    (dir query : Loc) :
    (disk.touch dir).kindAt query = disk.kindAt query := by
  unfold kindAt find?
  rw [names_touch]
  cases disk.names.get? query with
  | none =>
      rfl
  | some id =>
      simp only [Option.bind_some, objs_touch]
      split
      · cases disk.objs.get? id <;> rfl
      · rfl

/-- Where the name at a place came from when the tree at `src` moved. -/
def moveOrigin
    (src dst query : Loc) :
    Option Loc :=
  if query.isUnder dst then
    some ⟨src.root, src.path ++ query.below dst⟩
  else if query.isUnder src then
    none
  else
    some query

theorem movePlace_iff
    (src dst loc query : Loc) :
    movePlace src dst loc = some query ↔
      moveOrigin src dst query = some loc := by
  unfold movePlace moveOrigin
  constructor
  · intro moves
    split at moves
    · next under =>
        cases moves
        rw [if_pos (Loc.isUnder_append _ _ _), Loc.below_append,
          ← Loc.eq_append_below under]
    · next notSrc =>
        split at moves
        · cases moves
        · next notDst =>
            cases moves
            rw [if_neg notDst, if_neg notSrc]
  · intro comes
    split at comes
    · next under =>
        cases comes
        rw [if_pos (Loc.isUnder_append _ _ _), Loc.below_append,
          ← Loc.eq_append_below under]
    · next notDst =>
        split at comes
        · cases comes
        · next notSrc =>
            cases comes
            rw [if_neg notSrc, if_neg notDst]

/-- The names after a tree moved. -/
theorem names_movePlace
    (disk : Disk)
    (src dst query : Loc) :
    (disk.moveNames (movePlace src dst)).names.get? query =
      (moveOrigin src dst query).bind disk.names.get? :=
  FMap.get?_rekey (movePlace_iff src dst) query

/-- Two trees that lie apart are exchanged by one map in both directions. -/
theorem exchangePlace_iff
    {src dst : Loc}
    (apart :
      ∀ loc : Loc, loc.isUnder src = true → loc.isUnder dst = false)
    (loc query : Loc) :
    exchangePlace src dst loc = some query ↔
      exchangePlace src dst query = some loc := by
  have oneWay :
      ∀ first second, exchangePlace src dst first = some second →
        exchangePlace src dst second = some first := by
    intro first second moves
    unfold exchangePlace at moves ⊢
    split at moves
    · next under =>
        cases moves
        have underDst := Loc.isUnder_append dst.root dst.path (first.below src)
        have notSrc :
            (⟨dst.root, dst.path ++ first.below src⟩ : Loc).isUnder src =
              false := by
          apply Bool.eq_false_iff.mpr
          intro underSrc
          rw [apart _ underSrc] at underDst
          cases underDst
        rw [notSrc, underDst, Loc.below_append]
        simp [← Loc.eq_append_below under]
    · next notSrc =>
        split at moves
        · next under =>
            cases moves
            rw [if_pos (Loc.isUnder_append _ _ _), Loc.below_append,
              ← Loc.eq_append_below under]
        · next notDst =>
            cases moves
            rw [if_neg notSrc, if_neg notDst]
  exact ⟨oneWay loc query, oneWay query loc⟩

/-- The names after an exchange. -/
theorem names_exchangePlace
    (disk : Disk)
    {src dst : Loc}
    (apart :
      ∀ loc : Loc, loc.isUnder src = true → loc.isUnder dst = false)
    (query : Loc) :
    (disk.moveNames (exchangePlace src dst)).names.get? query =
      (exchangePlace src dst query).bind disk.names.get? :=
  FMap.get?_rekey (exchangePlace_iff apart) query

/-! ## Objects with one name -/

/-- The location is the only name of the object. -/
structure Owns
    (disk : Disk)
    (loc : Loc)
    (id : ObjId)
    (obj : Obj) : Prop where
  name : disk.names.get? loc = some id
  only : ∀ other, disk.names.get? other = some id → other = loc
  stored : disk.objs.get? id = some obj

/-- No name leads to the next object. -/
theorem names_ne_nextObj
    (disk : Disk)
    (loc : Loc) :
    disk.names.get? loc ≠ some disk.nextObj := by
  intro stored
  obtain ⟨obj, objStored⟩ := Option.isSome_iff_exists.mp (disk.named stored)
  exact Nat.lt_irrefl _ (disk.bounded objStored)

theorem names_addObj
    (disk : Disk)
    (loc query : Loc)
    (obj : Obj) :
    (disk.addObj loc obj).names.get? query =
      if query = loc then some disk.nextObj else disk.names.get? query :=
  FMap.get?_set disk.names loc query disk.nextObj

theorem objs_addObj
    (disk : Disk)
    (loc : Loc)
    (obj : Obj)
    (query : ObjId) :
    (disk.addObj loc obj).objs.get? query =
      if query = disk.nextObj then some obj else disk.objs.get? query :=
  FMap.get?_set disk.objs disk.nextObj query obj

theorem names_dropName
    (disk : Disk)
    (loc query : Loc) :
    (disk.dropName loc).names.get? query =
      if query = loc then none else disk.names.get? query :=
  FMap.get?_remove disk.names loc query

namespace Owns

variable {obj : Obj}

theorem find?
    (owns : disk.Owns loc id obj) :
    disk.find? loc = some obj :=
  find?_eq_some_iff.mpr ⟨id, owns.name, owns.stored⟩

theorem kindAt
    (owns : disk.Owns loc id obj) :
    disk.kindAt loc = some obj.kind := by
  unfold Disk.kindAt
  rw [owns.find?]
  rfl

/-- A change of the owned object. -/
theorem modify
    (owns : disk.Owns loc id obj)
    (change : Obj → Obj) :
    (disk.modifyObj id change).Owns loc id (change obj) where
  name := owns.name
  only := owns.only
  stored := by
    rw [objs_modifyObj, if_pos rfl, owns.stored]
    rfl

theorem modify_ne
    (owns : disk.Owns loc id obj)
    {other : ObjId}
    (different : id ≠ other)
    (change : Obj → Obj) :
    (disk.modifyObj other change).Owns loc id obj where
  name := owns.name
  only := owns.only
  stored := by
    rw [objs_modifyObj, if_neg different]
    exact owns.stored

theorem touch_self
    (owns : disk.Owns loc id obj) :
    (disk.touch loc).Owns loc id { obj with mtime := disk.now } where
  name := by rw [names_touch]; exact owns.name
  only := by rw [names_touch]; exact owns.only
  stored := by
    rw [objs_touch, if_pos owns.name, owns.stored]
    rfl

theorem touch_ne
    (owns : disk.Owns loc id obj)
    (different : dir ≠ loc) :
    (disk.touch dir).Owns loc id obj where
  name := by rw [names_touch]; exact owns.name
  only := by rw [names_touch]; exact owns.only
  stored := by
    rw [objs_touch, if_neg fun named => different (owns.only dir named)]
    exact owns.stored

/-- A new object has one name. -/
theorem addObj_self
    (disk : Disk)
    (loc : Loc)
    (obj : Obj) :
    (disk.addObj loc obj).Owns loc disk.nextObj obj where
  name := by rw [names_addObj, if_pos rfl]
  only := by
    intro other named
    rw [names_addObj] at named
    split at named
    · next same => exact same
    · exact (disk.names_ne_nextObj other named).elim
  stored := by rw [objs_addObj, if_pos rfl]

theorem addObj_ne
    (owns : disk.Owns loc id obj)
    {made : Loc}
    (different : loc ≠ made)
    (new : Obj) :
    (disk.addObj made new).Owns loc id obj := by
  have old : id ≠ disk.nextObj := by
    rintro rfl
    exact disk.names_ne_nextObj loc owns.name
  refine ⟨?_, ?_, ?_⟩
  · rw [names_addObj, if_neg different]
    exact owns.name
  · intro other named
    rw [names_addObj] at named
    split at named
    · exact (old (Option.some.inj named).symm).elim
    · exact owns.only other named
  · rw [objs_addObj, if_neg old]
    exact owns.stored

theorem dropName_ne
    (owns : disk.Owns loc id obj)
    {gone : Loc}
    (different : loc ≠ gone) :
    (disk.dropName gone).Owns loc id obj := by
  refine ⟨?_, ?_, owns.stored⟩
  · rw [names_dropName, if_neg different]
    exact owns.name
  · intro other named
    rw [names_dropName] at named
    split at named
    · cases named
    · exact owns.only other named

/-- An owned object moves with its name. -/
theorem moveNames
    (owns : disk.Owns loc id obj)
    {place origin : Loc → Option Loc}
    (inverse : ∀ loc query, place loc = some query ↔ origin query = some loc)
    {target : Loc}
    (moves : place loc = some target) :
    (disk.moveNames place).Owns target id obj := by
  have names :
      ∀ query, (disk.moveNames place).names.get? query =
        (origin query).bind disk.names.get? :=
    FMap.get?_rekey inverse
  refine ⟨?_, ?_, owns.stored⟩
  · rw [names, (inverse loc target).mp moves]
    exact owns.name
  · intro other named
    rw [names] at named
    obtain ⟨old, comes, oldNamed⟩ := Option.bind_eq_some_iff.mp named
    rw [owns.only old oldNamed] at comes
    have sameMove := (inverse loc other).mpr comes
    exact Option.some.inj (sameMove.symm.trans moves)

end Owns

/-! ## Lower layers -/

/-- No directory is in a lower layer and in the upper layer or the work
directory. -/
def DirsApart (disk : Disk) : Prop :=
  ∀ low high id obj, Loc.Lower low → ¬ Loc.Lower high →
    disk.names.get? low = some id → disk.names.get? high = some id →
    disk.objs.get? id = some obj → obj.kind ≠ .dir

/-- The lower layers show the same before and after. -/
structure Kept
    (before after : Disk) : Prop where
  now : after.now = before.now
  names :
    ∀ loc, Loc.Lower loc → after.names.get? loc = before.names.get? loc
  finds : ∀ loc, Loc.Lower loc → after.find? loc = before.find? loc
  apart : after.DirsApart

namespace Kept

theorem refl
    (apart : disk.DirsApart) :
    Kept disk disk :=
  ⟨rfl, fun _ _ => rfl, fun _ _ => rfl, apart⟩

theorem trans
    {first second third : Disk}
    (left : Kept first second)
    (right : Kept second third) :
    Kept first third where
  now := right.now.trans left.now
  names loc low := (right.names loc low).trans (left.names loc low)
  finds loc low := (right.finds loc low).trans (left.finds loc low)
  apart := right.apart

/-- The directory whose entries change is not in a lower layer. -/
theorem touch
    (apart : disk.DirsApart)
    (high : ¬ dir.Lower)
    (isDir : disk.kindAt dir = some .dir) :
    Kept disk (disk.touch dir) := by
  have untouched :
      ∀ low id, Loc.Lower low → disk.names.get? low = some id →
        (disk.touch dir).objs.get? id = disk.objs.get? id := by
    intro low id isLow named
    rw [objs_touch, if_neg]
    intro dirNamed
    obtain ⟨obj, found, kind⟩ := kindAt_eq_some_iff.mp isDir
    obtain ⟨dirId, dirStored, stored⟩ := find?_eq_some_iff.mp found
    cases dirNamed.symm.trans dirStored
    exact apart low dir id obj isLow high named dirNamed stored kind
  refine ⟨now_touch disk dir, fun low _ => by rw [names_touch], ?_, ?_⟩
  · intro low isLow
    unfold find?
    rw [names_touch]
    cases named : disk.names.get? low with
    | none =>
        rfl
    | some id =>
        exact untouched low id isLow named
  · intro low other id obj isLow isHigh named otherNamed stored
    rw [names_touch] at named otherNamed
    rw [untouched low id isLow named] at stored
    exact apart low other id obj isLow isHigh named otherNamed stored

theorem addObj
    (apart : disk.DirsApart)
    (high : ¬ loc.Lower)
    (obj : Obj) :
    Kept disk (disk.addObj loc obj) := by
  have names :
      ∀ low, Loc.Lower low →
        (disk.addObj loc obj).names.get? low = disk.names.get? low := by
    intro low isLow
    rw [names_addObj, if_neg]
    rintro rfl
    exact high isLow
  have old : ∀ low id, disk.names.get? low = some id → id ≠ disk.nextObj := by
    rintro low id named rfl
    exact disk.names_ne_nextObj low named
  refine ⟨rfl, names, ?_, ?_⟩
  · intro low isLow
    unfold find?
    rw [names low isLow]
    cases named : disk.names.get? low with
    | none =>
        rfl
    | some id =>
        simp only [Option.bind_some]
        rw [objs_addObj, if_neg (old low id named)]
  · intro low other id found isLow isHigh named otherNamed stored
    rw [names low isLow] at named
    rw [objs_addObj, if_neg (old low id named)] at stored
    rw [names_addObj] at otherNamed
    split at otherNamed
    · exact (old low id named (Option.some.inj otherNamed).symm).elim
    · exact apart low other id found isLow isHigh named otherNamed stored

/-- An object without a name in a lower layer changes. -/
theorem modify
    (apart : disk.DirsApart)
    (free : ∀ low, Loc.Lower low → disk.names.get? low ≠ some id)
    (change : Obj → Obj) :
    Kept disk (disk.modifyObj id change) := by
  have untouched :
      ∀ low found, Loc.Lower low → disk.names.get? low = some found →
        (disk.modifyObj id change).objs.get? found =
          disk.objs.get? found := by
    intro low found isLow named
    rw [objs_modifyObj, if_neg]
    rintro rfl
    exact free low isLow named
  refine ⟨rfl, fun _ _ => rfl, ?_, ?_⟩
  · intro low isLow
    unfold find?
    rw [names_modifyObj]
    cases named : disk.names.get? low with
    | none =>
        rfl
    | some found =>
        exact untouched low found isLow named
  · intro low other found obj isLow isHigh named otherNamed stored
    rw [untouched low found isLow named] at stored
    exact apart low other found obj isLow isHigh named otherNamed stored

/-- Names outside the lower layers change and lead to the objects that such
names led to. -/
theorem withNames
    (apart : disk.DirsApart)
    (sameObjs : later.objs = disk.objs)
    (sameNow : later.now = disk.now)
    (low : ∀ loc, Loc.Lower loc →
      later.names.get? loc = disk.names.get? loc)
    (high : ∀ loc id, ¬ Loc.Lower loc → later.names.get? loc = some id →
      ∃ old, ¬ Loc.Lower old ∧ disk.names.get? old = some id) :
    Kept disk later := by
  refine ⟨sameNow, low, ?_, ?_⟩
  · intro loc isLow
    unfold find?
    rw [low loc isLow, sameObjs]
  · intro lowLoc highLoc id obj isLow isHigh named highNamed stored
    rw [low lowLoc isLow] at named
    rw [sameObjs] at stored
    obtain ⟨old, oldHigh, oldNamed⟩ := high highLoc id isHigh highNamed
    exact apart lowLoc old id obj isLow oldHigh named oldNamed stored

theorem dropName
    (apart : disk.DirsApart)
    (high : ¬ loc.Lower) :
    Kept disk (disk.dropName loc) := by
  refine withNames apart rfl rfl ?_ ?_
  · intro query isLow
    rw [names_dropName, if_neg]
    rintro rfl
    exact high isLow
  · intro query id isHigh named
    rw [names_dropName] at named
    split at named
    · cases named
    · exact ⟨query, isHigh, named⟩

theorem movePlace
    (apart : disk.DirsApart)
    {src dst : Loc}
    (srcHigh : ¬ src.Lower)
    (dstHigh : ¬ dst.Lower) :
    Kept disk (disk.moveNames (Disk.movePlace src dst)) := by
  refine withNames apart rfl rfl ?_ ?_
  · intro query isLow
    have notDst : ¬ query.isUnder dst = true := fun under =>
      dstHigh (Loc.lower_of_root (Loc.isUnder_iff.mp under).1 isLow)
    have notSrc : ¬ query.isUnder src = true := fun under =>
      srcHigh (Loc.lower_of_root (Loc.isUnder_iff.mp under).1 isLow)
    rw [names_movePlace, moveOrigin, if_neg notDst, if_neg notSrc]
    rfl
  · intro query id isHigh named
    rw [names_movePlace] at named
    obtain ⟨old, comes, oldNamed⟩ := Option.bind_eq_some_iff.mp named
    refine ⟨old, ?_, oldNamed⟩
    unfold moveOrigin at comes
    split at comes
    · cases comes
      exact srcHigh
    · split at comes
      · cases comes
      · cases comes
        exact isHigh

theorem exchangePlace
    (apart : disk.DirsApart)
    {src dst : Loc}
    (srcHigh : ¬ src.Lower)
    (dstHigh : ¬ dst.Lower)
    (separate :
      ∀ loc : Loc, loc.isUnder src = true → loc.isUnder dst = false) :
    Kept disk (disk.moveNames (Disk.exchangePlace src dst)) := by
  refine withNames apart rfl rfl ?_ ?_
  · intro query isLow
    have notDst : ¬ query.isUnder dst = true := fun under =>
      dstHigh (Loc.lower_of_root (Loc.isUnder_iff.mp under).1 isLow)
    have notSrc : ¬ query.isUnder src = true := fun under =>
      srcHigh (Loc.lower_of_root (Loc.isUnder_iff.mp under).1 isLow)
    rw [names_exchangePlace disk separate, Disk.exchangePlace, if_neg notSrc,
      if_neg notDst]
    rfl
  · intro query id isHigh named
    rw [names_exchangePlace disk separate] at named
    obtain ⟨old, comes, oldNamed⟩ := Option.bind_eq_some_iff.mp named
    refine ⟨old, ?_, oldNamed⟩
    unfold Disk.exchangePlace at comes
    split at comes
    · cases comes
      exact dstHigh
    · split at comes
      · cases comes
        exact srcHigh
      · cases comes
        exact isHigh

end Kept

/-! ## Calls that succeed -/

theorem create_returns
    {obj : Obj}
    (returned : disk.create dir name obj = .ok (id, later)) :
    disk.kindAt dir = some .dir ∧ isSpecial name = false ∧
      disk.names.get? (dir.child name) = none ∧ id = disk.nextObj ∧
      later = (disk.addObj (dir.child name) obj).touch dir := by
  unfold create at returned
  split at returned
  · cases returned
  · next isDir =>
      split at returned
      · cases returned
      · next free =>
          simp only [Bool.or_eq_true, not_or, Bool.not_eq_true,
            Option.isSome_eq_false_iff, Option.isNone_iff_eq_none] at free
          cases returned
          exact ⟨isDir, free.1, free.2, rfl, rfl⟩
  · cases returned

/-- A rename that succeeds and finds two objects moves the tree. -/
theorem renameat_returns
    {oldDir newDir : Loc}
    {oldName newName : Name}
    (returned : disk.renameat oldDir oldName newDir newName = .ok later)
    (different :
      disk.names.get? (oldDir.child oldName) ≠
        disk.names.get? (newDir.child newName)) :
    isSpecial newName = false ∧ disk.kindAt newDir = some .dir ∧
      later = ((disk.moveNames
        (movePlace (oldDir.child oldName) (newDir.child newName))).touch
          oldDir).touch newDir := by
  unfold renameat at returned
  simp only at returned
  split at returned
  · cases returned
  · next proper =>
      split at returned
      · cases returned
      · next isDir =>
          split at returned
          · next same =>
              simp only [Bool.and_eq_true, decide_eq_true_eq] at same
              exact (different same.2).elim
          · split at returned
            · cases returned
            · cases returned
              refine ⟨?_, by simpa using isDir, rfl⟩
              simp only [Bool.or_eq_true, not_or, Bool.not_eq_true] at proper
              exact proper.2

/-- A rename that gets past its first checks has a directory to work in. -/
theorem renameat_error
    {oldDir newDir : Loc}
    {oldName newName : Name}
    {errno : Errno}
    (failed : disk.renameat oldDir oldName newDir newName = .error errno)
    (notBusy : errno ≠ .EBUSY)
    (notMissing : errno ≠ .ENOENT) :
    disk.kindAt newDir = some .dir := by
  unfold renameat at failed
  simp only at failed
  split at failed
  · cases failed
    exact (notBusy rfl).elim
  · split at failed
    · cases failed
      exact (notMissing rfl).elim
    · next isDir =>
        simpa using isDir

/-- An exchange that succeeds and finds two names exchanges the trees. -/
theorem renameExchange_returns
    {oldDir newDir : Loc}
    {oldName newName : Name}
    (returned : disk.renameExchange oldDir oldName newDir newName = .ok later)
    (different : oldDir.child oldName ≠ newDir.child newName) :
    isSpecial newName = false ∧
      later = ((disk.moveNames
        (exchangePlace (oldDir.child oldName) (newDir.child newName))).touch
          oldDir).touch newDir := by
  unfold renameExchange at returned
  simp only at returned
  split at returned
  · cases returned
  · next proper =>
      split at returned
      · cases returned
      · split at returned
        · cases returned
        · cases returned
          simp only [Bool.or_eq_true, not_or, Bool.not_eq_true] at proper
          exact ⟨proper.2, rfl⟩

theorem unlinkat_returns
    {removeDir : Bool}
    (returned : disk.unlinkat dir name removeDir = .ok later) :
    later = (disk.dropName (dir.child name)).touch dir := by
  unfold unlinkat at returned
  split at returned
  · cases returned
  · split at returned
    · cases returned
    · split at returned
      · cases returned
      · split at returned
        · cases returned
        · split at returned
          · cases returned
          · cases returned
            rfl

/-! ## Frames -/

/-- Where changes leave traces: names that change and directories whose
entries change. -/
structure Scope where
  changed : Loc → Prop
  touched : Loc → Prop

/--
What a series of changes leaves alone: names and types outside the scope, and
there the objects with one name, up to the time of a directory in the scope.
-/
structure Frame
    (scope : Scope)
    (before after : Disk) : Prop where
  kept : Kept before after
  names :
    ∀ loc, ¬ scope.changed loc →
      after.names.get? loc = before.names.get? loc
  kinds : ∀ loc, ¬ scope.changed loc → after.kindAt loc = before.kindAt loc
  owns :
    ∀ loc id obj, ¬ scope.changed loc → ¬ scope.touched loc →
      before.Owns loc id obj → after.Owns loc id obj
  drifts :
    ∀ loc id obj, ¬ scope.changed loc → before.Owns loc id obj →
      ∃ time, after.Owns loc id { obj with mtime := time }

namespace Frame

variable {scope : Scope}

theorem refl
    (apart : disk.DirsApart) :
    Frame scope disk disk :=
  ⟨.refl apart, fun _ _ => rfl, fun _ _ => rfl, fun _ _ _ _ _ owns => owns,
    fun _ _ obj _ owns => ⟨obj.mtime, owns⟩⟩

theorem trans
    {first second third : Disk}
    (left : Frame scope first second)
    (right : Frame scope second third) :
    Frame scope first third where
  kept := left.kept.trans right.kept
  names loc same := (right.names loc same).trans (left.names loc same)
  kinds loc same := (right.kinds loc same).trans (left.kinds loc same)
  owns loc id obj same still owns :=
    right.owns loc id obj same still (left.owns loc id obj same still owns)
  drifts loc id obj same owns := by
    obtain ⟨between, owned⟩ := left.drifts loc id obj same owns
    obtain ⟨time, owned⟩ := right.drifts loc id _ same owned
    exact ⟨time, owned⟩

theorem mono
    {wider : Scope}
    {before after : Disk}
    (frame : Frame scope before after)
    (moreChanged : ∀ loc, scope.changed loc → wider.changed loc)
    (moreTouched : ∀ loc, scope.touched loc → wider.touched loc) :
    Frame wider before after where
  kept := frame.kept
  names loc same :=
    frame.names loc fun changes => same (moreChanged loc changes)
  kinds loc same :=
    frame.kinds loc fun changes => same (moreChanged loc changes)
  owns loc id obj same still :=
    frame.owns loc id obj (fun changes => same (moreChanged loc changes))
      fun touches => still (moreTouched loc touches)
  drifts loc id obj same :=
    frame.drifts loc id obj fun changes => same (moreChanged loc changes)

theorem touch
    (apart : disk.DirsApart)
    (high : ¬ dir.Lower)
    (isDir : disk.kindAt dir = some .dir)
    (touches : scope.touched dir) :
    Frame scope disk (disk.touch dir) where
  kept := .touch apart high isDir
  names loc _ := by rw [names_touch]
  kinds loc _ := kindAt_touch disk dir loc
  owns loc id obj _ still owns :=
    owns.touch_ne fun same => still (same ▸ touches)
  drifts loc id obj _ owns := by
    by_cases same : dir = loc
    · subst same
      exact ⟨disk.now, owns.touch_self⟩
    · exact ⟨obj.mtime, owns.touch_ne same⟩

/-- Changes that set no time outside the scope. -/
theorem ofOwns
    {before after : Disk}
    (kept : Kept before after)
    (names :
      ∀ loc, ¬ scope.changed loc →
        after.names.get? loc = before.names.get? loc)
    (kinds :
      ∀ loc, ¬ scope.changed loc → after.kindAt loc = before.kindAt loc)
    (owns :
      ∀ loc id obj, ¬ scope.changed loc → before.Owns loc id obj →
        after.Owns loc id obj) :
    Frame scope before after :=
  ⟨kept, names, kinds, fun loc id obj same _ => owns loc id obj same,
    fun loc id obj same owned => ⟨obj.mtime, owns loc id obj same owned⟩⟩

theorem kindAt_of_names
    {first second : Disk}
    (sameName : second.names.get? loc = first.names.get? loc)
    (sameObj :
      ∀ id, first.names.get? loc = some id →
        second.objs.get? id = first.objs.get? id) :
    second.kindAt loc = first.kindAt loc := by
  unfold kindAt find?
  rw [sameName]
  cases named : first.names.get? loc with
  | none =>
      rfl
  | some id =>
      simp only [Option.bind_some]
      rw [sameObj id named]

theorem addObj
    (apart : disk.DirsApart)
    (high : ¬ loc.Lower)
    (changes : scope.changed loc)
    (obj : Obj) :
    Frame scope disk (disk.addObj loc obj) := by
  have names :
      ∀ query, ¬ scope.changed query →
        (disk.addObj loc obj).names.get? query = disk.names.get? query := by
    intro query same
    rw [names_addObj, if_neg]
    rintro rfl
    exact same changes
  refine .ofOwns (.addObj apart high obj) names ?_ ?_
  · intro query same
    apply kindAt_of_names (names query same)
    intro id named
    rw [objs_addObj, if_neg]
    rintro rfl
    exact disk.names_ne_nextObj query named
  · intro query id found same owns
    apply owns.addObj_ne
    rintro rfl
    exact same changes

/-- The object of a changed name is changed. -/
theorem modify
    (apart : disk.DirsApart)
    {obj : Obj}
    (owned : disk.Owns loc id obj)
    (high : ¬ loc.Lower)
    (changes : scope.changed loc)
    (change : Obj → Obj) :
    Frame scope disk (disk.modifyObj id change) := by
  have elsewhere :
      ∀ query found, ¬ scope.changed query → disk.names.get? query = some found →
        found ≠ id := by
    rintro query found same named rfl
    rw [owned.only query named] at same
    exact same changes
  refine .ofOwns (.modify apart ?_ change) (fun _ _ => rfl) ?_ ?_
  · intro low isLow named
    rw [owned.only low named] at isLow
    exact high isLow
  · intro query same
    have names := congrArg (FMap.get? · query) (names_modifyObj disk id change)
    apply kindAt_of_names names
    intro found named
    rw [objs_modifyObj, if_neg (elsewhere query found same named)]
  · intro query found obj same owns
    exact owns.modify_ne (elsewhere query found same owns.name) change

theorem dropName
    (apart : disk.DirsApart)
    (high : ¬ loc.Lower)
    (changes : scope.changed loc) :
    Frame scope disk (disk.dropName loc) := by
  have names :
      ∀ query, ¬ scope.changed query →
        (disk.dropName loc).names.get? query = disk.names.get? query := by
    intro query same
    rw [names_dropName, if_neg]
    rintro rfl
    exact same changes
  refine .ofOwns (.dropName apart high) names ?_ ?_
  · intro query same
    exact kindAt_of_names (names query same) fun _ _ => rfl
  · intro query id found same owns
    apply owns.dropName_ne
    rintro rfl
    exact same changes

theorem movePlace
    (apart : disk.DirsApart)
    {src dst : Loc}
    (srcHigh : ¬ src.Lower)
    (dstHigh : ¬ dst.Lower)
    (changes :
      ∀ loc : Loc, loc.isUnder src = true ∨ loc.isUnder dst = true →
        scope.changed loc) :
    Frame scope disk
      (disk.moveNames (Disk.movePlace src dst)) := by
  have stays :
      ∀ query, ¬ scope.changed query →
        query.isUnder src = false ∧ query.isUnder dst = false := by
    intro query same
    constructor
    · exact Bool.eq_false_iff.mpr fun under => same (changes query (.inl under))
    · exact Bool.eq_false_iff.mpr fun under => same (changes query (.inr under))
  have names :
      ∀ query, ¬ scope.changed query →
        (disk.moveNames (Disk.movePlace src dst)).names.get? query =
          disk.names.get? query := by
    intro query same
    obtain ⟨notSrc, notDst⟩ := stays query same
    rw [names_movePlace]
    simp [moveOrigin, notSrc, notDst]
  refine .ofOwns (.movePlace apart srcHigh dstHigh) names ?_ ?_
  · intro query same
    exact kindAt_of_names (names query same) fun _ _ => rfl
  · intro query id found same owns
    obtain ⟨notSrc, notDst⟩ := stays query same
    apply owns.moveNames (movePlace_iff src dst)
    simp [Disk.movePlace, notSrc, notDst]

theorem exchangePlace
    (apart : disk.DirsApart)
    {src dst : Loc}
    (srcHigh : ¬ src.Lower)
    (dstHigh : ¬ dst.Lower)
    (separate :
      ∀ loc : Loc, loc.isUnder src = true → loc.isUnder dst = false)
    (changes :
      ∀ loc : Loc, loc.isUnder src = true ∨ loc.isUnder dst = true →
        scope.changed loc) :
    Frame scope disk
      (disk.moveNames (Disk.exchangePlace src dst)) := by
  have stays :
      ∀ query, ¬ scope.changed query →
        query.isUnder src = false ∧ query.isUnder dst = false := by
    intro query same
    constructor
    · exact Bool.eq_false_iff.mpr fun under => same (changes query (.inl under))
    · exact Bool.eq_false_iff.mpr fun under => same (changes query (.inr under))
  have names :
      ∀ query, ¬ scope.changed query →
        (disk.moveNames (Disk.exchangePlace src dst)).names.get? query =
          disk.names.get? query := by
    intro query same
    obtain ⟨notSrc, notDst⟩ := stays query same
    rw [names_exchangePlace disk separate]
    simp [Disk.exchangePlace, notSrc, notDst]
  refine .ofOwns (.exchangePlace apart srcHigh dstHigh separate) names ?_ ?_
  · intro query same
    exact kindAt_of_names (names query same) fun _ _ => rfl
  · intro query id found same owns
    obtain ⟨notSrc, notDst⟩ := stays query same
    apply owns.moveNames (exchangePlace_iff separate)
    simp [Disk.exchangePlace, notSrc, notDst]

end Frame

end Disk

end FuseOverlay
