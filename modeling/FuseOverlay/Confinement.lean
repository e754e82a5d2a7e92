import FuseOverlay.DiskChanges

namespace FuseOverlay

/-!
# Trees that stay as they are

A guard says at which roots names may change and which objects are fixed.
`Spared` compares the trees of a running mount with the ones it started on:
elsewhere every name leads where it led, and a fixed object has its type, its
content and its numbers.  Every call that the program makes on names and
objects keeps it as long as the call works at the roots of the guard.
-/

/-- What of an object only a change of its content reaches. -/
def Obj.content (obj : Obj) :
    FileKind × UInt64 × List UInt8 × UInt64 :=
  (obj.kind, obj.rdev, obj.data, obj.stIno)

/--
Where names may change, and which objects are fixed.  With `loose` the owner,
the mode, the times and the attributes of a fixed object may change.
-/
structure Guard where
  writable : Root → Prop
  fixed : ObjId → Prop
  loose : Prop

namespace Loc

@[simp] theorem root_entry
    (loc : Loc)
    (name : Name) :
    (loc.entry name).root = loc.root := by
  unfold entry
  split <;> rfl

/-- Of two trees that lie apart no location is in both. -/
theorem apart_of_not_under
    {src dst : Loc}
    (first : dst.isUnder src = false)
    (second : src.isUnder dst = false)
    (loc : Loc)
    (under : loc.isUnder src = true) :
    loc.isUnder dst = false := by
  apply Bool.eq_false_iff.mpr
  intro both
  obtain ⟨srcRoot, srcPath⟩ := isUnder_iff.mp under
  obtain ⟨dstRoot, dstPath⟩ := isUnder_iff.mp both
  have sameRoot : src.root = dst.root := srcRoot.symm.trans dstRoot
  rcases List.prefix_or_prefix_of_prefix srcPath dstPath with below | above
  · have meets := isUnder_iff.mpr ⟨sameRoot.symm, below⟩
    rw [first] at meets
    cases meets
  · have meets := isUnder_iff.mpr ⟨sameRoot, above⟩
    rw [second] at meets
    cases meets

end Loc

namespace Disk

/-- The trees show at the other roots and of the fixed objects what they
showed at the start. -/
structure Spared
    (guard : Guard)
    (start disk : Disk) : Prop where
  names :
    ∀ loc, ¬ guard.writable loc.root →
      disk.names.get? loc = start.names.get? loc
  apart :
    ∀ loc id, guard.writable loc.root → disk.names.get? loc = some id →
      ¬ guard.fixed id
  known : ∀ id, guard.fixed id → id < disk.nextObj
  contents :
    ∀ id, guard.fixed id →
      (disk.objs.get? id).map Obj.content =
        (start.objs.get? id).map Obj.content
  whole :
    ¬ guard.loose → ∀ id, guard.fixed id →
      disk.objs.get? id = start.objs.get? id

/-! ## Calls that succeed -/

section

variable {disk later : Disk} {dir oldDir newDir : Loc} {name oldName newName : Name}

/-- A rename leaves the trees alone or moves one. -/
theorem renameat_moves
    (returned : disk.renameat oldDir oldName newDir newName = .ok later) :
    later = disk ∨
      later = ((disk.moveNames
        (movePlace (oldDir.child oldName) (newDir.child newName))).touch
          oldDir).touch newDir := by
  unfold renameat at returned
  simp only at returned
  split at returned
  · cases returned
  · split at returned
    · cases returned
    · split at returned
      · cases returned
        exact .inl rfl
      · split at returned
        · cases returned
        · cases returned
          exact .inr rfl

/-- An exchange leaves the trees alone or exchanges two that lie apart. -/
theorem renameExchange_moves
    (returned :
      disk.renameExchange oldDir oldName newDir newName = .ok later) :
    later = disk ∨
      (∀ loc : Loc, loc.isUnder (oldDir.child oldName) = true →
          loc.isUnder (newDir.child newName) = false) ∧
        later = ((disk.moveNames
          (exchangePlace (oldDir.child oldName) (newDir.child newName))).touch
            oldDir).touch newDir := by
  unfold renameExchange at returned
  simp only at returned
  split at returned
  · cases returned
  · split at returned
    · cases returned
    · split at returned
      · cases returned
        exact .inl rfl
      · split at returned
        · cases returned
        · next separate =>
            simp only [Bool.or_eq_true, not_or, Bool.not_eq_true] at separate
            cases returned
            exact .inr
              ⟨Loc.apart_of_not_under separate.1 separate.2, rfl⟩

theorem linkat_adds
    (returned : disk.linkat oldDir oldName newDir newName = .ok later) :
    ∃ id stored, later =
      (disk.addName (newDir.child newName) (oldDir.entry oldName) id
        stored).touch newDir := by
  unfold linkat at returned
  split at returned
  · cases returned
  · next id stored =>
      split at returned
      · cases returned
      · split at returned
        · cases returned
        · split at returned
          · cases returned
          · cases returned
            exact ⟨id, stored, rfl⟩

theorem names_addName
    (disk : Disk)
    (loc old query : Loc)
    (id : ObjId)
    (stored : disk.names.get? old = some id) :
    (disk.addName loc old id stored).names.get? query =
      if query = loc then some id else disk.names.get? query :=
  FMap.get?_set disk.names loc query id

end

namespace Spared

variable {guard : Guard} {start disk later : Disk} {loc dir : Loc} {id : ObjId}

theorem refl
    (apart :
      ∀ loc id, guard.writable loc.root → start.names.get? loc = some id →
        ¬ guard.fixed id)
    (known : ∀ id, guard.fixed id → id < start.nextObj) :
    Spared guard start start :=
  ⟨fun _ _ => rfl, apart, known, fun _ _ => rfl, fun _ _ _ => rfl⟩

/-! ## Objects -/

/-- A change that of the fixed objects keeps what has to stay. -/
theorem withObjs
    (spared : Spared guard start disk)
    (sameNames : later.names = disk.names)
    (sameNext : later.nextObj = disk.nextObj)
    (contents :
      ∀ id, guard.fixed id →
        (later.objs.get? id).map Obj.content =
          (disk.objs.get? id).map Obj.content)
    (whole :
      ¬ guard.loose → ∀ id, guard.fixed id →
        later.objs.get? id = disk.objs.get? id) :
    Spared guard start later where
  names := by
    rw [sameNames]
    exact spared.names
  apart := by
    rw [sameNames]
    exact spared.apart
  known := by
    rw [sameNext]
    exact spared.known
  contents id fixed := (contents id fixed).trans (spared.contents id fixed)
  whole strict id fixed :=
    (whole strict id fixed).trans (spared.whole strict id fixed)

/-- An object that is not fixed changes. -/
theorem modify
    (spared : Spared guard start disk)
    (free : ¬ guard.fixed id)
    (update : Obj → Obj) :
    Spared guard start (disk.modifyObj id update) := by
  have others :
      ∀ query, guard.fixed query →
        (disk.modifyObj id update).objs.get? query =
          disk.objs.get? query := by
    intro query fixed
    rw [objs_modifyObj, if_neg]
    intro same
    exact free (same ▸ fixed)
  apply spared.withObjs
  · rfl
  · rfl
  · exact fun query fixed => congrArg (Option.map Obj.content) (others query fixed)
  · exact fun _ query fixed => others query fixed

/-- The attributes of an object change, not its content. -/
theorem mark
    (spared : Spared guard start disk)
    (allowed : guard.fixed id → guard.loose)
    {update : Obj → Obj}
    (same : ∀ obj, (update obj).content = obj.content) :
    Spared guard start (disk.modifyObj id update) := by
  apply spared.withObjs
  · rfl
  · rfl
  · intro query _
    rw [objs_modifyObj]
    split
    · next isId =>
        rw [isId]
        cases disk.objs.get? id with
        | none =>
            rfl
        | some obj =>
            exact congrArg some (same obj)
    · rfl
  · intro strict query fixed
    rw [objs_modifyObj, if_neg]
    intro isId
    exact strict (allowed (isId ▸ fixed))

/-- A directory whose entries change gets a time. -/
theorem touch
    (spared : Spared guard start disk)
    (permits : guard.writable dir.root) :
    Spared guard start (disk.touch dir) := by
  unfold Disk.touch
  split
  · exact spared
  · next id named =>
      exact spared.modify (spared.apart dir id permits named) _

/-! ## Names -/

/-- A new object under a name where names may change. -/
theorem addObj
    (spared : Spared guard start disk)
    (permits : guard.writable loc.root)
    (obj : Obj) :
    Spared guard start (disk.addObj loc obj) := by
  have others :
      ∀ query, guard.fixed query →
        (disk.addObj loc obj).objs.get? query = disk.objs.get? query := by
    intro query fixed
    rw [objs_addObj, if_neg]
    exact Nat.ne_of_lt (spared.known query fixed)
  constructor
  · intro query closed
    rw [names_addObj, if_neg]
    · exact spared.names query closed
    · intro same
      exact closed (same ▸ permits)
  · intro query id opened named fixed
    rw [names_addObj] at named
    split at named
    · cases named
      exact Nat.lt_irrefl _ (spared.known _ fixed)
    · exact spared.apart query id opened named fixed
  · exact fun query fixed => Nat.lt_succ_of_lt (spared.known query fixed)
  · intro query fixed
    rw [others query fixed]
    exact spared.contents query fixed
  · intro strict query fixed
    rw [others query fixed]
    exact spared.whole strict query fixed

/-- Names change where they may, and lead to objects that such names led to. -/
theorem withNames
    (spared : Spared guard start disk)
    (sameObjs : later.objs = disk.objs)
    (sameNext : later.nextObj = disk.nextObj)
    (outside :
      ∀ loc, ¬ guard.writable loc.root →
        later.names.get? loc = disk.names.get? loc)
    (inside :
      ∀ loc id, guard.writable loc.root → later.names.get? loc = some id →
        ∃ old, guard.writable old.root ∧ disk.names.get? old = some id) :
    Spared guard start later where
  names loc closed := (outside loc closed).trans (spared.names loc closed)
  apart := by
    intro loc id opened named
    obtain ⟨old, oldPermits, oldNamed⟩ := inside loc id opened named
    exact spared.apart old id oldPermits oldNamed
  known := by
    rw [sameNext]
    exact spared.known
  contents := by
    rw [sameObjs]
    exact spared.contents
  whole := by
    rw [sameObjs]
    exact spared.whole

theorem dropName
    (spared : Spared guard start disk)
    (permits : guard.writable loc.root) :
    Spared guard start (disk.dropName loc) := by
  apply spared.withNames
  · rfl
  · rfl
  · intro query closed
    rw [names_dropName, if_neg]
    intro same
    exact closed (same ▸ permits)
  · intro query id opened named
    rw [names_dropName] at named
    split at named
    · cases named
    · exact ⟨query, opened, named⟩

theorem addName
    (spared : Spared guard start disk)
    {old : Loc}
    (permits : guard.writable loc.root)
    (oldPermits : guard.writable old.root)
    (stored : disk.names.get? old = some id) :
    Spared guard start (disk.addName loc old id stored) := by
  apply spared.withNames
  · rfl
  · rfl
  · intro query closed
    rw [names_addName, if_neg]
    intro same
    exact closed (same ▸ permits)
  · intro query found opened named
    rw [names_addName] at named
    split at named
    · cases named
      exact ⟨old, oldPermits, stored⟩
    · exact ⟨query, opened, named⟩

/-- Names move between two trees where names may change. -/
theorem moveNames
    (spared : Spared guard start disk)
    {src dst : Loc}
    (srcPermits : guard.writable src.root)
    (dstPermits : guard.writable dst.root)
    {place origin : Loc → Option Loc}
    (inverse :
      ∀ loc query, place loc = some query ↔ origin query = some loc)
    (stays :
      ∀ query : Loc, query.isUnder src = false → query.isUnder dst = false →
        origin query = some query)
    (comes :
      ∀ query old, origin query = some old →
        old = query ∨ old.root = src.root ∨ old.root = dst.root) :
    Spared guard start (disk.moveNames place) := by
  have names :
      ∀ query, (disk.moveNames place).names.get? query =
        (origin query).bind disk.names.get? :=
    FMap.get?_rekey inverse
  have closedOff :
      ∀ base query : Loc, guard.writable base.root →
        ¬ guard.writable query.root → query.isUnder base = false := by
    intro base query opened closed
    apply Bool.eq_false_iff.mpr
    intro under
    rw [(Loc.isUnder_iff.mp under).1] at closed
    exact closed opened
  apply spared.withNames
  · rfl
  · rfl
  · intro query closed
    rw [names, stays query (closedOff src query srcPermits closed)
      (closedOff dst query dstPermits closed)]
    rfl
  · intro query id opened named
    rw [names] at named
    obtain ⟨old, isOrigin, oldNamed⟩ := Option.bind_eq_some_iff.mp named
    refine ⟨old, ?_, oldNamed⟩
    rcases comes query old isOrigin with same | fromSrc | fromDst
    · rw [same]
      exact opened
    · rw [fromSrc]
      exact srcPermits
    · rw [fromDst]
      exact dstPermits

theorem movePlace
    (spared : Spared guard start disk)
    {src dst : Loc}
    (srcPermits : guard.writable src.root)
    (dstPermits : guard.writable dst.root) :
    Spared guard start (disk.moveNames (Disk.movePlace src dst)) := by
  apply spared.moveNames srcPermits dstPermits (movePlace_iff src dst)
  · intro query notSrc notDst
    simp [moveOrigin, notSrc, notDst]
  · intro query old comes
    unfold moveOrigin at comes
    split at comes
    · cases comes
      exact .inr (.inl rfl)
    · split at comes
      · cases comes
      · cases comes
        exact .inl rfl

theorem exchangePlace
    (spared : Spared guard start disk)
    {src dst : Loc}
    (srcPermits : guard.writable src.root)
    (dstPermits : guard.writable dst.root)
    (separate :
      ∀ loc : Loc, loc.isUnder src = true → loc.isUnder dst = false) :
    Spared guard start (disk.moveNames (Disk.exchangePlace src dst)) := by
  apply spared.moveNames srcPermits dstPermits (exchangePlace_iff separate)
  · intro query notSrc notDst
    simp [Disk.exchangePlace, notSrc, notDst]
  · intro query old comes
    unfold Disk.exchangePlace at comes
    split at comes
    · cases comes
      exact .inr (.inr rfl)
    · split at comes
      · cases comes
        exact .inr (.inl rfl)
      · cases comes
        exact .inl rfl

/-! ## Calls -/

section

variable {oldDir newDir : Loc} {name oldName newName : Name}

theorem create
    (spared : Spared guard start disk)
    (permits : guard.writable dir.root)
    {obj : Obj}
    (returned : disk.create dir name obj = .ok (id, later)) :
    Spared guard start later ∧ ¬ guard.fixed id := by
  obtain ⟨-, -, -, rfl, rfl⟩ := create_returns returned
  constructor
  · apply touch _ permits
    exact @addObj guard start disk (dir.child name) spared permits obj
  · intro fixed
    exact Nat.lt_irrefl _ (spared.known _ fixed)

theorem linkat
    (spared : Spared guard start disk)
    (oldPermits : guard.writable oldDir.root)
    (newPermits : guard.writable newDir.root)
    (returned : disk.linkat oldDir oldName newDir newName = .ok later) :
    Spared guard start later := by
  obtain ⟨found, stored, rfl⟩ := linkat_adds returned
  apply touch _ newPermits
  exact spared.addName (show guard.writable (newDir.child newName).root
    from newPermits) (by rw [Loc.root_entry]; exact oldPermits) stored

theorem unlinkat
    (spared : Spared guard start disk)
    (permits : guard.writable dir.root)
    {removeDir : Bool}
    (returned : disk.unlinkat dir name removeDir = .ok later) :
    Spared guard start later := by
  rw [unlinkat_returns returned]
  apply touch _ permits
  exact spared.dropName permits

theorem renameat
    (spared : Spared guard start disk)
    (oldPermits : guard.writable oldDir.root)
    (newPermits : guard.writable newDir.root)
    (returned : disk.renameat oldDir oldName newDir newName = .ok later) :
    Spared guard start later := by
  rcases renameat_moves returned with same | moved
  · rw [same]
    exact spared
  · rw [moved]
    apply touch _ newPermits
    apply touch _ oldPermits
    exact spared.movePlace oldPermits newPermits

theorem renameExchange
    (spared : Spared guard start disk)
    (oldPermits : guard.writable oldDir.root)
    (newPermits : guard.writable newDir.root)
    (returned :
      disk.renameExchange oldDir oldName newDir newName = .ok later) :
    Spared guard start later := by
  rcases renameExchange_moves returned with same | ⟨separate, moved⟩
  · rw [same]
    exact spared
  · rw [moved]
    apply touch _ newPermits
    apply touch _ oldPermits
    exact spared.exchangePlace oldPermits newPermits separate

end

end Spared

end Disk

end FuseOverlay
