import FuseOverlay.Lib.Twin
import FuseOverlay.DiskPaths
import FuseOverlay.Whiteout
import FuseOverlay.Attr

namespace FuseOverlay

/-!
# Trees that differ in attributes nobody reads

A mount reads few extended attributes by itself: the marks of opaque
directories, and on a layer with stat override the attribute of its mode.  Two
disks that differ in other attributes only are twins, and every call that
looks at names, types and owners answers the same on both.
-/

open Act (Agrees)

/-- The object without its attributes. -/
def Obj.bare (obj : Obj) : Obj :=
  { obj with xattrs := ∅ }

theorem Obj.kind_of_bare
    {first second : Obj}
    (same : first.bare = second.bare) :
    first.kind = second.kind := by
  have kinds := congrArg Obj.kind same
  exact kinds

theorem Obj.data_of_bare
    {first second : Obj}
    (same : first.bare = second.bare) :
    first.data = second.data := by
  have contents := congrArg Obj.data same
  exact contents

/-- Two objects that differ at most in attributes that are not read. -/
structure Obj.Twin
    (reads : Name → Prop)
    (first second : Obj) : Prop where
  bare : first.bare = second.bare
  xattrs :
    ∀ attr, reads attr → first.xattrs.get? attr = second.xattrs.get? attr

namespace Disk

/-- The same names lead to objects that are twins. -/
structure Twin
    (reads : ObjId → Name → Prop)
    (first second : Disk) : Prop where
  names : first.names = second.names
  dev : first.dev = second.dev
  objs :
    ∀ id,
      (first.objs.get? id = none ∧ second.objs.get? id = none) ∨
      ∃ obj obj', first.objs.get? id = some obj ∧
        second.objs.get? id = some obj' ∧ Obj.Twin (reads id) obj obj'

namespace Twin

variable {reads : ObjId → Name → Prop} {first second : Disk}

theorem find?
    (twin : Twin reads first second)
    (loc : Loc) :
    (first.find? loc = none ∧ second.find? loc = none) ∨
      ∃ obj obj', first.find? loc = some obj ∧
        second.find? loc = some obj' ∧ obj.bare = obj'.bare := by
  unfold Disk.find?
  rw [← twin.names]
  cases first.names.get? loc with
  | none =>
      exact .inl ⟨rfl, rfl⟩
  | some id =>
      rcases twin.objs id with
        ⟨missing, missing'⟩ | ⟨obj, obj', stored, stored', same⟩
      · exact .inl ⟨missing, missing'⟩
      · exact .inr ⟨obj, obj', stored, stored', same.bare⟩

theorem kindAt
    (twin : Twin reads first second)
    (loc : Loc) :
    first.kindAt loc = second.kindAt loc := by
  unfold Disk.kindAt
  rcases twin.find? loc with ⟨found, found'⟩ | ⟨obj, obj', found, found', same⟩
  · rw [found, found']
  · rw [found, found', Option.map_some, Option.map_some,
      Obj.kind_of_bare same]

/-- The walks agree when they agree at links. -/
theorem walk
    (twin : Twin reads first second)
    (base : Loc)
    {onLink onLink' : Path → Path → Except Errno Path}
    (sameLinks : onLink = onLink')
    (cwd todo : Path) :
    first.walk base onLink cwd todo = second.walk base onLink' cwd todo := by
  subst sameLinks
  induction todo generalizing cwd with
  | nil =>
      rfl
  | cons name rest inductionHypothesis =>
      unfold Disk.walk
      split
      · exact inductionHypothesis cwd
      · split
        · exact inductionHypothesis _
        · rcases twin.find? ⟨base.root, cwd ++ [name]⟩ with
            ⟨found, found'⟩ | ⟨obj, obj', found, found', same⟩
          · simp only [found, found']
          · simp only [found, found', Obj.kind_of_bare same,
              Obj.data_of_bare same]
            split
            · exact inductionHypothesis _
            · rfl
            · rfl

theorem resolveDir
    (twin : Twin reads first second)
    (base : Loc)
    (budget : Nat) :
    first.resolveDir base budget = second.resolveDir base budget := by
  induction budget with
  | zero =>
      funext cwd todo
      exact twin.walk base rfl cwd todo
  | succ budget inductionHypothesis =>
      funext cwd todo
      exact twin.walk base inductionHypothesis cwd todo

theorem openDir
    (twin : Twin reads first second)
    (base : Loc)
    (path : Path) :
    first.openDir base path = second.openDir base path := by
  unfold Disk.openDir
  rw [twin.resolveDir]

theorem locate
    (twin : Twin reads first second)
    (base : Loc)
    (path : Path) :
    first.locate base path = second.locate base path := by
  unfold Disk.locate
  cases path.getLast? with
  | none =>
      rfl
  | some name =>
      simp only [twin.openDir]

theorem statLoc
    (twin : Twin reads first second)
    (loc : Loc) :
    first.statLoc loc = second.statLoc loc := by
  unfold Disk.statLoc
  rw [← twin.names]
  cases first.names.get? loc with
  | none =>
      rfl
  | some id =>
      rcases twin.objs id with
        ⟨missing, missing'⟩ | ⟨obj, obj', stored, stored', same⟩
      · simp only [missing, missing']
      · have sameStat :
            first.statObj loc.root id obj =
              second.statObj loc.root id obj' := by
          have shape := congrArg (first.statObj loc.root id) same.bare
          unfold Disk.statObj Disk.linkCount at shape ⊢
          rw [← twin.names, ← twin.dev]
          exact shape
        simp only [stored, stored', sameStat]

theorem statat
    (twin : Twin reads first second)
    (root : Root)
    (path : Path) :
    first.statat root path = second.statat root path := by
  unfold Disk.statat
  rw [twin.locate]
  cases second.locate ⟨root, []⟩ path with
  | error errno =>
      rfl
  | ok loc =>
      exact twin.statLoc loc

theorem fileExists
    (twin : Twin reads first second)
    (root : Root)
    (path : Path) :
    first.fileExists root path = second.fileExists root path := by
  unfold Disk.fileExists
  rw [twin.locate]
  cases second.locate ⟨root, []⟩ path with
  | error errno =>
      rfl
  | ok loc =>
      rcases twin.find? loc with
        ⟨found, found'⟩ | ⟨obj, obj', found, found', same⟩
      · simp only [found, found']
      · simp only [found, found', Option.isSome_some]

theorem dirEntry
    (twin : Twin reads first second)
    (reportsType : Bool)
    (loc : Loc)
    (name : Name) :
    first.dirEntry reportsType loc name =
      second.dirEntry reportsType loc name := by
  unfold Disk.dirEntry
  rcases twin.find? (loc.child name) with
    ⟨found, found'⟩ | ⟨obj, obj', found, found', same⟩
  · simp only [found, found']
  · have sameIno : obj.bare.stIno = obj'.bare.stIno := by rw [same]
    change obj.stIno = obj'.stIno at sameIno
    simp only [found, found', sameIno, Obj.kind_of_bare same]

theorem opendir
    (twin : Twin reads first second)
    (reportsType : Bool)
    (root : Root)
    (path : Path) :
    first.opendir reportsType root path =
      second.opendir reportsType root path := by
  unfold Disk.opendir
  rw [twin.locate]
  cases second.locate ⟨root, []⟩ path with
  | error errno =>
      rfl
  | ok loc =>
      have sameList : first.list loc = second.list loc := by
        unfold Disk.list
        rw [twin.names]
      have sameEntry :
          first.dirEntry reportsType loc = second.dirEntry reportsType loc :=
        funext fun name => twin.dirEntry reportsType loc name
      simp only [twin.kindAt, sameList, sameEntry]

theorem readlinkat
    (twin : Twin reads first second)
    (root : Root)
    (path : Path) :
    first.readlinkat root path = second.readlinkat root path := by
  unfold Disk.readlinkat
  rw [twin.locate]
  cases second.locate ⟨root, []⟩ path with
  | error errno =>
      rfl
  | ok loc =>
      rcases twin.find? loc with
        ⟨found, found'⟩ | ⟨obj, obj', found, found', same⟩
      · simp only [found, found']
      · simp only [found, found', Obj.kind_of_bare same,
          Obj.data_of_bare same]

theorem xattrOf
    (twin : Twin reads first second)
    {id : ObjId}
    {attr : Name}
    (isRead : reads id attr) :
    first.xattrOf id attr = second.xattrOf id attr := by
  unfold Disk.xattrOf
  rcases twin.objs id with
    ⟨missing, missing'⟩ | ⟨obj, obj', stored, stored', same⟩
  · simp only [missing, missing']
  · simp only [stored, stored', same.xattrs attr isRead]

/-- An attribute that is read wherever the root's names lead. -/
theorem getxattr
    (twin : Twin reads first second)
    {root : Root}
    (path : Path)
    {attr : Name}
    (isRead :
      ∀ place id, first.names.get? ⟨root, place⟩ = some id → reads id attr) :
    first.getxattr root path attr = second.getxattr root path attr := by
  unfold Disk.getxattr
  rw [← twin.locate]
  cases located : first.locate ⟨root, []⟩ path with
  | error errno =>
      rfl
  | ok loc =>
      have sameRoot : loc.root = root := Disk.root_of_locate located
      simp only [← twin.names]
      cases stored : first.names.get? loc with
      | none =>
          rfl
      | some id =>
          refine twin.xattrOf (isRead loc.path id ?_)
          rw [← sameRoot]
          exact stored

end Twin

end Disk

end FuseOverlay
