import FuseOverlay.Disk

namespace FuseOverlay

/-!
# Paths on a layer

The calls of the program reach a name in two ways.  `locate` resolves the
parent of the last component and leaves that component alone; `openDir` follows
a link there too.  Where the last component is a real directory both lead to
the same place, so that one directory serves a listing and a lookup inside it.
-/

namespace Disk

variable (disk : Disk) (base : Loc)

/-! ## Walks along appended paths -/

/-- A way to go on at a link that treats a longer path like its beginning. -/
def Appends
    (suffix : Path)
    (onLink : Path → Path → Except Errno Path) : Prop :=
  ∀ start path,
    (∀ errno, onLink start path = .error errno →
      onLink start (path ++ suffix) = .error errno) ∧
    (∀ dir, onLink start path = .ok dir →
      ∃ later, onLink start (path ++ suffix) =
        disk.walk base later dir suffix)

variable {disk base}

theorem Appends.walk
    {suffix : Path}
    {onLink : Path → Path → Except Errno Path}
    (appends : disk.Appends base suffix onLink) :
    disk.Appends base suffix (disk.walk base onLink) := by
  intro cwd path
  induction path generalizing cwd with
  | nil =>
      refine ⟨fun errno failed => ?_, fun dir reached => ⟨onLink, ?_⟩⟩
      · cases failed
      · cases reached
        rfl
  | cons name rest inductionHypothesis =>
      simp only [List.cons_append, Disk.walk]
      split
      · exact inductionHypothesis cwd
      · split
        · exact inductionHypothesis _
        · cases found : disk.find? ⟨base.root, cwd ++ [name]⟩ with
          | none =>
              exact ⟨fun errno failed => failed, fun dir reached => by
                cases reached⟩
          | some obj =>
              cases kind : obj.kind with
              | dir =>
                  simpa [kind] using inductionHypothesis (cwd ++ [name])
              | lnk =>
                  simp only [kind]
                  rw [← List.append_assoc]
                  exact appends _ _
              | reg | chr | blk | fifo | sock =>
                  simp only [kind]
                  exact ⟨fun errno failed => failed, fun dir reached => by
                    cases reached⟩

theorem appends_resolveDir
    (suffix : Path)
    (budget : Nat) :
    disk.Appends base suffix (disk.resolveDir base budget) := by
  induction budget with
  | zero =>
      refine Appends.walk fun start path => ?_
      exact ⟨fun errno failed => failed, fun dir reached => by cases reached⟩
  | succ budget inductionHypothesis =>
      exact Appends.walk inductionHypothesis

/-- A walk that fails on the way fails. -/
theorem openDir_append_error
    {path : Path}
    {errno : Errno}
    (failed : disk.openDir base path = .error errno)
    (suffix : Path) :
    disk.openDir base (path ++ suffix) = .error errno := by
  unfold openDir at failed ⊢
  cases walked : disk.resolveDir base linkLimit base.path path with
  | ok dir =>
      rw [walked] at failed
      cases failed
  | error first =>
      rw [walked] at failed
      cases failed
      rw [(appends_resolveDir suffix linkLimit base.path path).1 errno walked]
      rfl

/-- One component below a directory that was reached. -/
theorem openDir_append_name
    {path : Path}
    {dir : Loc}
    (reached : disk.openDir base path = .ok dir)
    {name : Name}
    (proper : isSpecial name = false) :
    dir.root = base.root ∧
      (disk.find? (dir.child name) = none →
        disk.openDir base (path ++ [name]) = .error .ENOENT) ∧
      ∀ obj, disk.find? (dir.child name) = some obj →
        (obj.kind = .dir →
          disk.openDir base (path ++ [name]) = .ok (dir.child name)) ∧
        (obj.kind ≠ .dir → obj.kind ≠ .lnk →
          disk.openDir base (path ++ [name]) = .error .ENOTDIR) := by
  unfold openDir at reached ⊢
  cases walked : disk.resolveDir base linkLimit base.path path with
  | error errno =>
      rw [walked] at reached
      cases reached
  | ok stop =>
      rw [walked] at reached
      cases reached
      obtain ⟨later, goesOn⟩ :=
        (appends_resolveDir [name] linkLimit base.path path).2 stop walked
      simp only [isSpecial, Bool.or_eq_false_iff, decide_eq_false_iff_not]
        at proper
      rw [goesOn]
      simp only [Disk.walk, proper, or_self, ↓reduceIte, Loc.child, true_and]
      refine ⟨fun missing => ?_, fun obj found => ⟨fun isDir => ?_, ?_⟩⟩
      · rw [missing]
        rfl
      · rw [found]
        simp only [isDir]
        rfl
      · intro notDir notLink
        rw [found]
        cases kind : obj.kind <;> simp_all <;> rfl

/-! ## Walks in an unchanged layer -/

/-- What a walk reads of an object. -/
def onWalk (obj : Obj) : FileKind × List UInt8 :=
  (obj.kind, obj.data)

/-- The objects below a base are as a walk has to find them. -/
def WalksAlike
    (disk later : Disk)
    (base : Loc) : Prop :=
  ∀ path,
    (later.find? ⟨base.root, path⟩).map onWalk =
      (disk.find? ⟨base.root, path⟩).map onWalk

namespace WalksAlike

variable {later : Disk}

theorem of_find?
    (same :
      ∀ path, later.find? ⟨base.root, path⟩ = disk.find? ⟨base.root, path⟩) :
    WalksAlike disk later base :=
  fun path => congrArg (Option.map onWalk) (same path)

/-- Both trees have nothing at a place, or objects that read the same. -/
theorem cases
    (alike : WalksAlike disk later base)
    (path : Path) :
    (disk.find? ⟨base.root, path⟩ = none ∧
        later.find? ⟨base.root, path⟩ = none) ∨
      ∃ obj obj', disk.find? ⟨base.root, path⟩ = some obj ∧
        later.find? ⟨base.root, path⟩ = some obj' ∧
        obj'.kind = obj.kind ∧ obj'.data = obj.data := by
  have same := alike path
  cases found : disk.find? ⟨base.root, path⟩ with
  | none =>
      rw [found, Option.map_none, Option.map_eq_none_iff] at same
      exact .inl ⟨rfl, same⟩
  | some obj =>
      rw [found, Option.map_some, Option.map_eq_some_iff] at same
      obtain ⟨obj', found', read⟩ := same
      obtain ⟨kind, data⟩ := Prod.mk.inj read
      exact .inr ⟨obj, obj', rfl, found', kind, data⟩

end WalksAlike

section

variable {later : Disk} (alike : WalksAlike disk later base)

include alike

theorem walk_congr
    (onLink : Path → Path → Except Errno Path)
    (cwd path : Path) :
    later.walk base onLink cwd path = disk.walk base onLink cwd path := by
  induction path generalizing cwd with
  | nil =>
      rfl
  | cons name rest inductionHypothesis =>
      simp only [walk, inductionHypothesis]
      rcases alike.cases (cwd ++ [name]) with
        ⟨missing, missing'⟩ | ⟨obj, obj', found, found', kind, data⟩
      · rw [missing, missing']
      · simp only [found, found', kind, data]

theorem resolveDir_congr
    (budget : Nat)
    (cwd path : Path) :
    later.resolveDir base budget cwd path =
      disk.resolveDir base budget cwd path := by
  induction budget generalizing cwd path with
  | zero =>
      exact walk_congr alike _ cwd path
  | succ budget inductionHypothesis =>
      have links : later.resolveDir base budget =
          disk.resolveDir base budget := by
        funext cwd path
        exact inductionHypothesis cwd path
      unfold resolveDir
      rw [links]
      exact walk_congr alike _ cwd path

theorem openDir_congr
    (path : Path) :
    later.openDir base path = disk.openDir base path := by
  unfold openDir
  rw [resolveDir_congr alike]

theorem locate_congr
    (path : Path) :
    later.locate base path = disk.locate base path := by
  unfold locate
  simp only [openDir_congr alike]

theorem locateFollow_congr
    (budget : Nat)
    (cwd path : Path) :
    later.locateFollow base budget cwd path =
      disk.locateFollow base budget cwd path := by
  induction budget generalizing cwd path with
  | zero =>
      unfold locateFollow
      simp only [resolveDir_congr alike]
      cases path.getLast? with
      | none =>
          rfl
      | some name =>
          simp only
          cases disk.resolveDir base linkLimit cwd path.dropLast with
          | error errno =>
              rfl
          | ok dir =>
              rcases alike.cases (dir ++ [name]) with
                ⟨missing, missing'⟩ | ⟨obj, obj', found, found', kind, data⟩
              · simp only [missing, missing']
              · simp only [found, found', kind]
  | succ budget inductionHypothesis =>
      unfold locateFollow
      simp only [resolveDir_congr alike, inductionHypothesis]
      cases path.getLast? with
      | none =>
          rfl
      | some name =>
          simp only
          cases disk.resolveDir base linkLimit cwd path.dropLast with
          | error errno =>
              rfl
          | ok dir =>
              rcases alike.cases (dir ++ [name]) with
                ⟨missing, missing'⟩ | ⟨obj, obj', found, found', kind, data⟩
              · simp only [missing, missing']
              · simp only [found, found', kind, data]

end

/-- A walk stays on its root. -/
theorem root_of_openDir
    {path : Path}
    {loc : Loc}
    (opened : disk.openDir base path = .ok loc) :
    loc.root = base.root := by
  unfold openDir at opened
  cases resolved : disk.resolveDir base linkLimit base.path path with
  | error errno =>
      rw [resolved] at opened
      cases opened
  | ok dir =>
      rw [resolved] at opened
      cases opened
      rfl

/-- `open_parent_safe` stays on its root. -/
theorem root_of_locate
    {path : Path}
    {loc : Loc}
    (located : disk.locate base path = .ok loc) :
    loc.root = base.root := by
  unfold locate at located
  split at located
  · cases located
    rfl
  · split at located
    · cases located
    · next dir opened =>
        cases located
        rw [← root_of_openDir opened]
        unfold Loc.entry Loc.child
        split <;> rfl

theorem root_of_locateFollow
    {budget : Nat}
    {cwd path : Path}
    {loc : Loc}
    (located : disk.locateFollow base budget cwd path = .ok loc) :
    loc.root = base.root := by
  induction budget generalizing cwd path with
  | zero =>
      unfold locateFollow at located
      split at located
      · cases located
        rfl
      · split at located
        · cases resolved : disk.resolveDir base linkLimit cwd path with
          | error errno =>
              rw [resolved] at located
              cases located
          | ok dir =>
              rw [resolved] at located
              cases located
              rfl
        · split at located
          · cases located
          · simp only at located
            split at located
            · cases located
              rfl
            · split at located
              · cases located
              · cases located
                rfl
  | succ budget inductionHypothesis =>
      unfold locateFollow at located
      split at located
      · cases located
        rfl
      · split at located
        · cases resolved : disk.resolveDir base linkLimit cwd path with
          | error errno =>
              rw [resolved] at located
              cases located
          | ok dir =>
              rw [resolved] at located
              cases located
              rfl
        · split at located
          · cases located
          · simp only at located
            split at located
            · cases located
              rfl
            · split at located
              · exact inductionHypothesis located
              · cases located
                rfl

/-! ## The directory at a path -/

/-- What a layer has at the path of a directory. -/
inductive Place where
  | missing
  | notDir
  | dir (loc : Loc)
  deriving DecidableEq

/-- The place at a path, a link at the last component not followed. -/
def placeAt
    (disk : Disk)
    (root : Root)
    (path : Path) :
    Place :=
  match disk.locate ⟨root, []⟩ path with
  | .error _ => .missing
  | .ok loc =>
      match disk.kindAt loc with
      | none => .missing
      | some .dir => .dir loc
      | some _ => .notDir

/-- The directory at a path, links followed. -/
def dirAt
    (disk : Disk)
    (root : Root)
    (path : Path) :
    Option Loc :=
  (disk.openDir ⟨root, []⟩ path).toOption

/-- The only errors of the walk are `ENOENT` and `ENOTDIR`. -/
def Quiet
    (disk : Disk)
    (root : Root)
    (path : Path) : Prop :=
  ∀ errno, disk.openDir ⟨root, []⟩ path = .error errno →
    errno = .ENOENT ∨ errno = .ENOTDIR

/-- No component is empty, `.` or `..`. -/
def Proper (path : Path) : Prop :=
  ∀ name ∈ path, isSpecial name = false

variable {root : Root} {path : Path}

theorem locate_append
    (disk : Disk)
    (root : Root)
    (path : Path)
    (name : Name) :
    disk.locate ⟨root, []⟩ (path ++ [name]) =
      (disk.openDir ⟨root, []⟩ path).map (·.entry name) := by
  unfold locate
  simp only [List.getLast?_append, List.getLast?_singleton, Option.some_or,
    List.dropLast_concat]
  cases disk.openDir ⟨root, []⟩ path <;> rfl

theorem statat_append
    (disk : Disk)
    (root : Root)
    (path : Path)
    (name : Name) :
    disk.statat root (path ++ [name]) =
      match disk.openDir ⟨root, []⟩ path with
      | .error errno => .error errno
      | .ok dir => disk.statLoc (dir.entry name) := by
  unfold statat
  rw [locate_append]
  cases disk.openDir ⟨root, []⟩ path <;> rfl

theorem fileExists_append
    (disk : Disk)
    (root : Root)
    (path : Path)
    (name : Name) :
    disk.fileExists root (path ++ [name]) =
      match disk.openDir ⟨root, []⟩ path with
      | .error errno => .error errno
      | .ok dir => .ok (disk.find? (dir.entry name)).isSome := by
  unfold fileExists
  rw [locate_append]
  cases disk.openDir ⟨root, []⟩ path <;> rfl

theorem entry_of_ne
    {name : Name}
    (notDot : name ≠ dotName)
    (dir : Loc) :
    dir.entry name = dir.child name := by
  simp [Loc.entry, notDot]

theorem ne_dotName
    {name : Name}
    (proper : isSpecial name = false) :
    name ≠ dotName := by
  rintro rfl
  simp [isSpecial] at proper

/-- The last component of a path and the walk to it. -/
theorem openDir_of_locate
    (proper : Proper path)
    {loc : Loc}
    (located : disk.locate ⟨root, []⟩ path = .ok loc) :
    (disk.kindAt loc = none →
      path = [] ∨ disk.openDir ⟨root, []⟩ path = .error .ENOENT) ∧
    (disk.kindAt loc = some .dir →
      disk.openDir ⟨root, []⟩ path = .ok loc) := by
  rcases List.eq_nil_or_concat path with rfl | ⟨parents, name, rfl⟩
  · cases located
    exact ⟨fun _ => .inl rfl, fun _ => rfl⟩
  · rw [List.concat_eq_append] at located proper ⊢
    have properName : isSpecial name = false := proper name (by simp)
    rw [locate_append] at located
    cases reached : disk.openDir ⟨root, []⟩ parents with
    | error errno =>
        rw [reached] at located
        cases located
    | ok dir =>
        rw [reached] at located
        cases located
        simp only [entry_of_ne (ne_dotName properName)]
        obtain ⟨-, missing, found⟩ := openDir_append_name reached properName
        unfold kindAt
        cases shape : disk.find? (dir.child name) with
        | none =>
            exact ⟨fun _ => .inr (missing shape), fun isDir => by
              simp at isDir⟩
        | some obj =>
            refine ⟨fun none => by simp at none, fun isDir => ?_⟩
            exact (found obj shape).1 (Option.some.inj isDir)

/-- A directory that is listed is the directory that names are looked up in. -/
theorem dirAt_of_placeAt
    (proper : Proper path)
    {loc : Loc}
    (place : disk.placeAt root path = .dir loc) :
    disk.openDir ⟨root, []⟩ path = .ok loc := by
  unfold placeAt at place
  split at place
  · cases place
  · next found located =>
      split at place
      · cases place
      · next isDir =>
          cases place
          exact (openDir_of_locate proper located).2 isDir
      · cases place

/-- A walk that fails before the last component. -/
theorem openDir_of_locate_error
    {errno : Errno}
    (failed : disk.locate ⟨root, []⟩ path = .error errno) :
    disk.openDir ⟨root, []⟩ path = .error errno := by
  rcases List.eq_nil_or_concat path with rfl | ⟨parents, name, rfl⟩
  · cases failed
  · rw [List.concat_eq_append] at failed ⊢
    rw [locate_append] at failed
    cases reached : disk.openDir ⟨root, []⟩ parents with
    | ok dir =>
        rw [reached] at failed
        cases failed
    | error first =>
        rw [reached] at failed
        cases failed
        exact openDir_append_error reached [name]

/-- What is missing is no directory either; only a root may lack an object. -/
theorem openDir_of_missing
    (proper : Proper path)
    (place : disk.placeAt root path = .missing) :
    path = [] ∨ ∃ errno, disk.openDir ⟨root, []⟩ path = .error errno := by
  unfold placeAt at place
  split at place
  · next errno failed =>
      exact .inr ⟨errno, openDir_of_locate_error failed⟩
  · next found located =>
      split at place
      · next missing =>
          rcases (openDir_of_locate proper located).1 missing with
            isRoot | failed
          · exact .inl isRoot
          · exact .inr ⟨_, failed⟩
      · cases place
      · cases place

/-- A listing holds the names below the directory. -/
theorem mem_list
    (disk : Disk)
    (dir : Loc)
    (name : Name) :
    name ∈ disk.list dir ↔ (disk.find? (dir.child name)).isSome = true := by
  have stored :
      (disk.find? (dir.child name)).isSome =
        (disk.names.get? (dir.child name)).isSome := by
    unfold find?
    cases found : disk.names.get? (dir.child name) with
    | none =>
        rfl
    | some id =>
        exact disk.named found
  rw [stored, Option.isSome_iff_exists]
  unfold list
  rw [List.mem_filterMap]
  constructor
  · rintro ⟨⟨loc, id⟩, member, last⟩
    split at last
    · next inside =>
        refine ⟨id, ?_⟩
        have placed : loc = dir.child name := by
          obtain ⟨root, path⟩ := loc
          simp only at inside last
          obtain ⟨rfl, same⟩ := inside
          unfold Loc.child
          rw [← same, List.dropLast_append_getLast? name last]
        rw [← placed]
        exact FMap.mem_toList_iff.mp member
    · cases last
  · rintro ⟨id, found⟩
    refine ⟨(dir.child name, id), FMap.mem_toList_iff.mpr found, ?_⟩
    simp [Loc.child]

/-- `statat` on the directory's own path, by the place it finds. -/
theorem statat_of_placeAt
    (quiet : disk.Quiet root path) :
    match disk.placeAt root path with
    | .missing =>
        disk.statat root path = .error .ENOENT ∨
          disk.statat root path = .error .ENOTDIR
    | .notDir =>
        ∃ st, disk.statat root path = .ok st ∧ st.mode.isDir = false
    | .dir _ =>
        ∃ st, disk.statat root path = .ok st ∧ st.mode.isDir = true := by
  unfold placeAt statat
  cases located : disk.locate ⟨root, []⟩ path with
  | error errno =>
      rcases quiet errno (openDir_of_locate_error located) with rfl | rfl
      · exact .inl rfl
      · exact .inr rfl
  | ok loc =>
      simp only
      unfold kindAt find? statLoc
      cases stored : disk.names.get? loc with
      | none =>
          exact .inl rfl
      | some id =>
          obtain ⟨obj, objStored⟩ :=
            Option.isSome_iff_exists.mp (disk.named stored)
          simp only [Option.bind_some, objStored, Option.map_some]
          cases kind : obj.kind <;>
            simp [statObj, Mode.isDir, kind]

/-! ## Paths without links -/

/-- Nothing on the way along the path is something else than a directory. -/
def Straight
    (disk : Disk)
    (root : Root)
    (path : Path) : Prop :=
  ∀ parents name, (parents ++ [name]) <+: path →
    ∀ kind, disk.kindAt ⟨root, parents ++ [name]⟩ = some kind → kind = .dir

theorem Straight.shorter
    {shorter : Path}
    (straight : disk.Straight root path)
    (isPrefix : shorter <+: path) :
    disk.Straight root shorter :=
  fun parents name before => straight parents name (before.trans isPrefix)

/-- A straight path leads to its own location. -/
theorem openDir_straight
    (straight : disk.Straight root path)
    (proper : Proper path)
    {dir : Loc}
    (opened : disk.openDir ⟨root, []⟩ path = .ok dir) :
    dir = ⟨root, path⟩ ∧
      ∀ parents name, (parents ++ [name]) <+: path →
        disk.kindAt ⟨root, parents ++ [name]⟩ = some .dir := by
  induction path using List.reverseRecOn generalizing dir with
  | nil =>
      cases opened
      refine ⟨rfl, fun parents name before => ?_⟩
      have empty := List.prefix_nil.mp before
      simp at empty
  | append_singleton parents name inductionHypothesis =>
      have properParents : Proper parents := fun part among =>
        proper part (List.mem_append_left _ among)
      have properName : isSpecial name = false :=
        proper name (by simp)
      cases reached : disk.openDir ⟨root, []⟩ parents with
      | error errno =>
          rw [openDir_append_error reached] at opened
          cases opened
      | ok parent =>
          obtain ⟨rfl, above⟩ := inductionHypothesis
            (straight.shorter (List.prefix_append _ _)) properParents reached
          obtain ⟨-, missing, found⟩ := openDir_append_name reached properName
          cases stored : disk.find? (Loc.child ⟨root, parents⟩ name) with
          | none =>
              rw [missing stored] at opened
              cases opened
          | some obj =>
              have kindAt :
                  disk.kindAt ⟨root, parents ++ [name]⟩ = some obj.kind := by
                unfold kindAt
                rw [show (⟨root, parents ++ [name]⟩ : Loc) =
                  Loc.child ⟨root, parents⟩ name from rfl, stored]
                rfl
              have isDir : obj.kind = .dir :=
                straight parents name List.prefix_rfl obj.kind kindAt
              rw [(found obj stored).1 isDir] at opened
              cases opened
              refine ⟨rfl, fun first last before => ?_⟩
              rcases List.prefix_concat_iff.mp before with whole | shorter
              · rw [whole, kindAt, isDir]
              · exact above first last shorter

/-- A name that is no link is reached in either way. -/
theorem locateFollow_name
    {dir : Loc}
    {name : Name}
    (proper : isSpecial name = false)
    (noLink : disk.kindAt (dir.child name) ≠ some .lnk) :
    disk.locateFollow dir linkLimit dir.path [name] = .ok (dir.child name) := by
  have notSpecial : ¬ (name = dotName ∨ name = dotDotName ∨ name = []) := by
    simpa [isSpecial, not_or, and_assoc] using proper
  have here : disk.resolveDir dir linkLimit dir.path [] = .ok dir.path := rfl
  unfold locateFollow
  simp only [List.getLast?_singleton, List.dropLast_singleton, notSpecial,
    ↓reduceIte, here]
  cases found : disk.find? (dir.child name) with
  | none =>
      simp only [Loc.child] at found ⊢
      simp only [found]
  | some obj =>
      have kind : obj.kind ≠ .lnk := by
        intro isLink
        apply noLink
        unfold kindAt
        rw [found, Option.map_some, isLink]
      simp only [Loc.child] at found ⊢
      simp only [found, kind, ↓reduceIte]

end Disk

end FuseOverlay
