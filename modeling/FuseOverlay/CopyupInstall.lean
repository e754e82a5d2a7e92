import FuseOverlay.CopyupStages

namespace FuseOverlay

/-!
# Installing a copy

The staged object is renamed to its place on the upper layer.  `Installed` says
what the trees are then: the place holds the copy and nothing below it, the
directory around it has a new time, and the rest is as it was.
-/

namespace Syscall

open Disk

/-- The scope of staging alone. -/
def tempScope (wd : Name) : Scope :=
  ⟨Temp wd, (· = workRoot)⟩

/-- The scope of staging and installing under a name of a directory. -/
def placeScope
    (wd : Name)
    (dir : Loc)
    (name : Name) :
    Scope where
  changed loc :=
    Temp wd loc ∨ loc.isUnder (dir.child name) = true ∨
      loc = dir.child (whName name)
  touched loc := loc = workRoot ∨ loc = dir

/-- The copy is in its place. -/
structure Installed
    (wd : Name)
    (dir : Loc)
    (name : Name)
    (before : Disk)
    (counter : Nat)
    (id : ObjId)
    (obj : Obj)
    (os : Os) : Prop where
  proper : isSpecial name = false
  faults : os.faults = []
  counted : os.wdCounter = counter
  frame : Frame (placeScope wd dir name) before os.disk
  owns : os.disk.Owns (dir.child name) id obj
  alone :
    ∀ loc : Loc, loc.isUnder (dir.child name) = true →
      loc ≠ dir.child name → os.disk.names.get? loc = none
  place : os.disk.kindAt dir = some .dir
  work : os.disk.kindAt workRoot = some .dir
  fills :
    ∀ dirId old, before.Owns dir dirId old →
      os.disk.Owns dir dirId { old with mtime := before.now }

section

variable {env : Env} {wd : Name} {dir : Loc} {name : Name} {before : Disk}
  {counter : Nat} {id : ObjId} {obj : Obj} {os : Os}

theorem covers_tempScope
    (wd : Name) :
    Covers (tempScope wd) wd :=
  ⟨fun _ temp => temp, rfl, not_temp_workRoot wd⟩

theorem not_under_of_root
    {loc base : Loc}
    (different : loc.root ≠ base.root) :
    loc.isUnder base = false :=
  Bool.eq_false_iff.mpr fun under => different (Loc.isUnder_iff.mp under).1

theorem covers_placeScope
    (upper : dir.root = .layer 0) :
    Covers (placeScope wd dir name) wd := by
  have otherRoot : ∀ child, workRoot ≠ dir.child child := by
    intro child same
    have roots := congrArg Loc.root same
    rw [show (dir.child child).root = dir.root from rfl, upper] at roots
    cases roots
  refine ⟨fun _ temp => .inl temp, .inl rfl, ?_⟩
  rintro (temp | under | same)
  · exact not_temp_workRoot wd temp
  · rw [not_under_of_root] at under
    · cases under
    · rw [show (dir.child name).root = dir.root from rfl, upper]
      intro same
      cases same
  · exact otherRoot (whName name) same

/-- A stage is one of the wider scope too. -/
theorem Staged.widen
    (staged : Staged (tempScope wd) wd before counter id obj os)
    (upper : dir.root = .layer 0) :
    Staged (placeScope wd dir name) wd before counter id obj os :=
  ⟨staged.faults, staged.counted, covers_placeScope upper,
    staged.frame.mono (fun _ temp => .inl temp) fun _ work => .inl work,
    staged.owns, staged.alone, staged.work⟩

theorem not_lower_upper
    {loc : Loc}
    (upper : loc.root = .layer 0) :
    ¬ loc.Lower :=
  fun low => low.1 upper

theorem dir_not_changed
    (upper : dir.root = .layer 0) :
    ¬ (placeScope wd dir name).changed dir := by
  rintro (temp | under | same)
  · have roots := (Loc.isUnder_iff.mp temp).1
    rw [upper] at roots
    cases roots
  · have lengths := (Loc.isUnder_iff.mp under).2.length_le
    simp only [Loc.child, List.length_append, List.length_singleton] at lengths
    omega
  · exact Loc.child_ne dir (whName name) same.symm

/-- The two directory times that a move sets. -/
theorem Frame.touchBoth
    {disk : Disk}
    (upper : dir.root = .layer 0)
    (apart : disk.DirsApart)
    (work : disk.kindAt workRoot = some .dir)
    (place : disk.kindAt dir = some .dir) :
    Frame (placeScope wd dir name) disk
      ((disk.touch workRoot).touch dir) := by
  have first :
      Frame (placeScope wd dir name) disk (disk.touch workRoot) :=
    .touch apart not_lower_workRoot work (.inl rfl)
  refine first.trans (.touch first.kept.apart (not_lower_upper upper) ?_
    (.inr rfl))
  rw [kindAt_touch]
  exact place

/-- Trees in different roots lie apart. -/
theorem separate_of_root
    {src dst : Loc}
    (different : src.root ≠ dst.root)
    (loc : Loc)
    (under : loc.isUnder src = true) :
    loc.isUnder dst = false := by
  apply not_under_of_root
  rw [(Loc.isUnder_iff.mp under).1]
  exact different

/-- The staged object moves to its place and both directories get a time. -/
theorem Staged.place
    (staged : Staged (placeScope wd dir name) wd before counter id obj os)
    (upper : dir.root = .layer 0)
    (proper : isSpecial name = false)
    (isDir : os.disk.kindAt dir = some .dir)
    {place origin : Loc → Option Loc}
    (inverse :
      ∀ loc query, place loc = some query ↔ origin query = some loc)
    (moved :
      Frame (placeScope wd dir name) os.disk (os.disk.moveNames place))
    (moves : place (workRoot.child wd) = some (dir.child name))
    (comes :
      ∀ loc : Loc, loc.isUnder (dir.child name) = true →
        ∃ old, origin loc = some old ∧ Temp wd old ∧
          (old = workRoot.child wd → loc = dir.child name)) :
    Installed wd dir name before counter id obj
      { os with
        disk := ((os.disk.moveNames place).touch workRoot).touch dir } := by
  have notWork : ∀ loc : Loc, loc.root = .layer 0 → workRoot ≠ loc := by
    rintro loc root rfl
    cases root
  have movedPlace : (os.disk.moveNames place).kindAt dir = some .dir :=
    (moved.kinds dir (dir_not_changed upper)).trans isDir
  have movedWork : (os.disk.moveNames place).kindAt workRoot = some .dir :=
    (moved.kinds workRoot staged.covers.fixed).trans staged.work
  have touched :=
    @Frame.touchBoth wd dir name _ upper moved.kept.apart movedWork movedPlace
  refine ⟨proper, staged.faults, staged.counted,
    staged.frame.trans (moved.trans touched), ?_, ?_, ?_, ?_, ?_⟩
  · have owned := staged.owns.moveNames inverse moves
    have owned := owned.touch_ne (notWork (dir.child name) upper)
    exact owned.touch_ne (Loc.child_ne dir name).symm
  · intro loc under different
    obtain ⟨old, comesFrom, temp, only⟩ := comes loc under
    have stored :
        (os.disk.moveNames place).names.get? loc =
          (origin loc).bind os.disk.names.get? :=
      FMap.get?_rekey inverse loc
    rw [names_touch, names_touch, stored, comesFrom]
    exact staged.alone old temp fun same => different (only same)
  · rw [kindAt_touch, kindAt_touch]
    exact movedPlace
  · rw [kindAt_touch, kindAt_touch]
    exact movedWork
  · intro dirId old owned
    have fixed := @dir_not_changed wd dir name upper
    obtain ⟨first, owned⟩ := staged.frame.drifts dir dirId old fixed owned
    obtain ⟨second, owned⟩ := moved.drifts dir dirId _ fixed owned
    have owned := owned.touch_ne (notWork dir upper)
    have owned := owned.touch_self
    rw [now_touch] at owned
    rw [← staged.now]
    exact owned

/-- The names below the place come from below the temporary name. -/
theorem temp_of_below
    {loc : Loc}
    (under : loc.isUnder (dir.child name) = true) :
    Temp wd ⟨.workdir, [wd] ++ loc.below (dir.child name)⟩ ∧
      ((⟨.workdir, [wd] ++ loc.below (dir.child name)⟩ : Loc) =
        workRoot.child wd → loc = dir.child name) := by
  constructor
  · exact Loc.isUnder_append .workdir [wd] _
  · intro same
    have nothing : loc.below (dir.child name) = [] := by
      simpa [workRoot, Loc.child] using congrArg Loc.path same
    rw [Loc.eq_append_below under, nothing, List.append_nil]

theorem roots_differ
    (upper : dir.root = .layer 0)
    (wd name : Name) :
    (workRoot.child wd).root ≠ (dir.child name).root := by
  rw [show (dir.child name).root = dir.root from rfl, upper]
  intro same
  cases same

theorem Staged.rename
    (staged : Staged (placeScope wd dir name) wd before counter id obj os)
    (upper : dir.root = .layer 0)
    {later : Disk}
    (renamed : os.disk.renameat workRoot wd dir name = .ok later) :
    Installed wd dir name before counter id obj
      { os with disk := later } := by
  have different :
      os.disk.names.get? (workRoot.child wd) ≠
        os.disk.names.get? (dir.child name) := by
    rw [staged.owns.name]
    intro same
    have meets := staged.owns.only (dir.child name) same.symm
    exact roots_differ upper wd name (congrArg Loc.root meets).symm
  obtain ⟨proper, isDir, rfl⟩ := renameat_returns renamed different
  have placeHigh : ¬ (dir.child name).Lower := @not_lower_upper _ upper
  apply staged.place upper proper isDir
    (movePlace_iff (workRoot.child wd) (dir.child name))
  · apply Frame.movePlace staged.frame.kept.apart (not_lower_temp wd)
      placeHigh
    rintro loc (underTemp | underPlace)
    · exact .inl underTemp
    · exact .inr (.inl underPlace)
  · simp [movePlace, Loc.isUnder_self, Loc.below]
  · intro loc under
    obtain ⟨temp, only⟩ := @temp_of_below wd dir name loc under
    exact ⟨_, by rw [moveOrigin, if_pos under]; rfl, temp, only⟩

theorem Staged.exchange
    (staged : Staged (placeScope wd dir name) wd before counter id obj os)
    (upper : dir.root = .layer 0)
    (isDir : os.disk.kindAt dir = some .dir)
    {later : Disk}
    (exchanged : os.disk.renameExchange workRoot wd dir name = .ok later) :
    Installed wd dir name before counter id obj
      { os with disk := later } := by
  have separate := separate_of_root (roots_differ upper wd name)
  have placeHigh : ¬ (dir.child name).Lower := @not_lower_upper _ upper
  have different : workRoot.child wd ≠ dir.child name := fun same =>
    roots_differ upper wd name (congrArg Loc.root same)
  obtain ⟨proper, rfl⟩ := renameExchange_returns exchanged different
  apply staged.place upper proper isDir (exchangePlace_iff separate)
  · apply Frame.exchangePlace staged.frame.kept.apart (not_lower_temp wd)
      placeHigh separate
    rintro loc (underTemp | underPlace)
    · exact .inl underTemp
    · exact .inr (.inl underPlace)
  · simp [exchangePlace, Loc.isUnder_self, Loc.below]
  · intro loc under
    obtain ⟨temp, only⟩ := @temp_of_below wd dir name loc under
    have notTemp : loc.isUnder (workRoot.child wd) = false :=
      separate_of_root (roots_differ upper wd name).symm loc under
    refine ⟨_, ?_, temp, only⟩
    rw [exchangePlace, if_neg (by simp [notTemp]), if_pos under]
    rfl

/-- A name of the place goes before the object is moved there. -/
theorem Staged.unlink
    (staged : Staged (placeScope wd dir name) wd before counter id obj os)
    (upper : dir.root = .layer 0)
    (isDir : os.disk.kindAt dir = some .dir) :
    Staged (placeScope wd dir name) wd before counter id obj
      { os with disk := (os.disk.dropName (dir.child name)).touch dir } := by
  have dropped :
      Frame (placeScope wd dir name) os.disk
        (os.disk.dropName (dir.child name)) :=
    .dropName staged.frame.kept.apart (@not_lower_upper _ upper)
      (.inr (.inl (Loc.isUnder_self _)))
  have stillDir : (os.disk.dropName (dir.child name)).kindAt dir = some .dir :=
    (dropped.kinds dir (dir_not_changed upper)).trans isDir
  have touched :
      Frame (placeScope wd dir name) (os.disk.dropName (dir.child name))
        ((os.disk.dropName (dir.child name)).touch dir) :=
    .touch dropped.kept.apart (not_lower_upper upper) stillDir (.inr rfl)
  have notPlace : workRoot.child wd ≠ dir.child name := fun same =>
    roots_differ upper wd name (congrArg Loc.root same)
  have notDir : dir ≠ workRoot.child wd := by
    rintro rfl
    cases upper
  refine ⟨staged.faults, staged.counted, staged.covers,
    staged.frame.trans (dropped.trans touched), ?_, ?_, ?_⟩
  · exact (staged.owns.dropName_ne notPlace).touch_ne notDir
  · intro loc temp different
    rw [names_touch, names_dropName]
    split
    · rfl
    · exact staged.alone loc temp different
  · rw [kindAt_touch, dropped.kinds workRoot staged.covers.fixed]
    exact staged.work

theorem whName_ne
    (name : Name) :
    name ≠ whName name := by
  intro same
  have lengths := congrArg List.length same
  simp only [whName, whPrefix, List.length_append, List.length_cons] at lengths
  omega

/-- A `.wh.` file beside the copy goes. -/
theorem Installed.unlinkWh
    (installed : Installed wd dir name before counter id obj os)
    (upper : dir.root = .layer 0) :
    Installed wd dir name before counter id obj
      { os with
        disk := (os.disk.dropName (dir.child (whName name))).touch dir } := by
  have dropped :
      Frame (placeScope wd dir name) os.disk
        (os.disk.dropName (dir.child (whName name))) :=
    .dropName installed.frame.kept.apart (@not_lower_upper _ upper)
      (.inr (.inr rfl))
  have fixed := @dir_not_changed wd dir name upper
  have stillDir :
      (os.disk.dropName (dir.child (whName name))).kindAt dir = some .dir :=
    (dropped.kinds dir fixed).trans installed.place
  have touched :
      Frame (placeScope wd dir name)
        (os.disk.dropName (dir.child (whName name)))
        ((os.disk.dropName (dir.child (whName name))).touch dir) :=
    .touch dropped.kept.apart (not_lower_upper upper) stillDir (.inr rfl)
  have different : dir.child name ≠ dir.child (whName name) := by
    intro same
    apply whName_ne name
    simpa [Loc.child] using congrArg Loc.path same
  refine ⟨installed.proper, installed.faults, installed.counted,
    installed.frame.trans (dropped.trans touched), ?_, ?_, ?_, ?_, ?_⟩
  · have owned := installed.owns.dropName_ne different
    exact owned.touch_ne (Loc.child_ne dir name).symm
  · intro loc under notPlace
    rw [names_touch, names_dropName]
    split
    · rfl
    · exact installed.alone loc under notPlace
  · rw [kindAt_touch]
    exact stillDir
  · have workFixed :=
      (@covers_placeScope wd dir name upper).fixed
    rw [kindAt_touch, dropped.kinds workRoot workFixed]
    exact installed.work
  · intro dirId old owned
    have owned := installed.fills dirId old owned
    have owned := owned.dropName_ne (Loc.child_ne dir (whName name)).symm
    have owned := owned.touch_self
    rw [show (os.disk.dropName (dir.child (whName name))).now =
      before.now from installed.frame.kept.now] at owned
    exact owned

/-- What an exchange left under the temporary name goes. -/
theorem Installed.unlinkTemp
    (installed : Installed wd dir name before counter id obj os)
    (upper : dir.root = .layer 0) :
    Installed wd dir name before counter id obj
      { os with
        disk := (os.disk.dropName (workRoot.child wd)).touch workRoot } := by
  have covers := @covers_placeScope wd dir name upper
  have dropped :
      Frame (placeScope wd dir name) os.disk
        (os.disk.dropName (workRoot.child wd)) :=
    .dropName installed.frame.kept.apart (not_lower_temp wd)
      (covers.temp _ (temp_self wd))
  have stillWork :
      (os.disk.dropName (workRoot.child wd)).kindAt workRoot = some .dir :=
    (dropped.kinds workRoot covers.fixed).trans installed.work
  have touched :
      Frame (placeScope wd dir name) (os.disk.dropName (workRoot.child wd))
        ((os.disk.dropName (workRoot.child wd)).touch workRoot) :=
    .touch dropped.kept.apart not_lower_workRoot stillWork covers.work
  have notWork : ∀ loc : Loc, loc.root = .layer 0 → workRoot ≠ loc := by
    rintro loc root rfl
    cases root
  have notTemp :
      ∀ loc : Loc, loc.root = .layer 0 → loc ≠ workRoot.child wd := by
    rintro loc root rfl
    cases root
  refine ⟨installed.proper, installed.faults, installed.counted,
    installed.frame.trans (dropped.trans touched), ?_, ?_, ?_, ?_, ?_⟩
  · have owned := installed.owns.dropName_ne (notTemp (dir.child name) upper)
    exact owned.touch_ne (notWork (dir.child name) upper)
  · intro loc under notPlace
    rw [names_touch, names_dropName]
    split
    · rfl
    · exact installed.alone loc under notPlace
  · rw [kindAt_touch, dropped.kinds dir (dir_not_changed upper)]
    exact installed.place
  · rw [kindAt_touch]
    exact stillWork
  · intro dirId old owned
    have owned := installed.fills dirId old owned
    have owned := owned.dropName_ne (notTemp dir upper)
    exact owned.touch_ne (notWork dir upper)

/-! ## The renames of the program -/

/-- The rename of the staged object. -/
theorem holds_renameTemp
    (upper : dir.root = .layer 0) :
    Act.Holds (Staged (placeScope wd dir name) wd before counter id obj)
      (renameat workRoot wd dir name)
      fun outcome os =>
        (outcome = .ok () →
          Installed wd dir name before counter id obj os) ∧
        ∀ errno, outcome = .error errno →
          Staged (placeScope wd dir name) wd before counter id obj os ∧
            (errno ≠ .EBUSY → errno ≠ .ENOENT →
              os.disk.kindAt dir = some .dir) := by
  intro os staged
  unfold renameat
  rw [change_noFaults staged.faults]
  cases renamed : os.disk.renameat workRoot wd dir name with
  | ok later =>
      refine ⟨fun _ => staged.rename upper renamed, fun errno failed => ?_⟩
      cases failed
  | error errno =>
      refine ⟨fun done => ?_, fun first same => ?_⟩
      · cases done
      · cases same
        exact ⟨staged, renameat_error renamed⟩

/-- What follows a failed step does not return a value. -/
theorem gives_fail_after
    {σ α β : Type}
    {pre : σ → Prop}
    {act : Act Errno σ α}
    {errno : Errno}
    {post : β → σ → Prop} :
    Act.Gives pre (do
      let _ ← act.attempt
      Act.fail errno) post := by
  have tried : Act.Gives pre act.attempt fun _ _ => True :=
    Act.Gives.attempt fun _ _ => trivial
  exact Act.Gives.bind tried fun _ => Act.Gives.fail

theorem gives_installFile
    (upper : dir.root = .layer 0) :
    Act.Gives (Staged (placeScope wd dir name) wd before counter id obj)
      (installFile wd dir name)
      fun _ => Installed wd dir name before counter id obj := by
  refine Act.Gives.bind (Act.Gives.attempt (holds_renameTemp upper)) ?_
  intro outcome
  cases outcome with
  | ok value =>
      exact Act.Gives.pure fun os moved => moved.1 rfl
  | error errno =>
      exact gives_fail_after

/-- A temporary directory that is left over goes, or stays. -/
theorem holds_unlinkTemp
    (upper : dir.root = .layer 0) :
    Act.Holds (Installed wd dir name before counter id obj)
      (unlinkat workRoot wd true)
      fun _ => Installed wd dir name before counter id obj := by
  intro os installed
  unfold unlinkat
  rw [change_noFaults installed.faults]
  cases unlinked : os.disk.unlinkat workRoot wd true with
  | ok later =>
      rw [unlinkat_returns unlinked]
      exact installed.unlinkTemp upper
  | error errno =>
      exact installed

/-- Something at the place goes, or stays. -/
theorem holds_unlinkPlace
    (upper : dir.root = .layer 0) :
    Act.Holds
      (fun os => Staged (placeScope wd dir name) wd before counter id obj os ∧
        os.disk.kindAt dir = some .dir)
      (unlinkat dir name false)
      fun _ => Staged (placeScope wd dir name) wd before counter id obj := by
  intro os given
  obtain ⟨staged, isDir⟩ := given
  unfold unlinkat
  rw [change_noFaults staged.faults]
  cases unlinked : os.disk.unlinkat dir name false with
  | ok later =>
      rw [unlinkat_returns unlinked]
      exact staged.unlink upper isDir
  | error errno =>
      exact staged

/-- The exchange with a directory that is not empty. -/
theorem holds_exchangeTemp
    (upper : dir.root = .layer 0) :
    Act.Holds
      (fun os => Staged (placeScope wd dir name) wd before counter id obj os ∧
        os.disk.kindAt dir = some .dir)
      (renameat2 env workRoot wd dir name 2)
      fun outcome os => outcome = .ok () →
        Installed wd dir name before counter id obj os := by
  intro os given done
  obtain ⟨staged, isDir⟩ := given
  unfold renameat2 at done ⊢
  rw [if_neg (by decide), Act.pure_bind] at done ⊢
  simp only [change_noFaults staged.faults] at done ⊢
  simp only [show ¬ (2 : UInt32) = 0 by decide,
    show ¬ (2 : UInt32) = 1 by decide, ↓reduceIte] at done ⊢
  cases exchanged : os.disk.renameExchange workRoot wd dir name with
  | ok later =>
      exact staged.exchange upper isDir exchanged
  | error errno =>
      rw [exchanged] at done
      cases done

theorem gives_installDir
    (upper : dir.root = .layer 0) :
    Act.Gives (Staged (placeScope wd dir name) wd before counter id obj)
      (installDir env wd dir name)
      fun _ => Installed wd dir name before counter id obj := by
  refine Act.Gives.bind (Act.Gives.attempt (holds_renameTemp upper)) ?_
  intro outcome
  cases outcome with
  | ok value =>
      exact Act.Gives.pure fun os moved => moved.1 rfl
  | error errno =>
      have inPlace :
          errno ≠ .EBUSY → errno ≠ .ENOENT → ∀ os,
            (((Except.error errno : Except Errno Unit) = .ok () →
                Installed wd dir name before counter id obj os) ∧
              ∀ first, (Except.error errno : Except Errno Unit) =
                  .error first →
                Staged (placeScope wd dir name) wd before counter id obj os ∧
                  (first ≠ .EBUSY → first ≠ .ENOENT →
                    os.disk.kindAt dir = some .dir)) →
            Staged (placeScope wd dir name) wd before counter id obj os ∧
              os.disk.kindAt dir = some .dir := by
        intro notBusy notMissing os moved
        obtain ⟨staged, isDir⟩ := moved.2 errno rfl
        exact ⟨staged, isDir notBusy notMissing⟩
      cases errno with
      | EEXIST | ENOTEMPTY =>
          refine Act.Gives.imp ?_ (inPlace (by decide) (by decide))
            fun _ _ installed => installed
          refine Act.Gives.bind
            (Act.Gives.attempt (holds_exchangeTemp upper)) ?_
          intro exchanged
          cases exchanged with
          | ok value =>
              refine Act.Gives.imp (Act.Gives.bind
                (Act.Gives.attempt (holds_unlinkTemp upper))
                fun _ => Act.Gives.pure fun os installed => installed)
                (fun os moved => moved rfl) fun _ _ installed => installed
          | error errno =>
              exact gives_fail_after
      | ENOTDIR =>
          refine Act.Gives.imp ?_ (inPlace (by decide) (by decide))
            fun _ _ installed => installed
          refine Act.Gives.bind
            (Act.Gives.attempt (holds_unlinkPlace upper)) ?_
          intro unlinked
          refine Act.Gives.bind
            (Act.Gives.attempt (holds_renameTemp upper)) ?_
          intro again
          cases again with
          | ok value =>
              exact Act.Gives.pure fun os moved => moved.1 rfl
          | error errno =>
              exact gives_fail_after
      | _ =>
          exact gives_fail_after

end

end Syscall

end FuseOverlay
