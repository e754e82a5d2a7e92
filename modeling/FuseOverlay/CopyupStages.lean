import FuseOverlay.DiskChanges
import FuseOverlay.Copyup
import FuseOverlay.SyscallSteps

namespace FuseOverlay

/-!
# Staging a copy

Copy-up makes a new object under a temporary name of the work directory, gives
it the attributes of the source and moves it to its place.  Until the move
nothing outside the work directory changes, so a stage is described by the
object under the temporary name and the frame around it.
-/

/-! ## Temporary names -/

namespace Syscall

theorem digit_bounds
    {counter : Nat}
    {digit : Char}
    (among : digit ∈ Nat.toDigits 10 counter) :
    48 ≤ digit.toNat ∧ digit.toNat ≤ 57 := by
  have isDigit := Nat.isDigit_of_mem_toDigits (by decide) (by decide) among
  simp only [Char.isDigit, Bool.and_eq_true, decide_eq_true_eq] at isDigit
  exact isDigit

/-- A digit is read back from its byte. -/
theorem ofNat_toUInt8
    {counter : Nat}
    {digit : Char}
    (among : digit ∈ Nat.toDigits 10 counter) :
    Char.ofNat digit.val.toUInt8.toNat = digit := by
  have bounds := digit_bounds among
  have byte : digit.val.toUInt8.toNat = digit.toNat := by
    rw [UInt32.toNat_toUInt8]
    exact Nat.mod_eq_of_lt (by change digit.toNat < 256; omega)
  rw [byte, Char.ofNat_toNat]

theorem wdName_injective :
    Function.Injective wdName := by
  have readBack :
      ∀ counter, (wdName counter).map (fun byte => Char.ofNat byte.toNat) =
        Nat.toDigits 10 counter := by
    intro counter
    have each :
        (Nat.toDigits 10 counter).map
            ((fun byte => Char.ofNat byte.toNat) ∘
              fun digit => digit.val.toUInt8) =
          (Nat.toDigits 10 counter).map id :=
      List.map_congr_left fun digit among => ofNat_toUInt8 among
    unfold wdName
    rw [List.map_map, each, List.map_id]
  intro first second same
  calc
    first = Nat.ofDigitChars 10 (Nat.toDigits 10 first) 0 :=
      Nat.ofDigitChars_ten_toDigits.symm
    _ = Nat.ofDigitChars 10 (Nat.toDigits 10 second) 0 := by
      rw [← readBack first, same, readBack]
    _ = second := Nat.ofDigitChars_ten_toDigits

theorem isSpecial_wdName
    (counter : Nat) :
    Disk.isSpecial (wdName counter) = false := by
  have noDot : ∀ byte ∈ wdName counter, byte ≠ 46 := by
    intro byte among
    obtain ⟨digit, isDigit, rfl⟩ := List.mem_map.mp among
    intro isDot
    have bounds := digit_bounds isDigit
    have back := ofNat_toUInt8 isDigit
    rw [isDot] at back
    rw [← back] at bounds
    revert bounds
    decide
  have notEmpty : wdName counter ≠ [] := by
    unfold wdName
    simp [Nat.toDigits_ne_nil]
  unfold Disk.isSpecial
  simp only [Bool.or_eq_false_iff, decide_eq_false_iff_not]
  refine ⟨⟨fun isDot => ?_, fun isDotDot => ?_⟩, notEmpty⟩
  · exact noDot 46 (by rw [isDot]; decide) rfl
  · exact noDot 46 (by rw [isDotDot]; decide) rfl

/-! ## The stage -/

open Disk

/-- No faults are left, and the trees and the counter are the given ones. -/
structure Ready
    (disk : Disk)
    (counter : Nat)
    (os : Os) : Prop where
  faults : os.faults = []
  disk : os.disk = disk
  counted : os.wdCounter = counter

/-- The locations at or below a temporary name. -/
def Temp
    (wd : Name)
    (loc : Loc) : Prop :=
  loc.isUnder (workRoot.child wd) = true

/-- The scope allows changes at a temporary name. -/
structure Covers
    (scope : Scope)
    (wd : Name) : Prop where
  temp : ∀ loc, Temp wd loc → scope.changed loc
  work : scope.touched workRoot
  fixed : ¬ scope.changed workRoot

/-- The changes so far lie in the scope, and a new object of its own is under
a temporary name. -/
structure Staged
    (scope : Scope)
    (wd : Name)
    (before : Disk)
    (counter : Nat)
    (id : ObjId)
    (obj : Obj)
    (os : Os) : Prop where
  faults : os.faults = []
  counted : os.wdCounter = counter
  covers : Covers scope wd
  frame : Frame scope before os.disk
  owns : os.disk.Owns (workRoot.child wd) id obj
  alone :
    ∀ loc, Temp wd loc → loc ≠ workRoot.child wd →
      os.disk.names.get? loc = none
  work : os.disk.kindAt workRoot = some .dir

theorem not_lower_workRoot :
    ¬ workRoot.Lower :=
  fun low => low.2 rfl

theorem not_lower_temp
    (wd : Name) :
    ¬ (workRoot.child wd).Lower :=
  fun low => low.2 rfl

theorem temp_self
    (wd : Name) :
    Temp wd (workRoot.child wd) :=
  Loc.isUnder_self _

theorem not_temp_workRoot
    (wd : Name) :
    ¬ Temp wd workRoot := by
  simp [Temp, Loc.isUnder, workRoot, Loc.child]

theorem not_temp_of_root
    {loc : Loc}
    (different : loc.root ≠ .workdir)
    (wd : Name) :
    ¬ Temp wd loc :=
  fun under => different (Loc.isUnder_iff.mp under).1

section

variable {env : Env} {scope : Scope} {wd : Name} {before : Disk} {counter : Nat}
  {id : ObjId} {obj : Obj} {os : Os}

/-- A new object under an unused temporary name. -/
theorem Staged.create
    (covers : Covers scope wd)
    (apart : before.DirsApart)
    (vacant : ∀ loc, Temp wd loc → before.names.get? loc = none)
    {later : Disk}
    (created : before.create workRoot wd obj = .ok (id, later))
    (faults : os.faults = [])
    (counted : os.wdCounter = counter)
    (disk : os.disk = later) :
    Staged scope wd before counter id obj os := by
  obtain ⟨isDir, -, -, rfl, rfl⟩ := create_returns created
  have added :
      Frame scope before
        (before.addObj (workRoot.child wd) obj) :=
    .addObj apart (not_lower_temp wd) (covers.temp _ (temp_self wd)) obj
  have stillDir :
      (before.addObj (workRoot.child wd) obj).kindAt workRoot = some .dir :=
    (added.kinds workRoot covers.fixed).trans isDir
  have owned := Owns.addObj_self before (workRoot.child wd) obj
  refine ⟨faults, counted, covers, ?_, ?_, ?_, ?_⟩
  · rw [disk]
    exact added.trans
      (.touch added.kept.apart not_lower_workRoot stillDir covers.work)
  · rw [disk]
    exact owned.touch_ne (Loc.child_ne workRoot wd).symm
  · intro loc under different
    rw [disk, names_touch, names_addObj, if_neg different]
    exact vacant loc under
  · rw [disk, kindAt_touch]
    exact stillDir

/-- The object under the temporary name changes. -/
theorem Staged.modify
    (staged : Staged scope wd before counter id obj os)
    (change : Obj → Obj) :
    Staged scope wd before counter id (change obj)
      { os with disk := os.disk.modifyObj id change } := by
  have changed :
      Frame scope os.disk
        (os.disk.modifyObj id change) :=
    .modify staged.frame.kept.apart staged.owns (not_lower_temp wd)
      (staged.covers.temp _ (temp_self wd)) change
  refine ⟨staged.faults, staged.counted, staged.covers,
    staged.frame.trans changed, staged.owns.modify change, staged.alone, ?_⟩
  exact (changed.kinds workRoot staged.covers.fixed).trans staged.work

theorem Staged.now
    (staged : Staged scope wd before counter id obj os) :
    os.disk.now = before.now :=
  staged.frame.kept.now

/-- Only the supply of inode numbers moves on. -/
theorem Staged.withInos
    (staged : Staged scope wd before counter id obj os)
    (inos : List UInt64) :
    Staged scope wd before counter id obj { os with inos := inos } :=
  ⟨staged.faults, staged.counted, staged.covers, staged.frame, staged.owns,
    staged.alone, staged.work⟩

/-- A new object of any shape is staged. -/
theorem gives_create
    (covers : Covers scope wd)
    (apart : before.DirsApart)
    (vacant : ∀ loc, Temp wd loc → before.names.get? loc = none)
    (make : Disk → UInt64 → Obj) :
    Act.Gives (Ready before counter)
      (do
        let ino ← nextStIno
        call fun disk => disk.create workRoot wd (make disk ino))
      fun id os => ∃ ino, Staged scope wd before counter id (make before ino) os := by
  intro os id later ready returned
  obtain ⟨ino, inos, supplied⟩ := nextStIno_returns os
  rw [Act.bind_ok supplied,
    @call_noFaults _ _ { os with inos := inos } ready.faults] at returned
  simp only [ready.disk] at returned
  split at returned
  · next value disk created =>
      cases returned
      exact ⟨ino, .create covers apart vacant created ready.faults
        ready.counted rfl⟩
  · cases returned

theorem gives_makeObj
    (covers : Covers scope wd)
    (apart : before.DirsApart)
    (vacant : ∀ loc, Temp wd loc → before.names.get? loc = none)
    (kind : FileKind)
    (perm : UInt32)
    (rdev : UInt64)
    (data : List UInt8) :
    Act.Gives (Ready before counter)
      (makeObj env workRoot wd kind perm rdev data)
      fun id os => ∃ ino, Staged scope wd before counter id
        (freshObj env before kind perm rdev data ino) os :=
  gives_create covers apart vacant fun disk ino =>
    freshObj env disk kind perm rdev data ino

theorem locate_temp
    (disk : Disk)
    (proper : isSpecial wd = false) :
    disk.locate workRoot [wd] = .ok (workRoot.child wd) := by
  unfold locate
  simp only [List.getLast?_singleton, List.dropLast_singleton]
  change Except.ok (workRoot.entry wd) = _
  rw [entry_of_ne (ne_dotName proper)]

/-- A temporary name that is no link is reached in either way. -/
theorem locateFollow_temp
    {disk : Disk}
    (proper : isSpecial wd = false)
    (noLink : disk.kindAt (workRoot.child wd) ≠ some .lnk) :
    disk.locateFollow workRoot linkLimit [] [wd] =
      .ok (workRoot.child wd) :=
  locateFollow_name proper noLink

/-- The staged object is opened. -/
theorem gives_openTemp
    (proper : isSpecial wd = false)
    {flags : OpenFlags}
    (plain : PlainFlags flags)
    (perm : UInt32)
    (noLink : obj.kind ≠ .lnk) :
    Act.Gives (Staged scope wd before counter id obj)
      (safeOpenat env workRoot [wd] flags perm)
      fun fd os => fd.obj = id ∧ fd.pathOnly = false ∧
        Staged scope wd before counter id obj os := by
  intro os fd later staged returned
  unfold safeOpenat at returned
  obtain ⟨ino, inos, supplied⟩ := nextStIno_returns os
  rw [Act.bind_ok supplied,
    @call_noFaults _ _ { os with inos := inos } staged.faults] at returned
  have target :
      (if flags.noFollow then os.disk.locate workRoot [wd]
        else os.disk.locateFollow workRoot linkLimit workRoot.path [wd]) =
        .ok (workRoot.child wd) := by
    split
    · exact locate_temp os.disk proper
    · apply locateFollow_temp proper
      rw [staged.owns.kindAt]
      exact fun isLink => noLink (Option.some.inj isLink)
  simp only [target, staged.owns.name, staged.owns.stored, plain.creat,
    Bool.false_and, Bool.false_eq_true, ↓reduceIte] at returned
  split at returned
  · next value disk opened =>
      cases returned
      obtain ⟨isObj, notPath, rfl⟩ := openObj_plain plain opened
      exact ⟨isObj, notPath, staged.withInos inos⟩
  · cases returned

/-! ## Attributes of the staged object -/

/-- A change through a descriptor of the staged object. -/
theorem holds_changeFd
    {fd : Fd}
    (isObj : fd.obj = id)
    (notPath : fd.pathOnly = false)
    (update : Disk → Obj → Obj) :
    Act.Holds (Staged scope wd before counter id obj) (changeFd fd update)
      fun outcome os => outcome = .ok () ∧
        ∃ disk, disk.now = before.now ∧
          Staged scope wd before counter id (update disk obj) os := by
  intro os staged
  unfold changeFd
  rw [change_noFaults staged.faults]
  simp only [notPath, Bool.false_eq_true, ↓reduceIte, isObj]
  exact ⟨trivial, os.disk, staged.now, staged.modify (update os.disk)⟩

theorem holds_changeContent
    {fd : Fd}
    (isObj : fd.obj = id)
    (notPath : fd.pathOnly = false)
    (writes : fd.write = true)
    (failure : Errno)
    (update : Disk → Obj → Obj) :
    Act.Holds (Staged scope wd before counter id obj)
      (changeContent fd failure update)
      fun outcome os => outcome = .ok () ∧
        ∃ disk, disk.now = before.now ∧
          Staged scope wd before counter id (update disk obj) os := by
  intro os staged
  unfold changeContent
  rw [change_noFaults staged.faults]
  simp only [notPath, writes, Bool.not_false, Bool.and_self, ↓reduceIte, isObj]
  exact ⟨trivial, os.disk, staged.now, staged.modify (update os.disk)⟩

/-- A change through the temporary name. -/
theorem holds_changeTemp
    (proper : isSpecial wd = false)
    (update : Disk → Obj → Obj) :
    Act.Holds (Staged scope wd before counter id obj)
      (changeNamed workRoot wd update)
      fun outcome os => outcome = .ok () ∧
        ∃ disk, disk.now = before.now ∧
          Staged scope wd before counter id (update disk obj) os := by
  intro os staged
  unfold changeNamed
  rw [change_noFaults staged.faults, entry_of_ne (ne_dotName proper)]
  simp only [staged.owns.name]
  exact ⟨trivial, os.disk, staged.now, staged.modify (update os.disk)⟩

/-- The descriptor is of an object that a lower layer names. -/
def Source
    (before : Disk)
    (fd : Fd)
    (src : Obj) : Prop :=
  ∃ low, Loc.Lower low ∧ before.names.get? low = some fd.obj ∧
    before.find? low = some src

/-- The source stays as it is. -/
theorem Source.stored
    {fd : Fd}
    {src : Obj}
    {after : Disk}
    (source : Source before fd src)
    (kept : Kept before after) :
    after.objs.get? fd.obj = some src := by
  obtain ⟨low, isLow, named, found⟩ := source
  rw [← kept.names low isLow] at named
  rw [← kept.finds low isLow] at found
  obtain ⟨found', stored, same⟩ := find?_isSome named
  rw [stored, ← same, found]

/-- The host lets all attributes of the source be read and set. -/
structure Transfers
    (env : Env)
    (src : Obj)
    (kind : FileKind) : Prop where
  supported : env.host.xattrs = true
  trusted :
    ∀ attr value, src.xattrs.get? attr = some value →
      Xattr.isTrusted attr = true → env.host.trustedXattrs = true
  fits :
    ∀ attr value, src.xattrs.get? attr = some value → value.length ≤ 65536
  acl : kind ≠ .dir → src.xattrs.get? Xattr.posixAclDefault = none

/-- The value of one attribute is set when there is one. -/
def setFrom
    (source acc : FMap Name (List UInt8))
    (attr : Name) :
    FMap Name (List UInt8) :=
  match source.get? attr with
  | some value => acc.set attr value
  | none => acc

/-- Whether copy-up takes an attribute along. -/
def keepsXattr (attr : Name) : Bool :=
  attr ≠ [] && Override.isUtf8 attr && !isInternalXattr attr

/-- The attributes of a copy. -/
def copiedXattrs
    (source : FMap Name (List UInt8)) :
    FMap Name (List UInt8) :=
  ((source.toList.map (·.1)).filter keepsXattr).foldl (setFrom source) ∅

variable {source dest : Fd} {src : Obj}

/-- The source answers with its value. -/
theorem fgetxattr_source
    (noFaults : os.faults = [])
    (stored : os.disk.objs.get? source.obj = some src)
    {kind : FileKind}
    (transfers : Transfers env src kind)
    (attr : Name) :
    fgetxattr env source attr 65536 os =
      (match src.xattrs.get? attr with
        | none => .error .ENODATA
        | some value => .ok value, os) := by
  unfold fgetxattr
  rw [query_noFaults noFaults]
  cases found : src.xattrs.get? attr with
  | none =>
      unfold readableXattr
      simp only [transfers.supported, Bool.not_true, Bool.false_eq_true,
        ↓reduceIte]
      split
      · rfl
      · simp [xattrOf, stored, found, bind, Except.bind]
  | some value =>
      have permitted : readableXattr env attr = .ok () := by
        unfold readableXattr
        cases isTrusted : Xattr.isTrusted attr with
        | false =>
            simp [transfers.supported]
        | true =>
            simp [transfers.supported,
              transfers.trusted attr value found isTrusted]
      simp [permitted, xattrOf, stored, found, bind, Except.bind, fitting,
        transfers.fits attr value found]

/-- The copy takes the value. -/
theorem fsetxattr_staged
    (staged : Staged scope wd before counter id obj os)
    (isObj : dest.obj = id)
    (transfers : Transfers env src obj.kind)
    {attr : Name}
    {value : List UInt8}
    (found : src.xattrs.get? attr = some value) :
    fsetxattr env dest attr value os =
      (.ok (), { os with
        disk := os.disk.modifyObj id fun old =>
          { old with xattrs := old.xattrs.set attr value } }) := by
  have permitted : writableXattr env attr = .ok () := by
    unfold writableXattr
    cases isTrusted : Xattr.isTrusted attr with
    | false =>
        simp [transfers.supported]
    | true =>
        simp [transfers.supported,
          transfers.trusted attr value found isTrusted]
  have allowed :
      ¬ (decide (attr = Xattr.posixAclDefault) && decide (obj.kind ≠ .dir)) =
        true := by
    intro refused
    simp only [Bool.and_eq_true, decide_eq_true_eq] at refused
    rw [refused.1, transfers.acl refused.2] at found
    cases found
  unfold fsetxattr
  rw [change_noFaults staged.faults]
  simp only [permitted, bind, Except.bind, isObj, staged.owns.stored]
  rw [if_neg allowed]

theorem holds_copyOneXattr
    (reads : Source before source src)
    (isObj : dest.obj = id)
    (transfers : Transfers env src obj.kind)
    (attr : Name) :
    Act.Holds (Staged scope wd before counter id obj)
      (copyOneXattr env source dest attr)
      fun outcome os => outcome = .ok () ∧
        Staged scope wd before counter id
          { obj with xattrs := setFrom src.xattrs obj.xattrs attr } os := by
  intro os staged
  have stored := reads.stored staged.frame.kept
  have read := fgetxattr_source staged.faults stored transfers attr
  unfold copyOneXattr setFrom
  rw [Act.bind_ok
    (show (fgetxattr env source attr 65536).attempt os = (.ok _, os) by
      rw [Act.attempt_apply, read])]
  cases found : src.xattrs.get? attr with
  | none =>
      exact ⟨rfl, staged⟩
  | some value =>
      have set := fsetxattr_staged staged isObj transfers found
      simp only
      rw [Act.bind_ok (show (fsetxattr env dest attr value).attempt os =
        (.ok (.ok ()), _) by rw [Act.attempt_apply, set])]
      exact ⟨rfl, staged.modify fun old =>
        { old with xattrs := old.xattrs.set attr value }⟩

/-- All attributes in turn. -/
theorem holds_copyXattrs
    (reads : Source before source src)
    (isObj : dest.obj = id)
    (attrs : List Name)
    (transfers : Transfers env src obj.kind) :
    Act.Holds (Staged scope wd before counter id obj)
      (Act.each (copyOneXattr env source dest) attrs)
      fun outcome os => outcome = .ok () ∧
        Staged scope wd before counter id
          { obj with
            xattrs := attrs.foldl (setFrom src.xattrs) obj.xattrs } os := by
  induction attrs generalizing obj with
  | nil =>
      exact fun os staged => ⟨rfl, staged⟩
  | cons attr rest inductionHypothesis =>
      refine Act.Holds.bind
        (holds_copyOneXattr reads isObj transfers attr) ?_ ?_
      · intro value os copied
        exact @inductionHypothesis
          { obj with xattrs := setFrom src.xattrs obj.xattrs attr }
          transfers os copied.2
      · intro errno os failed
        cases failed.1

theorem holds_copyXattr
    (reads : Source before source src)
    (isObj : dest.obj = id)
    (transfers : Transfers env src obj.kind)
    (bare : obj.xattrs = ∅) :
    Act.Holds (Staged scope wd before counter id obj) (copyXattr env source dest)
      fun outcome os => outcome = .ok () ∧
        Staged scope wd before counter id
          { obj with xattrs := copiedXattrs src.xattrs } os := by
  intro os staged
  have stored := reads.stored staged.frame.kept
  have listed :
      flistxattr env source os =
        (.ok (src.xattrs.toList.map (·.1)), os) := by
    unfold flistxattr
    rw [query_noFaults staged.faults]
    simp [transfers.supported, stored]
  unfold copyXattr
  rw [Act.bind_ok (show (flistxattr env source).attempt os = (.ok _, os) by
    rw [Act.attempt_apply, listed])]
  have copied := holds_copyXattrs reads isObj
    ((src.xattrs.toList.map (·.1)).filter keepsXattr) transfers os staged
  rw [bare] at copied
  exact copied

end

end Syscall

end FuseOverlay
