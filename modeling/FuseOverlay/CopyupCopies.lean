import FuseOverlay.CopyupObjects

namespace FuseOverlay

/-!
# Copies at their place

The four ways of copy-up from the source to the installed copy, when no system
call fails by itself.  A copy is described by the fields it takes from the
source; extended attributes come along when the host lets them be read and set.
-/

namespace Syscall

open Disk

section

variable {env : Env} {before : Disk} {counter layerIdx : Nat} {path : Path}
  {src : Obj} {st : Stat} {scope : Scope} {wd : Name} {id : ObjId} {obj : Obj}

/-- Nothing is under the temporary name. -/
def Vacant
    (disk : Disk)
    (wd : Name) : Prop :=
  ∀ loc, Temp wd loc → disk.names.get? loc = none

/-! ## Taking a name and opening -/

theorem gives_nextWdName :
    Act.Gives (Ready before counter) nextWdName
      fun wd os => wd = wdName counter ∧ Ready before (counter + 1) os := by
  intro os wd later ready returned
  cases returned
  obtain ⟨faults, disk, rfl⟩ := ready
  exact ⟨rfl, faults, disk, rfl⟩

/-- The source is opened and nothing changes. -/
theorem gives_openSource
    (apart : before.DirsApart)
    (isLow : layerIdx ≠ 0)
    {flags : OpenFlags}
    (plain : PlainFlags flags)
    {loc : Loc}
    (leads : LeadsTo before layerIdx path flags.noFollow loc src)
    (perm : UInt32) :
    Act.Gives (Ready before counter)
      (safeOpenat env ⟨.layer layerIdx, []⟩ path flags perm)
      fun fd os => Source before fd src ∧ Ready before counter os := by
  intro os fd later ready returned
  have kept : Kept before os.disk := by
    rw [ready.disk]
    exact .refl apart
  obtain ⟨other, found, inos, leadsToo, source, rfl⟩ :=
    openSource_returns ready.faults kept isLow plain returned
  have same : loc = other := Except.ok.inj (leads.1.symm.trans leadsToo.1)
  subst same
  have same : src = found := Option.some.inj (leads.2.symm.trans leadsToo.2)
  subst same
  exact ⟨source, ready.faults, ready.disk, ready.counted⟩

/-- The temporary file of a regular copy. -/
theorem gives_creatTemp
    (covers : Covers scope wd)
    (apart : before.DirsApart)
    (vacant : Vacant before wd)
    (proper : isSpecial wd = false)
    (perm : UInt32) :
    Act.Gives (Ready before counter)
      (safeOpenat env workRoot [wd] Whiteout.creatWronly perm)
      fun fd os => ∃ ino, fd.pathOnly = false ∧ fd.write = true ∧
        Staged scope wd before counter fd.obj
          (freshObj env before .reg (perm &&& 0o7777) 0 [] ino) os := by
  intro os fd later ready returned
  have none : before.names.get? (workRoot.child wd) = none :=
    vacant _ (temp_self wd)
  have target :
      before.locateFollow workRoot linkLimit workRoot.path [wd] =
        .ok (workRoot.child wd) := by
    apply locateFollow_temp proper
    unfold kindAt find?
    rw [none]
    exact nofun
  unfold safeOpenat at returned
  obtain ⟨ino, inos, supplied⟩ := nextStIno_returns os
  rw [Act.bind_ok supplied,
    @call_noFaults _ _ { os with inos := inos } ready.faults] at returned
  simp only [ready.disk, show Whiteout.creatWronly.noFollow = false from rfl,
    Bool.false_eq_true, ↓reduceIte, target, none,
    show Whiteout.creatWronly.creat = true from rfl,
    show (workRoot.child wd).path.getLast? = some wd from rfl] at returned
  cases created :
      before.create workRoot wd
        (freshObj env before .reg (perm &&& 0o7777) 0 [] ino) with
  | error errno =>
      have here : (⟨(workRoot.child wd).root,
          (workRoot.child wd).path.dropLast⟩ : Loc) = workRoot := rfl
      rw [here, created] at returned
      cases returned
  | ok made =>
      have here : (⟨(workRoot.child wd).root,
          (workRoot.child wd).path.dropLast⟩ : Loc) = workRoot := rfl
      rw [here, created] at returned
      cases returned
      exact ⟨ino, rfl, rfl,
        .create covers apart vacant created ready.faults ready.counted rfl⟩

/-! ## Attributes -/

/-- The owner of the staged object is set. -/
theorem gives_fchownCopy
    {fd : Fd}
    (isObj : fd.obj = id)
    (notPath : fd.pathOnly = false)
    (uid gid : UInt32) :
    Act.Gives (Staged scope wd before counter id obj)
      (fchown fd uid gid).attempt
      fun _ => Staged scope wd before counter id (chownObj uid gid obj) := by
  refine (Act.Gives.attempt (holds_changeFd isObj notPath _)).imp
    (fun _ staged => staged) ?_
  rintro outcome os ⟨-, disk, -, staged⟩
  exact staged

/-- The times of the staged object are set. -/
theorem gives_setStatTimes
    {fd : Fd}
    (isObj : fd.obj = id)
    (notPath : fd.pathOnly = false)
    (shows : st.Shows src) :
    Act.Gives (Staged scope wd before counter id obj)
      (setStatTimes fd st).attempt
      fun _ => Staged scope wd before counter id
        { obj with atime := src.atime, mtime := src.mtime } := by
  refine (Act.Gives.attempt (holds_changeFd isObj notPath _)).imp
    (fun _ staged => staged) ?_
  rintro outcome os ⟨-, disk, -, staged⟩
  rw [← shows.atime, ← shows.mtime]
  exact staged

theorem gives_fchmodCopy
    {fd : Fd}
    (isObj : fd.obj = id)
    (notPath : fd.pathOnly = false)
    (perm : UInt32) :
    Act.Gives (Staged scope wd before counter id obj)
      (fchmod fd perm).attempt
      fun _ => Staged scope wd before counter id
        { obj with perm := perm &&& 0o7777 } := by
  refine (Act.Gives.attempt (holds_changeFd isObj notPath _)).imp
    (fun _ staged => staged) ?_
  rintro outcome os ⟨-, disk, -, staged⟩
  exact staged

/-- The content is cloned. -/
theorem gives_copyData
    {source dest : Fd}
    (reads : Source before source src)
    (isObj : dest.obj = id)
    (notPath : dest.pathOnly = false)
    (writes : dest.write = true)
    (size : Nat) :
    Act.Gives (Staged scope wd before counter id obj)
      (copyData source dest size)
      fun _ => Staged scope wd before counter id
        { obj with data := src.data, mtime := before.now } := by
  intro os value later staged returned
  have stored := reads.stored staged.frame.kept
  have read : (fdObj source).attempt os = (.ok (.ok src), os) := by
    unfold fdObj
    rw [Act.attempt_apply, query_noFaults staged.faults, stored]
  unfold copyData at returned
  rw [Act.bind_ok read] at returned
  simp only at returned
  have cloned :=
    @holds_changeContent scope wd before counter id obj dest isObj notPath
      writes .EBADF (fun disk old =>
        { old with data := src.data, mtime := disk.now }) os staged
  rcases ran : changeContent dest .EBADF (fun disk old =>
      { old with data := src.data, mtime := disk.now }) os with
    ⟨outcome, middle⟩
  rw [ran] at cloned
  obtain ⟨rfl, disk, now, copied⟩ := cloned
  rw [Act.bind_ok (show (changeContent dest .EBADF (fun disk old =>
      { old with data := src.data, mtime := disk.now })).attempt os =
    (.ok (.ok ()), middle) by rw [Act.attempt_apply, ran])] at returned
  cases returned
  rw [← now]
  exact copied

/-! ## Extended attributes -/

/-- Some attributes are set on the staged object. -/
def Marked
    (scope : Scope)
    (wd : Name)
    (before : Disk)
    (counter : Nat)
    (id : ObjId)
    (obj : Obj)
    (os : Os) : Prop :=
  ∃ xattrs, Staged scope wd before counter id { obj with xattrs := xattrs } os

variable {source dest : Fd}

theorem keeps_query_marked
    {α : Type}
    (read : Disk → Except Errno α) :
    Act.Keeps (Marked scope wd before counter id obj) (query read) := by
  intro os marked
  obtain ⟨xattrs, staged⟩ := marked
  rw [query_noFaults staged.faults]
  exact ⟨xattrs, staged⟩

theorem keeps_fsetxattr
    (isObj : dest.obj = id)
    (attr : Name)
    (value : List UInt8) :
    Act.Keeps (Marked scope wd before counter id obj)
      (fsetxattr env dest attr value) := by
  intro os marked
  obtain ⟨xattrs, staged⟩ := marked
  unfold fsetxattr
  rw [change_noFaults staged.faults]
  cases permitted : writableXattr env attr with
  | error errno =>
      exact ⟨xattrs, staged⟩
  | ok _ =>
      simp only [bind, Except.bind, isObj, staged.owns.stored]
      split
      · next disk ran =>
          split at ran
          · cases ran
          · cases ran
            exact ⟨xattrs.set attr value, staged.modify fun old =>
              { old with xattrs := old.xattrs.set attr value }⟩
      · exact ⟨xattrs, staged⟩

theorem keeps_copyOneXattr
    (isObj : dest.obj = id)
    (attr : Name) :
    Act.Keeps (Marked scope wd before counter id obj)
      (copyOneXattr env source dest attr) := by
  refine Act.Keeps.bind (keeps_query_marked _).attempt fun read => ?_
  split
  · exact .pure ()
  · exact .fail _
  · next value =>
      refine Act.Keeps.bind (keeps_fsetxattr isObj attr value).attempt ?_
      intro set
      split
      · exact .pure ()
      · exact .pure ()
      · exact .pure ()
      · exact .fail _

theorem keeps_copyXattr
    (isObj : dest.obj = id) :
    Act.Keeps (Marked scope wd before counter id obj)
      (copyXattr env source dest) := by
  refine Act.Keeps.bind (keeps_query_marked _).attempt fun listed => ?_
  split
  · exact .pure ()
  · exact .pure ()
  · exact .fail _
  · exact .each (keeps_copyOneXattr isObj) _

/-- The attributes of the copy, which are those of the source when the host
lets them all be read and set. -/
theorem gives_copyXattr
    (reads : Source before source src)
    (isObj : dest.obj = id)
    (bare : obj.xattrs = ∅) :
    Act.Gives (Staged scope wd before counter id obj)
      (copyXattr env source dest).attempt
      fun _ os => ∃ xattrs,
        (Transfers env src obj.kind → xattrs = copiedXattrs src.xattrs) ∧
          Staged scope wd before counter id
            { obj with xattrs := xattrs } os := by
  intro os outcome later staged returned
  cases returned
  by_cases transfers : Transfers env src obj.kind
  · have copied := holds_copyXattr reads isObj transfers bare os staged
    exact ⟨_, fun _ => rfl, copied.2⟩
  · have marked : Marked scope wd before counter id obj os :=
      ⟨obj.xattrs, staged⟩
    obtain ⟨xattrs, marked⟩ := keeps_copyXattr isObj os marked
    exact ⟨xattrs, fun given => absurd given transfers, marked⟩

/-! ## The place -/

/-- The directory of the upper layer that a path leads into. -/
def parentAt (path : Path) : Loc :=
  ⟨.layer 0, path.dropLast⟩

/-- The name at the end of a path, as `safe_parent` has it. -/
def lastName (path : Path) : Name :=
  path.getLast?.getD dotName

theorem child_parentAt
    (proper : isSpecial (lastName path) = false) :
    (parentAt path).child (lastName path) = ⟨.layer 0, path⟩ := by
  unfold parentAt lastName Loc.child at *
  cases ends : path.getLast? with
  | none =>
      rw [ends] at proper
      exact absurd rfl (ne_dotName proper)
  | some name =>
      simp only [Option.getD_some]
      rw [List.dropLast_append_getLast? name ends]

/-- The way to a path of the upper layer goes through directories. -/
def Reached
    (disk : Disk)
    (path : Path) : Prop :=
  ∀ parents name, (parents ++ [name]) <+: path.dropLast →
    disk.kindAt ⟨.layer 0, parents ++ [name]⟩ = some .dir

/-- The place of the copy, where no directory on the way is a link. -/
theorem gives_safeParent
    (straight : before.Straight (.layer 0) path.dropLast)
    (proper : Proper path.dropLast) :
    Act.Gives (Staged (tempScope wd) wd before counter id obj)
      (safeParent upperRoot path)
      fun place os => place = (parentAt path, lastName path) ∧
        Reached before path ∧
        Staged (placeScope wd (parentAt path) (lastName path)) wd before
          counter id obj os := by
  intro os place later staged returned
  have same :
      ∀ names, os.disk.kindAt ⟨.layer 0, names⟩ =
        before.kindAt ⟨.layer 0, names⟩ :=
    fun names => staged.frame.kinds _ (not_temp_of_root (by simp) wd)
  have still : os.disk.Straight (.layer 0) path.dropLast := by
    intro first last isPrefix kind found
    rw [same] at found
    exact straight first last isPrefix kind found
  have top : path.dropLast = [] → Reached before path := by
    intro empty parents name isPrefix
    rw [empty] at isPrefix
    simp at isPrefix
  unfold safeParent at returned
  unfold parentAt lastName
  cases ends : path.getLast? with
  | none =>
      rw [ends] at returned
      cases returned
      rw [List.getLast?_eq_none_iff] at ends
      subst ends
      exact ⟨rfl, top rfl, staged.widen rfl⟩
  | some name =>
      rw [ends] at returned
      simp only at returned
      split at returned
      · next empty =>
          cases returned
          rw [empty]
          exact ⟨rfl, top empty, staged.widen rfl⟩
      · obtain ⟨dir, middle, ran, rest⟩ :=
          Act.bind_returns (congrArg Prod.fst returned)
        rw [rest] at returned
        cases returned
        unfold openDirAt at ran
        rw [query_noFaults staged.faults] at ran
        obtain ⟨opened, rfl⟩ := Prod.mk.inj ran
        obtain ⟨rfl, above⟩ := openDir_straight still proper opened
        refine ⟨rfl, fun parents name isPrefix => ?_, staged.widen rfl⟩
        rw [← same]
        exact above parents name isPrefix

/-- A `.wh.` file beside the copy goes, or stays. -/
theorem holds_unlinkWh
    {dir : Loc}
    {name : Name}
    (upper : dir.root = .layer 0) :
    Act.Holds (Installed wd dir name before counter id obj)
      (unlinkat dir (whName name) false)
      fun _ => Installed wd dir name before counter id obj := by
  intro os installed
  unfold unlinkat
  rw [change_noFaults installed.faults]
  cases unlinked : os.disk.unlinkat dir (whName name) false with
  | ok later =>
      rw [unlinkat_returns unlinked]
      exact installed.unlinkWh upper
  | error errno =>
      exact installed

/-- The last two steps of every copy but a directory's. -/
theorem gives_moveIn
    (straight : before.Straight (.layer 0) path.dropLast)
    (proper : Proper path.dropLast) :
    Act.Gives (Staged (tempScope wd) wd before counter id obj)
      (do
        let (dir, name) ← safeParent upperRoot path
        installFile wd dir name)
      fun _ os => Reached before path ∧
        Installed wd (parentAt path) (lastName path) before counter id obj
          os := by
  refine Act.Gives.bind (gives_safeParent straight proper) fun place => ?_
  refine Act.Gives.given fun same => Act.Gives.given fun reached => ?_
  subst same
  exact (gives_installFile rfl).imp (fun _ staged => staged)
    fun _ _ installed => ⟨reached, installed⟩

/-! ## Regular files -/

/-- The permissions of a copy. -/
def copiedPerm
    (env : Env)
    (src : Obj) :
    UInt32 :=
  match src.kind with
  | .reg => src.perm &&& 0o7777
  | .lnk => 0o777
  | .dir => (src.perm ||| 0o755) &&& 0o1777 &&& ~~~env.host.umask
  | .chr | .blk | .fifo | .sock =>
      src.perm &&& 0o7777 &&& ~~~env.host.umask

/-- What the copy of an object has of it; `u32::MAX` names no owner. -/
structure CopyOf
    (env : Env)
    (src copy : Obj) : Prop where
  kind : copy.kind = src.kind
  uid : src.uid ≠ 0xffffffff → copy.uid = src.uid
  gid : src.gid ≠ 0xffffffff → copy.gid = src.gid
  perm : copy.perm = copiedPerm env src
  data : src.kind = .reg ∨ src.kind = .lnk → copy.data = src.data
  rdev : src.kind = .chr ∨ src.kind = .blk → copy.rdev = src.rdev
  times :
    src.kind = .reg ∨ src.kind = .dir →
      copy.atime = src.atime ∧ copy.mtime = src.mtime
  xattrs :
    src.kind = .reg ∨ src.kind = .dir → Transfers env src src.kind →
      copy.xattrs = copiedXattrs src.xattrs

/-- A copy of the object is at the path of the upper layer. -/
def Copied
    (env : Env)
    (wd : Name)
    (before : Disk)
    (counter : Nat)
    (src : Obj)
    (path : Path)
    (os : Os) : Prop :=
  Reached before path ∧ ∃ id copy, CopyOf env src copy ∧
    Installed wd (parentAt path) (lastName path) before counter id copy os

/-- The owner that `fchown` gives the copy. -/
theorem owner_copied
    (shows : st.Shows src)
    (obj : Obj) :
    (src.uid ≠ 0xffffffff →
        (chownObj st.uid st.gid obj).uid = src.uid) ∧
      (src.gid ≠ 0xffffffff →
        (chownObj st.uid st.gid obj).gid = src.gid) := by
  rw [← shows.uid, ← shows.gid]
  exact ⟨fun named => if_neg named, fun named => if_neg named⟩

theorem gives_copyRegular
    (apart : before.DirsApart)
    (vacant : Vacant before (wdName counter))
    (isLow : layerIdx ≠ 0)
    {loc : Loc}
    (leads : LeadsTo before layerIdx path true loc src)
    (isReg : src.kind = .reg)
    (shows : st.Shows src)
    (straight : before.Straight (.layer 0) path.dropLast)
    (proper : Proper path.dropLast) :
    Act.Gives (Ready before counter)
      (copyRegular env (.layer layerIdx) path st)
      fun _ => Copied env (wdName counter) before (counter + 1) src path := by
  refine Act.Gives.bind gives_nextWdName fun wd => ?_
  refine Act.Gives.given fun isWd => ?_
  subst isWd
  refine Act.Gives.bind
    (gives_openSource apart isLow ⟨rfl, rfl, rfl⟩ leads 0) fun source => ?_
  refine Act.Gives.given fun reads => ?_
  refine Act.Gives.bind
    (gives_creatTemp (covers_tempScope _) apart vacant
      (isSpecial_wdName counter) _) fun dest => ?_
  refine Act.Gives.some fun ino => ?_
  refine Act.Gives.given fun notPath => ?_
  refine Act.Gives.given fun writes => ?_
  refine Act.Gives.bind (gives_fchownCopy rfl notPath _ _) fun _ => ?_
  refine Act.Gives.bind (gives_copyData reads rfl notPath writes _)
    fun _ => ?_
  refine Act.Gives.bind (gives_setStatTimes rfl notPath shows) fun _ => ?_
  refine Act.Gives.bind (gives_copyXattr reads rfl rfl) fun _ => ?_
  refine Act.Gives.some fun xattrs => ?_
  refine Act.Gives.given fun copied => ?_
  refine Act.Gives.bind (gives_fchmodCopy rfl notPath _) fun _ => ?_
  refine Act.Gives.bind (gives_safeParent straight proper) fun place => ?_
  refine Act.Gives.given fun same => Act.Gives.given fun reached => ?_
  subst same
  refine Act.Gives.bind (gives_installFile rfl) fun _ => ?_
  refine Act.Gives.bind (Act.Gives.attempt (holds_unlinkWh rfl)) fun _ => ?_
  refine Act.Gives.pure fun os installed =>
    ⟨reached, dest.obj, _, ?_, installed⟩
  have owner := owner_copied shows
    (freshObj env before .reg ((st.mode.perm ||| 0o200) &&& 0o7777) 0 [] ino)
  refine ⟨isReg.symm, owner.1, owner.2, ?_, fun _ => rfl, ?_,
    fun _ => ⟨rfl, rfl⟩, ?_⟩
  · simp only [copiedPerm, isReg, shows.mode]
  · simp [isReg]
  · rw [isReg]
    exact fun _ => copied


/-! ## Symbolic links -/

/-- The link under the temporary name. -/
theorem gives_symlinkTemp
    (covers : Covers scope wd)
    (apart : before.DirsApart)
    (vacant : Vacant before wd)
    (target : List UInt8) :
    Act.Gives (Ready before counter) (symlinkat env target workRoot wd)
      fun _ os => ∃ id ino, Staged scope wd before counter id
        { freshObj env before .lnk 0o777 0 target ino with perm := 0o777 }
        os := by
  have made := @gives_create scope wd before counter covers apart vacant
    fun disk ino =>
      { freshObj env disk .lnk 0o777 0 target ino with perm := 0o777 }
  have done := Act.Gives.bind made fun id =>
    @Act.Gives.pure Errno _ _ _ (fun _ os => ∃ id ino,
      Staged scope wd before counter id
        { freshObj env before .lnk 0o777 0 target ino with perm := 0o777 } os)
      () fun os staged => ⟨id, staged⟩
  rw [Act.bind_assoc] at done
  exact done

/-- The owner of the object under the temporary name is set. -/
theorem gives_fchownTemp
    (proper : isSpecial wd = false)
    (uid gid : UInt32) :
    Act.Gives (Staged scope wd before counter id obj)
      (fchownat workRoot wd uid gid).attempt
      fun _ => Staged scope wd before counter id (chownObj uid gid obj) := by
  refine (Act.Gives.attempt (holds_changeTemp proper _)).imp
    (fun _ staged => staged) ?_
  rintro outcome os ⟨-, disk, -, staged⟩
  exact staged

/-- The target of the source. -/
theorem gives_readlink
    {loc : Loc}
    (leads : LeadsTo before layerIdx path true loc src) :
    Act.Gives (Ready before counter) (readlinkat (.layer layerIdx) path)
      fun target os => target = src.data ∧ Ready before counter os := by
  intro os target later ready returned
  unfold readlinkat at returned
  rw [query_noFaults ready.faults, ready.disk] at returned
  unfold Disk.readlinkat at returned
  rw [show before.locate ⟨.layer layerIdx, []⟩ path = .ok loc from leads.1]
    at returned
  simp only [leads.2] at returned
  split at returned
  · cases returned
    exact ⟨rfl, ready⟩
  · cases returned

theorem gives_copySymlink
    (apart : before.DirsApart)
    (vacant : Vacant before (wdName counter))
    {loc : Loc}
    (leads : LeadsTo before layerIdx path true loc src)
    (isLnk : src.kind = .lnk)
    (shows : st.Shows src)
    (straight : before.Straight (.layer 0) path.dropLast)
    (proper : Proper path.dropLast) :
    Act.Gives (Ready before counter)
      (copySymlink env (.layer layerIdx) path st)
      fun _ => Copied env (wdName counter) before (counter + 1) src path := by
  refine Act.Gives.bind (gives_readlink leads) fun target => ?_
  refine Act.Gives.given fun isTarget => ?_
  subst isTarget
  refine Act.Gives.bind gives_nextWdName fun wd => ?_
  refine Act.Gives.given fun isWd => ?_
  subst isWd
  refine Act.Gives.bind
    (gives_symlinkTemp (covers_tempScope _) apart vacant _) fun _ => ?_
  refine Act.Gives.some fun id => Act.Gives.some fun ino => ?_
  refine Act.Gives.bind (gives_fchownTemp (isSpecial_wdName counter) _ _)
    fun _ => ?_
  refine (gives_moveIn straight proper).imp (fun _ staged => staged) ?_
  refine fun _ os moved => ⟨moved.1, id, _, ?_, moved.2⟩
  have owner := owner_copied shows
    { freshObj env before .lnk 0o777 0 src.data ino with perm := 0o777 }
  refine ⟨isLnk.symm, owner.1, owner.2, ?_, fun _ => rfl, ?_, ?_, ?_⟩
  · simp only [copiedPerm, isLnk]
    rfl
  · simp [isLnk]
  · simp [isLnk]
  · simp [isLnk]

/-! ## Special files -/

/-- A call that leaves the trees alone leaves all alone. -/
theorem call_still
    {α : Type}
    {run : Disk → Except Errno (α × Disk)}
    {os : Os}
    (noFaults : os.faults = [])
    (still : (call run os).2.disk = os.disk) :
    (call run os).2 = os := by
  rw [call_noFaults noFaults] at still ⊢
  cases ran : run os.disk with
  | error errno =>
      rfl
  | ok made =>
      rw [ran] at still
      simp only at still ⊢
      rw [still]

/-- An open that makes nothing only takes an inode number. -/
theorem safeOpenat_still
    {base : Loc}
    {flags : OpenFlags}
    {os : Os}
    (noFaults : os.faults = [])
    (plain : PlainFlags flags)
    (perm : UInt32) :
    ∃ inos, (safeOpenat env base path flags perm os).2 =
      { os with inos := inos } := by
  have still :
      (safeOpenat env base path flags perm os).2.disk = os.disk :=
    (safeOpenat_plain plain rfl).1
  unfold safeOpenat at still ⊢
  obtain ⟨ino, inos, supplied⟩ := nextStIno_returns os
  rw [Act.bind_ok supplied] at still ⊢
  exact ⟨inos, @call_still _ _ { os with inos := inos } noFaults still⟩

/-- The object under the temporary name is opened, or not. -/
theorem gives_attemptTemp
    (proper : isSpecial wd = false)
    {flags : OpenFlags}
    (plain : PlainFlags flags)
    (perm : UInt32)
    (noLink : obj.kind ≠ .lnk) :
    Act.Gives (Staged scope wd before counter id obj)
      (safeOpenat env workRoot [wd] flags perm).attempt
      fun outcome os => (∀ fd, outcome = .ok fd → fd.obj = id) ∧
        Staged scope wd before counter id obj os := by
  intro os outcome later staged returned
  cases returned
  obtain ⟨inos, still⟩ :=
    @safeOpenat_still env [wd] workRoot flags os staged.faults plain perm
  rw [still]
  refine ⟨fun fd opened => ?_, staged.withInos inos⟩
  exact (gives_openTemp proper plain perm noLink os fd _ staged
    (Prod.ext opened rfl)).1

/-- The source is opened, or not, and the stage stays. -/
theorem gives_attemptOpen
    {base : Loc}
    {flags : OpenFlags}
    (plain : PlainFlags flags)
    (perm : UInt32) :
    Act.Gives (Staged scope wd before counter id obj)
      (safeOpenat env base path flags perm).attempt
      fun _ => Staged scope wd before counter id obj := by
  intro os outcome later staged returned
  cases returned
  obtain ⟨inos, still⟩ :=
    @safeOpenat_still env path base flags os staged.faults plain perm
  rw [still]
  exact staged.withInos inos

theorem gives_copySpecialXattrs
    (proper : isSpecial wd = false)
    (noLink : obj.kind ≠ .lnk)
    (root : Root) :
    Act.Gives (Staged scope wd before counter id obj)
      (copySpecialXattrs env root path wd)
      fun _ => Marked scope wd before counter id obj := by
  have whole :
      ∀ os, Staged scope wd before counter id obj os →
        Marked scope wd before counter id obj os :=
    fun _ staged => ⟨obj.xattrs, staged⟩
  refine Act.Gives.bind
    (gives_attemptTemp proper ⟨rfl, rfl, rfl⟩ 0 noLink) fun opened => ?_
  refine Act.Gives.given fun isObj => ?_
  cases opened with
  | error errno =>
      exact Act.Gives.pure whole
  | ok dest =>
      refine Act.Gives.bind ((gives_attemptOpen ⟨rfl, rfl, rfl⟩ 0).imp
        (fun _ staged => staged) fun _ => whole) fun source => ?_
      cases source with
      | error errno =>
          exact Act.Gives.pure fun _ marked => marked
      | ok source =>
          refine Act.Gives.bind (Act.Gives.ofKeeps
            (keeps_copyXattr (isObj dest rfl)).attempt) fun _ => ?_
          exact Act.Gives.pure fun _ marked => marked

/-- A device that is refused is not made. -/
theorem gives_refuseDevice
    {post : Unit → Os → Prop} :
    Act.Gives (Ready before counter) (refuseDevice env workRoot wd) post := by
  intro os value later ready returned
  obtain ⟨refused, -⟩ := query_returns returned
  split at refused <;> cases refused

/-- The special file under the temporary name. -/
theorem gives_mknodTemp
    (covers : Covers scope wd)
    (apart : before.DirsApart)
    (vacant : Vacant before wd)
    (isSpecial : src.kind ∈ [FileKind.chr, .blk, .fifo, .sock])
    (shows : st.Shows src) :
    Act.Gives (Ready before counter)
      (mknodat env workRoot wd st.mode st.rdev)
      fun _ os => ∃ id rdev ino,
        (src.kind = .chr ∨ src.kind = .blk → rdev = src.rdev) ∧
          Staged scope wd before counter id
            (freshObj env before src.kind (src.perm &&& 0o7777) rdev [] ino)
            os := by
  rw [shows.mode, shows.rdev]
  have makes :
      ∀ rdev, (src.kind = .chr ∨ src.kind = .blk → rdev = src.rdev) →
        Act.Gives (Ready before counter)
          (do
            let _ ← makeObj env workRoot wd src.kind (src.perm &&& 0o7777)
              rdev [])
          fun _ os => ∃ id rdev ino,
            (src.kind = .chr ∨ src.kind = .blk → rdev = src.rdev) ∧
              Staged scope wd before counter id
                (freshObj env before src.kind (src.perm &&& 0o7777) rdev []
                  ino) os := by
    intro rdev isRdev
    refine Act.Gives.bind
      (gives_makeObj covers apart vacant src.kind _ rdev []) fun id => ?_
    refine Act.Gives.pure fun os staged => ?_
    obtain ⟨ino, staged⟩ := staged
    exact ⟨id, rdev, ino, isRdev, staged⟩
  unfold mknodat
  cases kind : src.kind with
  | reg | dir | lnk =>
      rw [kind] at isSpecial
      simp at isSpecial
  | chr | blk =>
      rw [kind] at makes
      dsimp only
      split
      · exact makes src.rdev fun _ => rfl
      · exact gives_refuseDevice
  | fifo | sock =>
      rw [kind] at makes
      exact makes 0 (by simp)

theorem gives_copySpecial
    (apart : before.DirsApart)
    (vacant : Vacant before (wdName counter))
    (isSpecial : src.kind ∈ [FileKind.chr, .blk, .fifo, .sock])
    (shows : st.Shows src)
    (straight : before.Straight (.layer 0) path.dropLast)
    (proper : Proper path.dropLast)
    (root : Root) :
    Act.Gives (Ready before counter)
      (copySpecial env root path st)
      fun _ => Copied env (wdName counter) before (counter + 1) src path := by
  have named : Disk.isSpecial (wdName counter) = false :=
    isSpecial_wdName counter
  refine Act.Gives.bind gives_nextWdName fun wd => ?_
  refine Act.Gives.given fun isWd => ?_
  subst isWd
  refine Act.Gives.bind
    (gives_mknodTemp (covers_tempScope _) apart vacant isSpecial shows)
    fun _ => ?_
  refine Act.Gives.some fun id => Act.Gives.some fun rdev => ?_
  refine Act.Gives.some fun ino => Act.Gives.given fun isRdev => ?_
  refine Act.Gives.bind (gives_fchownTemp named _ _) fun _ => ?_
  refine Act.Gives.bind (gives_copySpecialXattrs named ?_ root) fun _ => ?_
  · intro isLnk
    rw [show src.kind = .lnk from isLnk] at isSpecial
    simp at isSpecial
  refine Act.Gives.some fun xattrs => ?_
  refine (gives_moveIn straight proper).imp (fun _ staged => staged) ?_
  refine fun _ os moved => ⟨moved.1, id, _, ?_, moved.2⟩
  have owner := owner_copied shows
    (freshObj env before src.kind (src.perm &&& 0o7777) rdev [] ino)
  refine ⟨rfl, owner.1, owner.2, ?_, ?_, isRdev, ?_, ?_⟩
  · unfold copiedPerm
    cases kind : src.kind <;> simp_all [freshObj, chownObj]
  all_goals
    cases kind : src.kind <;> simp_all

/-! ## Directories -/

/-- A directory is at the path of the upper layer, a copy of the one that the
path of the lower layer leads to. -/
def DirectoryCopied
    (env : Env)
    (wd : Name)
    (before : Disk)
    (counter layerIdx : Nat)
    (path : Path)
    (os : Os) : Prop :=
  Reached before path ∧ ∃ loc src id copy,
    LeadsTo before layerIdx path false loc src ∧
      copy.kind = .dir ∧ (src.kind = .dir → CopyOf env src copy) ∧
        Installed wd (parentAt path) (lastName path) before counter id copy os

/-- Some object of the lower layer is opened. -/
theorem gives_openFound
    (apart : before.DirsApart)
    (isLow : layerIdx ≠ 0)
    {flags : OpenFlags}
    (plain : PlainFlags flags)
    (perm : UInt32) :
    Act.Gives (Ready before counter)
      (safeOpenat env ⟨.layer layerIdx, []⟩ path flags perm)
      fun fd os => ∃ loc src,
        LeadsTo before layerIdx path flags.noFollow loc src ∧
          Source before fd src ∧ Ready before counter os := by
  intro os fd later ready returned
  have kept : Kept before os.disk := by
    rw [ready.disk]
    exact .refl apart
  obtain ⟨loc, src, inos, leads, source, rfl⟩ :=
    openSource_returns ready.faults kept isLow plain returned
  exact ⟨loc, src, leads, source, ready.faults, ready.disk, ready.counted⟩

/-- `fstat` of the source -/
theorem gives_fstat
    (apart : before.DirsApart)
    {fd : Fd}
    (source : Source before fd src) :
    Act.Gives (Ready before counter) (fstat fd)
      fun st os => st.Shows src ∧ Ready before counter os := by
  intro os st later ready returned
  have stored := source.stored (.refl apart)
  rw [← ready.disk] at stored
  obtain ⟨found, shows, ran⟩ := fstat_source ready.faults stored
  rw [ran] at returned
  cases returned
  exact ⟨shows, ready⟩

theorem gives_mkdirTemp
    (covers : Covers scope wd)
    (apart : before.DirsApart)
    (vacant : Vacant before wd)
    (mode : Mode) :
    Act.Gives (Ready before counter) (mkdirat env workRoot wd mode)
      fun _ os => ∃ id ino, Staged scope wd before counter id
        (freshObj env before .dir (mode.perm &&& 0o1777) 0 [] ino) os := by
  refine Act.Gives.bind
    (gives_makeObj covers apart vacant .dir _ 0 []) fun id => ?_
  exact Act.Gives.pure fun os staged => ⟨id, staged⟩

theorem gives_copyDirectory
    (apart : before.DirsApart)
    (vacant : Vacant before (wdName counter))
    (isLow : layerIdx ≠ 0)
    (straight : before.Straight (.layer 0) path.dropLast)
    (proper : Proper path.dropLast) :
    Act.Gives (Ready before counter)
      (copyDirectory env layerIdx path)
      fun _ => DirectoryCopied env (wdName counter) before (counter + 1)
        layerIdx path := by
  have named : isSpecial (wdName counter) = false := isSpecial_wdName counter
  refine Act.Gives.bind (Act.Gives.ofKeeps (Act.Keeps.orFail _ _))
    fun layer => ?_
  refine Act.Gives.bind
    (gives_openFound apart isLow ⟨rfl, rfl, rfl⟩ _) fun source => ?_
  refine Act.Gives.some fun loc => Act.Gives.some fun src => ?_
  refine Act.Gives.given fun leads => Act.Gives.given fun reads => ?_
  refine Act.Gives.bind (gives_fstat apart reads) fun st => ?_
  refine Act.Gives.given fun shows => ?_
  refine Act.Gives.bind gives_nextWdName fun wd => ?_
  refine Act.Gives.given fun isWd => ?_
  subst isWd
  refine Act.Gives.bind
    (gives_mkdirTemp (covers_tempScope _) apart vacant _) fun _ => ?_
  refine Act.Gives.some fun id => Act.Gives.some fun ino => ?_
  refine Act.Gives.bind
    (gives_openTemp named ⟨rfl, rfl, rfl⟩ 0 (by simp [freshObj]))
    fun dest => ?_
  refine Act.Gives.given fun isObj => Act.Gives.given fun notPath => ?_
  refine Act.Gives.bind (gives_fchownCopy isObj notPath _ _) fun _ => ?_
  refine Act.Gives.bind (gives_setStatTimes isObj notPath shows) fun _ => ?_
  refine Act.Gives.bind (gives_copyXattr reads isObj rfl) fun _ => ?_
  refine Act.Gives.some fun xattrs => ?_
  refine Act.Gives.given fun copied => ?_
  refine Act.Gives.bind (gives_safeParent straight proper) fun place => ?_
  refine Act.Gives.given fun same => Act.Gives.given fun reached => ?_
  subst same
  refine (gives_installDir rfl).imp (fun _ staged => staged) ?_
  refine fun _ os installed =>
    ⟨reached, loc, src, id, _, leads, rfl, ?_, installed⟩
  intro isDir
  have owner := owner_copied shows
    (freshObj env before .dir ((st.mode.perm ||| 0o755) &&& 0o1777) 0 [] ino)
  refine ⟨isDir.symm, owner.1, owner.2, ?_, ?_, ?_, fun _ => ⟨rfl, rfl⟩, ?_⟩
  · simp only [copiedPerm, isDir, shows.mode, chownObj, freshObj]
  · simp [isDir]
  · simp [isDir]
  · rw [isDir]
    exact fun _ => copied

end

end Syscall

end FuseOverlay
