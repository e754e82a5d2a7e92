import FuseOverlay.DiskChanges
import FuseOverlay.KernelReferences
import FuseOverlay.NumberAgreement
import FuseOverlay.SyscallSteps
import FuseOverlay.XattrRequests

namespace FuseOverlay

/-!
# Hard links

`link` takes the source and the new parent to the upper layer, makes the second
name there and registers it under the inode number and device that `stat`
reports.  The number of the source stays registered under the key that was
recorded when the source was first seen.  The new name gets the number of the
source exactly when the two keys are one.
-/

open Act (Keeps Holds Gives)

namespace Disk

variable {disk later : Disk} {base : Loc}

/-! ## A disk with more names -/

/-- The other disk has these names too, and objects that walks take alike. -/
structure Part (disk later : Disk) : Prop where
  names :
    ∀ {loc id}, disk.names.get? loc = some id →
      later.names.get? loc = some id
  objs :
    ∀ {id obj}, disk.objs.get? id = some obj →
      ∃ found, later.objs.get? id = some found ∧ found.kind = obj.kind ∧
        found.data = obj.data ∧ found.stIno = obj.stIno
  dev : later.dev = disk.dev

namespace Part

theorem refl
    (disk : Disk) :
    Part disk disk where
  names := id
  objs := fun stored => ⟨_, stored, rfl, rfl, rfl⟩
  dev := rfl

theorem trans
    {third : Disk}
    (first : Part disk later)
    (second : Part later third) :
    Part disk third where
  names := fun stored => second.names (first.names stored)
  objs := by
    intro id obj stored
    obtain ⟨found, foundStored, kind, data, ino⟩ := first.objs stored
    obtain ⟨last, lastStored, kind', data', ino'⟩ := second.objs foundStored
    exact ⟨last, lastStored, kind'.trans kind, data'.trans data,
      ino'.trans ino⟩
  dev := second.dev.trans first.dev

theorem find?
    (part : Part disk later)
    {loc : Loc}
    {obj : Obj}
    (found : disk.find? loc = some obj) :
    ∃ found, later.find? loc = some found ∧ found.kind = obj.kind ∧
      found.data = obj.data := by
  obtain ⟨id, named, stored⟩ := find?_eq_some_iff.mp found
  obtain ⟨other, otherStored, kind, data, -⟩ := part.objs stored
  exact ⟨other, find?_eq_some_iff.mpr ⟨id, part.names named, otherStored⟩,
    kind, data⟩

/-- A walk that succeeds goes the same way where there is more. -/
theorem walk
    (part : Part disk later)
    {onLink onLink' : Path → Path → Except Errno Path}
    (links :
      ∀ {cwd path reached}, onLink cwd path = .ok reached →
        onLink' cwd path = .ok reached)
    {cwd path reached : Path}
    (walked : disk.walk base onLink cwd path = .ok reached) :
    later.walk base onLink' cwd path = .ok reached := by
  induction path generalizing cwd with
  | nil =>
      exact walked
  | cons name rest inductionHypothesis =>
      unfold Disk.walk at walked ⊢
      split at walked
      · next skipped =>
          rw [if_pos skipped]
          exact inductionHypothesis walked
      · next proper =>
          rw [if_neg proper]
          split at walked
          · next up =>
              rw [if_pos up]
              exact inductionHypothesis walked
          · next down =>
              rw [if_neg down]
              simp only at walked ⊢
              cases stored : disk.find? ⟨base.root, cwd ++ [name]⟩ with
              | none =>
                  rw [stored] at walked
                  cases walked
              | some obj =>
                  obtain ⟨found, foundStored, kind, data⟩ := part.find? stored
                  rw [stored] at walked
                  rw [foundStored]
                  simp only at walked ⊢
                  rw [kind, data]
                  cases isKind : obj.kind with
                  | dir =>
                      rw [isKind] at walked
                      exact inductionHypothesis walked
                  | lnk =>
                      rw [isKind] at walked
                      exact links walked
                  | _ =>
                      rw [isKind] at walked
                      cases walked

theorem resolveDir
    (part : Part disk later)
    {budget : Nat}
    {cwd path reached : Path}
    (walked : disk.resolveDir base budget cwd path = .ok reached) :
    later.resolveDir base budget cwd path = .ok reached := by
  induction budget generalizing cwd path reached with
  | zero =>
      exact part.walk (fun failed => by cases failed) walked
  | succ budget inductionHypothesis =>
      exact part.walk inductionHypothesis walked

theorem openDir
    (part : Part disk later)
    {path : Path}
    {dir : Loc}
    (opened : disk.openDir base path = .ok dir) :
    later.openDir base path = .ok dir := by
  unfold Disk.openDir at opened ⊢
  cases walked : disk.resolveDir base linkLimit base.path path with
  | error errno =>
      rw [walked] at opened
      cases opened
  | ok reached =>
      rw [walked] at opened
      rw [part.resolveDir walked]
      exact opened

theorem locate
    (part : Part disk later)
    {path : Path}
    {loc : Loc}
    (located : disk.locate base path = .ok loc) :
    later.locate base path = .ok loc := by
  unfold Disk.locate at located ⊢
  split at located
  · exact located
  · split at located
    · cases located
    · next dir opened =>
        rw [part.openDir opened]
        exact located

/-- `stat` reports the same inode number and device. -/
theorem statat
    (part : Part disk later)
    {root : Root}
    {path : Path}
    {st : Stat}
    (asked : disk.statat root path = .ok st) :
    ∃ found, later.statat root path = .ok found ∧ found.ino = st.ino ∧
      found.dev = st.dev := by
  unfold Disk.statat at asked ⊢
  cases located : disk.locate ⟨root, []⟩ path with
  | error errno =>
      rw [located] at asked
      cases asked
  | ok loc =>
      rw [located] at asked
      rw [part.locate located]
      simp only [statLoc] at asked ⊢
      cases named : disk.names.get? loc with
      | none =>
          rw [named] at asked
          cases asked
      | some id =>
          rw [named] at asked
          rw [part.names named]
          simp only at asked ⊢
          cases stored : disk.objs.get? id with
          | none =>
              rw [stored] at asked
              cases asked
          | some obj =>
              obtain ⟨found, foundStored, -, -, ino⟩ := part.objs stored
              rw [stored] at asked
              rw [foundStored]
              cases asked
              exact ⟨_, rfl, ino, congrFun part.dev _⟩

end Part

theorem dev_touch
    (disk : Disk)
    (dir : Loc) :
    (disk.touch dir).dev = disk.dev := by
  unfold touch
  split <;> rfl

/-- Touching a directory changes nothing that a walk sees, either way. -/
theorem part_touch
    (disk : Disk)
    (dir : Loc) :
    Part disk (disk.touch dir) ∧ Part (disk.touch dir) disk := by
  constructor
  · refine ⟨fun stored => (names_touch disk dir).symm ▸ stored, ?_,
      dev_touch disk dir⟩
    intro id obj stored
    rw [objs_touch]
    split
    · exact ⟨{ obj with mtime := disk.now }, by rw [stored]; rfl, rfl, rfl,
        rfl⟩
    · exact ⟨obj, stored, rfl, rfl, rfl⟩
  · refine ⟨fun stored => names_touch disk dir ▸ stored, ?_,
      (dev_touch disk dir).symm⟩
    intro id obj stored
    rw [objs_touch] at stored
    split at stored
    · obtain ⟨old, oldStored, rfl⟩ := Option.map_eq_some_iff.mp stored
      exact ⟨old, oldStored, rfl, rfl, rfl⟩
    · exact ⟨obj, stored, rfl, rfl, rfl⟩

/-- What is left after a removal was there before. -/
theorem part_unlinkat
    {dir : Loc}
    {name : Name}
    {removeDir : Bool}
    (returned : disk.unlinkat dir name removeDir = .ok later) :
    Part later disk := by
  rw [unlinkat_returns returned]
  refine (part_touch _ dir).2.trans ⟨?_, fun stored => ⟨_, stored, rfl, rfl,
    rfl⟩, rfl⟩
  intro loc id stored
  change (disk.names.remove _).get? loc = some id at stored
  rw [FMap.get?_remove] at stored
  split at stored
  · cases stored
  · exact stored

/-- What a link that succeeds has done. -/
theorem linkat_returns
    {oldDir newDir : Loc}
    {oldName newName : Name}
    (returned : disk.linkat oldDir oldName newDir newName = .ok later) :
    ∃ id, disk.names.get? (oldDir.entry oldName) = some id ∧
      isSpecial newName = false ∧ Part disk later ∧
      later.names.get? (newDir.child newName) = some id := by
  unfold linkat at returned
  split at returned
  · cases returned
  · next id stored =>
      split at returned
      · cases returned
      · split at returned
        · cases returned
        · split at returned
          · cases returned
          · next free =>
              simp only [Bool.or_eq_true, not_or, Bool.not_eq_true,
                Option.isSome_eq_false_iff, Option.isNone_iff_eq_none] at free
              cases returned
              refine ⟨id, stored, free.1, ?_, ?_⟩
              · have added : Part disk
                    (disk.addName (newDir.child newName)
                      (oldDir.entry oldName) id stored) := by
                  refine ⟨?_, fun stored => ⟨_, stored, rfl, rfl, rfl⟩, rfl⟩
                  intro loc other otherStored
                  change (disk.names.set _ id).get? loc = some other
                  rw [FMap.get?_set]
                  split
                  · next same =>
                      rw [same, free.2] at otherStored
                      cases otherStored
                  · exact otherStored
                exact added.trans (part_touch _ newDir).1
              · rw [names_touch]
                exact FMap.get?_set_self ..

/-- The new name has the inode number and device of the old one. -/
theorem stat_of_linkat
    {start : Disk}
    {srcPath dstPath : Path}
    {srcDir dstDir : Loc}
    {srcLast newName : Name}
    {st : Stat}
    (left : Part disk start)
    (located :
      disk.locate ⟨.layer 0, []⟩ srcPath = .ok (srcDir.entry srcLast))
    (opened : disk.openDir ⟨.layer 0, []⟩ dstPath = .ok dstDir)
    (linked : disk.linkat srcDir srcLast dstDir newName = .ok later)
    (asked : later.statat (.layer 0) (dstPath ++ [newName]) = .ok st) :
    ∃ old, start.statat (.layer 0) srcPath = .ok old ∧ old.ino = st.ino ∧
      old.dev = st.dev := by
  obtain ⟨id, named, proper, more, newNamed⟩ := linkat_returns linked
  obtain ⟨obj, stored, -⟩ := find?_isSome named
  have found : disk.statat (.layer 0) srcPath =
      .ok (disk.statObj (srcDir.entry srcLast).root id obj) := by
    unfold Disk.statat
    rw [located]
    simp only [statLoc, named, stored]
  obtain ⟨old, oldAsked, oldIno, oldDev⟩ := left.statat found
  refine ⟨old, oldAsked, ?_⟩
  obtain ⟨linkedObj, linkedStored, -, -, sameIno⟩ := more.objs stored
  have place : later.locate ⟨.layer 0, []⟩ (dstPath ++ [newName]) =
      .ok (dstDir.child newName) := by
    rw [locate_append, more.openDir opened]
    exact congrArg Except.ok (entry_of_ne (ne_dotName proper) dstDir)
  have again : later.statat (.layer 0) (dstPath ++ [newName]) =
      .ok (later.statObj (dstDir.child newName).root id linkedObj) := by
    unfold Disk.statat
    rw [place]
    simp only [statLoc, newNamed, linkedStored]
  have srcRoot := root_of_locate located
  have dstRoot := root_of_openDir opened
  rw [again] at asked
  cases asked
  constructor
  · rw [oldIno]
    exact sameIno.symm
  · rw [oldDev]
    change disk.dev (srcDir.entry srcLast).root = later.dev dstDir.root
    rw [srcRoot, dstRoot, more.dev]

end Disk

namespace Syscall

open Whiteout

variable {env : Env}

/-! ## The system calls of `link` -/

/-- Deleting a whiteout only takes names away. -/
theorem part_deleteWhiteout
    (start : Disk)
    (upper : Loc)
    (parentPath : Path)
    (name : Name) :
    Keeps (fun os => Disk.Part os.disk start)
      (deleteWhiteout upper none parentPath name) := by
  have unlinks :
      ∀ dir query, Keeps (fun os => Disk.Part os.disk start)
        (unlinkat dir query false) :=
    fun dir query => @keeps_change (Disk.Part · start) _
      fun part returned => (Disk.part_unlinkat returned).trans part
  have asks :
      ∀ {α : Type} (read : Disk → Except Errno α),
        Keeps (fun os => Disk.Part os.disk start) (query read) :=
    fun read => @keeps_query _ (Disk.Part · start) read
  have opens : Keeps (fun os => Disk.Part os.disk start)
      (whiteoutDir upper parentPath) := by
    unfold whiteoutDir
    split
    · exact Keeps.pure _
    · exact asks _
  refine Keeps.bind opens fun dir => ?_
  refine Keeps.bind (Keeps.gets _) fun canMknod => ?_
  refine Keeps.bind (Keeps.runIf ?_) fun _ => ?_
  · refine Keeps.bind (Keeps.attempt (asks _)) fun outcome => ?_
    split
    · exact Keeps.runIf (unlinks dir name)
    · exact Keeps.pure ()
  · refine Keeps.bind (Keeps.attempt (unlinks dir _)) fun outcome => ?_
    split
    · exact Keeps.pure ()
    · exact Keeps.pure ()
    · exact Keeps.fail _

end Syscall

namespace InodeTable

/-! ## The entry of the new name -/

/-- Whether `register` takes a node for one that is listed already. -/
def standsAt
    (arena : NodeArena)
    (path : List UInt8)
    (id : NodeId) : Bool :=
  match arena.get? id with
  | some node => node.isDir || computePath arena id == path
  | none => false

/-- `register` under a key with a live node. -/
theorem register_listed
    {inodes inodes' : InodeTable}
    {order : HashOrder}
    {arena : NodeArena}
    {nodeId listed : NodeId}
    {ino dev : UInt64}
    {mode : Mode}
    {number : UInt64}
    {existing : OvlIno}
    (stored : inodes.table.get? ⟨ino, dev⟩ = some existing)
    (member : listed ∈ existing.nodes)
    (live : arena.containsKey listed = true)
    (registered :
      inodes.register order arena nodeId ino dev mode =
        some (number, inodes')) :
    number = existing.fuseIno ∧ ∃ changed,
      inodes'.table.get? ⟨ino, dev⟩ = some changed ∧
      changed.fuseIno = existing.fuseIno ∧
      changed.nodes =
        if (existing.nodes.filter arena.containsKey).any
            (standsAt arena (computePath arena nodeId)) then
          existing.nodes.filter arena.containsKey
        else
          order.insert nodeId (existing.nodes.filter arena.containsKey) := by
  have some : (existing.nodes.filter arena.containsKey).isEmpty = false := by
    cases shape : existing.nodes.filter arena.containsKey with
    | nil =>
        exact absurd live (List.filter_eq_nil_iff.mp shape listed member)
    | cons first rest =>
        rfl
  unfold register at registered
  simp only [stored, some, Bool.false_eq_true, ↓reduceIte] at registered
  change (if (existing.nodes.filter arena.containsKey).any
    (standsAt arena (computePath arena nodeId)) = true then _ else _) = _
    at registered
  split at registered
  · next duplicate =>
      cases registered
      rw [if_pos duplicate]
      exact ⟨rfl, _, FMap.get?_set_self .., rfl, rfl⟩
  · next new =>
      cases registered
      rw [if_neg new]
      exact ⟨rfl, _, FMap.get?_set_self .., rfl, rfl⟩

/-- The number of a key is answered for that key only. -/
theorem register_number_iff
    {inodes inodes' : InodeTable}
    (consistent : inodes.Consistent)
    {order : HashOrder}
    {arena : NodeArena}
    {nodeId listed : NodeId}
    {ino dev : UInt64}
    {mode : Mode}
    {number : UInt64}
    {key : InodeKey}
    {entry : OvlIno}
    (stored : inodes.table.get? key = some entry)
    (member : listed ∈ entry.nodes)
    (live : arena.containsKey listed = true)
    (registered :
      inodes.register order arena nodeId ino dev mode =
        some (number, inodes')) :
    number = entry.fuseIno ↔ key = ⟨ino, dev⟩ := by
  constructor
  · intro same
    obtain ⟨later, answered, -⟩ := consistent.register registered
    obtain ⟨found, foundStored, isNumber⟩ :=
      Option.map_eq_some_iff.mp answered
    have back := (later.numbered _ found foundStored).2
    have kept := (register_effect registered).2.1 _ _
      (consistent.numbered key entry stored).2
    rw [isNumber, same, kept] at back
    exact Option.some.inj back
  · intro same
    subst same
    exact (register_listed stored member live registered).1

end InodeTable

namespace Daemon

open Syscall Whiteout

/-- `link` up to the system calls at the new name: both nodes are upper. -/
def linkNodes
    (env : Env)
    (ino newparent : UInt64)
    (newname : Name) :
    Daemon (NodeId × NodeId) := do
  checkNamemax env newname
  let srcId ← Act.orFail (← resolveIno ino) .ENOENT
  getNodeUp env srcId
  let dparentId ← Act.orFail (← resolveIno newparent) .ENOENT
  checkFree env newparent newname
  getNodeUp env dparentId
  pure (srcId, dparentId)

/-- The system calls of `link` after both nodes are upper. -/
def linkOnDisk
    (srcPath dparentPath : Path)
    (newname : Name) :
    Daemon Stat := do
  let _ ← (deleteWhiteout upperRoot none dparentPath newname).attempt
  let (srcDir, srcLast) ← safeParent upperRoot srcPath
  let (dstDir, dstLast) ← safeParent upperRoot (dparentPath ++ [newname])
  linkat srcDir srcLast dstDir dstLast
  statat (.layer 0) (dparentPath ++ [newname])

variable {env : Env}

/-- The parts of `link`. -/
theorem link_eq
    (ino newparent : UInt64)
    (newname : Name) :
    link env ino newparent newname = (do
      let nodes ← linkNodes env ino newparent newname
      let srcPath ← nodePath nodes.1
      let dparentPath ← nodePath nodes.2
      let st ← linkOnDisk srcPath dparentPath newname
      let fuseIno ← createAndRegisterChild env nodes.2 newname st false
      pure (.entry { st with ino := fuseIno })) := by
  unfold link linkNodes linkOnDisk
  simp only [Act.bind_assoc, Act.pure_bind]

/-- Only the state of the system calls differs from `start`. -/
def OnlyOs
    (start sys : Sys) : Prop :=
  ∃ os, sys = { start with os := os }

/-- What system calls give inside an action of the daemon. -/
theorem gives_lift
    {α : Type}
    {act : Syscall α}
    {pre : Os → Prop}
    {post : α → Os → Prop}
    (gives : Gives pre act post)
    (start : Sys) :
    Gives (fun sys => OnlyOs start sys ∧ pre sys.os) (liftM act : Daemon α)
      fun value sys => OnlyOs start sys ∧ post value sys.os := by
  intro sys value later holds returned
  obtain ⟨⟨os, rfl⟩, before⟩ := holds
  obtain ⟨outcome, rfl⟩ := Prod.mk.inj returned
  exact ⟨⟨_, rfl⟩, gives os value _ before (Prod.ext outcome rfl)⟩

/-- What the system calls of `link` find under the new name. -/
theorem gives_linkOnDisk
    (start : Sys)
    (srcPath dparentPath : Path)
    (newname : Name) :
    Gives (fun sys => sys = start) (linkOnDisk srcPath dparentPath newname)
      fun st sys => OnlyOs start sys ∧
        ∃ old, start.os.disk.statat (.layer 0) srcPath = .ok old ∧
          old.ino = st.ino ∧ old.dev = st.dev := by
  have deletes :
      Gives (fun os => Disk.Part os.disk start.os.disk)
        (deleteWhiteout upperRoot none dparentPath newname).attempt
        fun _ os => Disk.Part os.disk start.os.disk :=
    Gives.attempt (part_deleteWhiteout start.os.disk _ _ _)
  refine Gives.imp (Gives.bind (gives_lift deletes start) fun _ => ?_)
    (fun sys same => ⟨⟨start.os, same⟩, same ▸ Disk.Part.refl _⟩)
    fun _ _ holds => holds
  have source :
      Gives (fun os => Disk.Part os.disk start.os.disk)
        (safeParent upperRoot srcPath)
        fun place os => Disk.Part os.disk start.os.disk ∧
          os.disk.locate upperRoot srcPath =
            .ok (place.1.entry place.2) := by
    intro os place later part returned
    obtain ⟨located, -, sameDisk⟩ := safeParent_returns returned
    rw [sameDisk]
    exact ⟨part, located⟩
  refine Gives.bind (gives_lift source start) fun src => ?_
  have target :
      Gives
        (fun os => Disk.Part os.disk start.os.disk ∧
          os.disk.locate upperRoot srcPath = .ok (src.1.entry src.2))
        (safeParent upperRoot (dparentPath ++ [newname]))
        fun place os => (Disk.Part os.disk start.os.disk ∧
          os.disk.locate upperRoot srcPath = .ok (src.1.entry src.2)) ∧
          place.2 = newname ∧
          os.disk.openDir upperRoot dparentPath = .ok place.1 := by
    intro os place later holds returned
    obtain ⟨-, parts, sameDisk⟩ := safeParent_returns returned
    rw [sameDisk]
    exact ⟨holds, parts _ _ rfl⟩
  refine Gives.bind (gives_lift target start) fun dst => ?_
  -- The disk before the link is kept for the comparison after it.
  have links :
      Gives
        (fun os => (Disk.Part os.disk start.os.disk ∧
          os.disk.locate upperRoot srcPath = .ok (src.1.entry src.2)) ∧
          dst.2 = newname ∧
          os.disk.openDir upperRoot dparentPath = .ok dst.1)
        (linkat src.1 src.2 dst.1 dst.2)
        fun _ os => ∃ disk, (Disk.Part disk start.os.disk ∧
          disk.locate upperRoot srcPath = .ok (src.1.entry src.2)) ∧
          disk.openDir upperRoot dparentPath = .ok dst.1 ∧
          disk.linkat src.1 src.2 dst.1 newname = .ok os.disk := by
    intro os value later holds returned
    obtain ⟨before, last, opened⟩ := holds
    obtain ⟨disk, faults, linked, after⟩ :=
      change_returns (congrArg Prod.fst returned)
    have isLater : later = { os with disk := disk, faults := faults } :=
      (congrArg Prod.snd returned).symm.trans after
    rw [isLater]
    exact ⟨os.disk, before, opened, last ▸ linked⟩
  refine Gives.bind (gives_lift links start) fun _ => ?_
  have asks :
      Gives
        (fun os => ∃ disk, (Disk.Part disk start.os.disk ∧
          disk.locate upperRoot srcPath = .ok (src.1.entry src.2)) ∧
          disk.openDir upperRoot dparentPath = .ok dst.1 ∧
          disk.linkat src.1 src.2 dst.1 newname = .ok os.disk)
        (statat (.layer 0) (dparentPath ++ [newname]))
        fun st _ => ∃ old,
          start.os.disk.statat (.layer 0) srcPath = .ok old ∧
          old.ino = st.ino ∧ old.dev = st.dev := by
    intro os st later holds returned
    obtain ⟨disk, ⟨part, located⟩, opened, linked⟩ := holds
    obtain ⟨asked, -⟩ := query_returns returned
    exact Disk.stat_of_linkat part located opened linked asked
  exact gives_lift asks start

/-! ## The nodes of `link` -/

/-- The name leads to no live node. -/
def Unused
    (forest : Forest)
    (parent : UInt64)
    (name : Name) : Prop :=
  ∀ dir id, forest.resolve parent = some dir →
    forest.nodes.Entry dir name id → ¬ forest.nodes.Live id

/-- A name that is free leaves tree and table as they are. -/
theorem gives_checkFree
    {start : Forest}
    (ok : start.Ok)
    (parent : UInt64)
    (name : Name) :
    Gives (CalmFrom start) (checkFree env parent name)
      fun _ sys => CalmFrom start sys ∧ Unused start parent name := by
  intro sys value later calm returned
  obtain ⟨found, middle, looked, rest⟩ :=
    Act.bind_returns (congrArg Prod.fst returned)
  unfold checkFree at returned
  rw [rest] at returned
  have traced :=
    @lookedUp_doLookupFile env sys.forest (calm.ok ok) parent name sys rfl
  rw [looked] at traced
  have kept : CalmFrom start middle → CalmFrom start later := by
    intro before
    have ends : Calm (do
        let present ← isPresent found
        Act.check (!present) .EEXIST : Daemon Unit) :=
      .bind (calm_isPresent found) fun present => .check _ _
    exact Gives.ofKeeps (ends start) middle value later before returned
  have now : LookedUp sys.forest parent name (.ok found) middle.forest :=
    traced
  generalize shape : middle.forest = forest at now
  have nodes : middle.nodes = forest.nodes := congrArg Forest.nodes shape
  have table : middle.inodes = forest.inodes := congrArg Forest.inodes shape
  have dead :
      ∀ id, found = some id → ¬ middle.nodes.Live id := by
    intro id same live
    subst same
    have present : isPresent (some id) middle = (.ok true, middle) := by
      rw [← NodeArena.containsKey_iff.mpr live]
      rfl
    rw [Act.bind_ok present] at returned
    cases returned
  have unused : CalmFrom start middle → Unused start parent name := by
    intro before dir id resolved entry live
    have again := @doLookupFile_cached env sys parent dir id name
      ((calm.resolve_eq parent).trans resolved) (calm.1.entry entry)
    rw [looked] at again
    cases again
    exact dead id rfl (before.1.live live)
  cases now with
  | nothing _ same =>
      have before : CalmFrom start middle :=
        ⟨calm.1.trans (nodes ▸ same), table.trans calm.2⟩
      exact ⟨kept before, unused before⟩
  | cached _ _ =>
      have before : CalmFrom start middle :=
        ⟨nodes ▸ calm.1, table.trans calm.2⟩
      exact ⟨kept before, unused before⟩
  | @adopted _ id _ _ adopted =>
      exact (dead id rfl (nodes ▸ adopted.live)).elim

/-- Both nodes of `link` are those of the numbers. -/
theorem gives_linkNodes
    {start : Forest}
    (ok : start.Ok)
    (ino newparent : UInt64)
    (newname : Name) :
    Gives (CalmFrom start) (linkNodes env ino newparent newname)
      fun nodes sys => CalmFrom start sys ∧
        start.resolve ino = some nodes.1 ∧
        start.resolve newparent = some nodes.2 ∧
        Unused start newparent newname := by
  have calm :
      ∀ {α : Type} {act : Daemon α}, Calm act →
        Gives (CalmFrom start) act fun _ => CalmFrom start :=
    fun calm => Gives.ofKeeps (calm start)
  refine Gives.bind (calm (.lift _)) fun _ => ?_
  refine Gives.getsBind fun resolved => ?_
  refine Gives.orFailBind fun src isSrc => ?_
  have source :
      ∀ sys, CalmFrom start sys ∧
        lookupNodeId sys.nodes sys.inodes ino = resolved →
        (start.resolve ino = some src) ∧ CalmFrom start sys := by
    intro sys holds
    refine ⟨?_, holds.1⟩
    rw [← holds.1.resolve_eq ino, ← isSrc]
    exact holds.2
  refine Gives.imp (Gives.given fun isSource => ?_) source
    fun _ _ holds => holds
  refine Gives.bind (calm (calm_getNodeUp src)) fun _ => ?_
  refine Gives.getsBind fun resolvedParent => ?_
  refine Gives.orFailBind fun dparent isParent => ?_
  have target :
      ∀ sys, CalmFrom start sys ∧
        lookupNodeId sys.nodes sys.inodes newparent = resolvedParent →
        (start.resolve newparent = some dparent) ∧ CalmFrom start sys := by
    intro sys holds
    refine ⟨?_, holds.1⟩
    rw [← holds.1.resolve_eq newparent, ← isParent]
    exact holds.2
  refine Gives.imp (Gives.given fun isTarget => ?_) target
    fun _ _ holds => holds
  refine Gives.bind (gives_checkFree ok newparent newname) fun _ => ?_
  refine Gives.imp (Gives.given fun unused => ?_) (fun _ holds => holds.symm)
    fun _ _ holds => holds
  refine Gives.bind (calm (calm_getNodeUp dparent)) fun _ => ?_
  exact Gives.pure fun sys before => ⟨before, isSource, isTarget, unused⟩

/-- The node that `create_and_register_child` makes for a file. -/
def newFile
    (parentId : NodeId)
    (name : Name)
    (st : Stat) :
    OvlNode :=
  { OvlNode.new name 0 st.ino st.dev false with
    parent := some parentId
    mode := st.mode }

/-- The state that a new name of a file leaves. -/
def withFile
    (sys : Sys)
    (parentId : NodeId)
    (name : Name)
    (st : Stat)
    (inodes : InodeTable) :
    Sys :=
  { sys with
    nodes := (sys.nodes.insert (newFile parentId name st)).2.modify parentId
      (·.insertChild name sys.nodes.nextId)
    inodes := inodes.incLookup ⟨st.ino, st.dev⟩ }

theorem createAndRegisterChild_returns
    {parentId : NodeId}
    {name : Name}
    {st : Stat}
    {sys later : Sys}
    {number : UInt64}
    (returned :
      createAndRegisterChild env parentId name st false sys =
        (.ok number, later)) :
    ∃ inodes,
      sys.inodes.register env.order
        (sys.nodes.insert (newFile parentId name st)).2 sys.nodes.nextId
        st.ino st.dev st.mode = some (number, inodes) ∧
      later = withFile sys parentId name st inodes := by
  unfold createAndRegisterChild at returned
  obtain ⟨childId, middle, inserted, rest⟩ :=
    Act.bind_returns (congrArg Prod.fst returned)
  rw [rest] at returned
  cases inserted
  obtain ⟨answer, middle, registered, rest⟩ :=
    Act.bind_returns (congrArg Prod.fst returned)
  rw [rest] at returned
  change register env sys.nodes.nextId st.ino st.dev st.mode
    { sys with nodes := (sys.nodes.insert (newFile parentId name st)).2 } =
      _ at registered
  unfold register at registered
  cases found : sys.inodes.register env.order
      (sys.nodes.insert (newFile parentId name st)).2 sys.nodes.nextId
      st.ino st.dev st.mode with
  | none =>
      simp only [found] at registered
      cases registered
      cases returned
  | some result =>
      simp only [found] at registered
      cases registered
      refine ⟨result.2, ?_⟩
      rw [Act.bind_ok (show Act.orFail (some result.1) Errno.ENOMEM _ =
        (.ok result.1, _) from rfl)] at returned
      rw [Act.bind_ok (show incLookup _ _ = (.ok (), _) from rfl)] at returned
      obtain ⟨parent, middle, asked, rest⟩ :=
        Act.bind_returns (congrArg Prod.fst returned)
      rw [rest] at returned
      cases asked
      obtain ⟨_, middle, checked, rest⟩ :=
        Act.bind_returns (congrArg Prod.fst returned)
      rw [rest] at returned
      obtain ⟨-, rfl⟩ := Act.check_returns checked
      cases returned
      exact ⟨rfl, rfl⟩

/-- The parts of a `link` that is replied. -/
theorem link_returns
    {ino newparent : UInt64}
    {newname : Name}
    {sys last : Sys}
    {st : Stat}
    (returned :
      link env ino newparent newname sys = (.ok (.entry st), last)) :
    ∃ src dparent ready found old inodes,
      linkNodes env ino newparent newname sys = (.ok (src, dparent), ready) ∧
      ready.os.disk.statat (.layer 0) (nodeParts ready.nodes src) = .ok old ∧
      old.ino = found.ino ∧ old.dev = found.dev ∧
      ready.inodes.register env.order
        (ready.nodes.insert (newFile dparent newname found)).2
        ready.nodes.nextId found.ino found.dev found.mode =
          some (st.ino, inodes) ∧
      last.forest = (withFile ready dparent newname found inodes).forest := by
  rw [link_eq] at returned
  obtain ⟨nodes, ready, prepared, rest⟩ :=
    Act.bind_returns (congrArg Prod.fst returned)
  rw [rest] at returned
  obtain ⟨src, dparent⟩ := nodes
  rw [Act.bind_ok (show nodePath src ready =
    (.ok (nodeParts ready.nodes src), ready) from rfl)] at returned
  rw [Act.bind_ok (show nodePath dparent ready =
    (.ok (nodeParts ready.nodes dparent), ready) from rfl)] at returned
  obtain ⟨found, now, linked, rest⟩ :=
    Act.bind_returns (congrArg Prod.fst returned)
  rw [rest] at returned
  obtain ⟨⟨os, rfl⟩, old, asked, sameIno, sameDev⟩ :=
    gives_linkOnDisk ready _ _ newname ready found now rfl linked
  obtain ⟨number, later, created, rest⟩ :=
    Act.bind_returns (congrArg Prod.fst returned)
  rw [rest] at returned
  cases returned
  obtain ⟨inodes, registered, rfl⟩ := createAndRegisterChild_returns created
  exact ⟨src, dparent, ready, found, old, inodes, prepared, asked, sameIno,
    sameDev, registered, rfl⟩

/-! ## The link count -/

/-- The arena with a file under a new name. -/
def extended
    (nodes : NodeArena)
    (parentId : NodeId)
    (name : Name) :
    NodeArena :=
  (nodes.insert { OvlNode.new name 0 0 0 false with
    parent := some parentId }).2

/-- A listed node that `register` takes for the new name. -/
def standsAtName
    (nodes : NodeArena)
    (parentId : NodeId)
    (name : Name)
    (id : NodeId) : Bool :=
  InodeTable.standsAt (extended nodes parentId name)
    (computePath (extended nodes parentId name) nodes.nextId) id

/-- Paths depend on names and parents only. -/
theorem collectParts_congr
    {first second : NodeArena}
    (same :
      ∀ id, (first.get? id).map (fun node => (node.parent, node.name)) =
        (second.get? id).map fun node => (node.parent, node.name))
    (fuel : Nat)
    (id : NodeId) :
    collectParts first fuel id = collectParts second fuel id := by
  induction fuel generalizing id with
  | zero =>
      rfl
  | succ fuel inductionHypothesis =>
      have here := same id
      unfold collectParts
      cases found : first.get? id with
      | none =>
          rw [found, Option.map_none, eq_comm, Option.map_eq_none_iff] at here
          rw [here]
      | some node =>
          rw [found, Option.map_some, eq_comm, Option.map_eq_some_iff] at here
          obtain ⟨other, otherFound, sameBoth⟩ := here
          obtain ⟨sameParent, sameName⟩ := Prod.mk.inj sameBoth
          rw [otherFound]
          simp only [sameParent, sameName, inductionHypothesis]

/-- The new name is compared the same way whatever `stat` reported. -/
theorem standsAt_newFile
    {nodes : NodeArena}
    (tree : nodes.Tree)
    (parentId : NodeId)
    (name : Name)
    (st : Stat)
    (id : NodeId) :
    InodeTable.standsAt (nodes.insert (newFile parentId name st)).2
        (computePath (nodes.insert (newFile parentId name st)).2
          nodes.nextId) id =
      standsAtName nodes parentId name id := by
  have reads :
      ∀ {β : Type} (read : OvlNode → β),
        read (newFile parentId name st) =
          read { OvlNode.new name 0 0 0 false with
            parent := some parentId } →
        ∀ query,
          ((nodes.insert (newFile parentId name st)).2.get? query).map read =
            ((extended nodes parentId name).get? query).map read := by
    intro β read alike query
    unfold extended
    rw [NodeArena.get?_insert, NodeArena.get?_insert]
    split
    · exact congrArg some alike
    · rfl
  have labels := reads (fun node => (node.parent, node.name)) rfl
  have free : nodes.map.get? nodes.nextId = none := by
    cases found : nodes.map.get? nodes.nextId with
    | none =>
        rfl
    | some node =>
        exact absurd (tree.bounded ⟨node, found⟩) (Nat.lt_irrefl _)
  have sizes :
      (nodes.insert (newFile parentId name st)).2.map.size =
        (extended nodes parentId name).map.size :=
    (FMap.size_set_of_absent free _).trans
      (FMap.size_set_of_absent free _).symm
  have paths :
      ∀ query,
        computePath (nodes.insert (newFile parentId name st)).2 query =
          computePath (extended nodes parentId name) query := by
    intro query
    have here := labels query
    unfold computePath nodeParts
    rw [sizes, collectParts_congr labels]
    cases found : (nodes.insert (newFile parentId name st)).2.get? query with
    | none =>
        rw [found, Option.map_none, eq_comm, Option.map_eq_none_iff] at here
        rw [here]
    | some node =>
        rw [found, Option.map_some, eq_comm, Option.map_eq_some_iff] at here
        obtain ⟨other, otherFound, sameBoth⟩ := here
        rw [otherFound]
        simp only [(Prod.mk.inj sameBoth).1]
  unfold standsAtName InodeTable.standsAt
  rw [paths, paths]
  have kinds := reads OvlNode.isDir rfl id
  cases found : (nodes.insert (newFile parentId name st)).2.get? id with
  | none =>
      rw [found, Option.map_none, eq_comm, Option.map_eq_none_iff] at kinds
      rw [kinds]
  | some node =>
      rw [found, Option.map_some, eq_comm, Option.map_eq_some_iff] at kinds
      obtain ⟨other, otherFound, sameKind⟩ := kinds
      rw [otherFound]
      simp only [sameKind]

theorem containsKey_withFile
    (sys : Sys)
    (parentId : NodeId)
    (name : Name)
    (st : Stat)
    (inodes : InodeTable)
    (id : NodeId) :
    (withFile sys parentId name st inodes).nodes.containsKey id = true ↔
      id = sys.nodes.nextId ∨ sys.nodes.containsKey id = true := by
  rw [NodeArena.containsKey_iff, NodeArena.containsKey_iff]
  exact NodeArena.live_modify.trans NodeArena.live_insert

/-- The links of the inode count the new name, unless it is taken. -/
theorem liveLinks_withFile
    {ready : Sys}
    (ok : ready.forest.Ok)
    {dparent listed : NodeId}
    {newname : Name}
    {st : Stat}
    {number : UInt64}
    {inodes : InodeTable}
    {entry : OvlIno}
    (stored : ready.inodes.table.get? ⟨st.ino, st.dev⟩ = some entry)
    (member : listed ∈ entry.nodes)
    (live : ready.nodes.containsKey listed = true)
    (registered :
      ready.inodes.register env.order
        (ready.nodes.insert (newFile dparent newname st)).2
        ready.nodes.nextId st.ino st.dev st.mode = some (number, inodes))
    {node : OvlNode}
    (sameKey : node.key = ⟨st.ino, st.dev⟩) :
    liveLinks (withFile ready dparent newname st inodes).nodes
        (withFile ready dparent newname st inodes).inodes node =
      (entry.nodes.filter ready.nodes.containsKey).length +
        if entry.nodes.any (standsAtName ready.nodes dparent newname) then 0
        else 1 := by
  have tree : ready.nodes.Tree := ok.tree
  have old :
      ∀ id ∈ entry.nodes, id ≠ ready.nodes.nextId :=
    fun id among => Nat.ne_of_lt (ok.listed stored among)
  have inserted :
      ∀ id, (ready.nodes.insert (newFile dparent newname st)).2.containsKey id
          = true ↔
        id = ready.nodes.nextId ∨ ready.nodes.containsKey id = true := by
    intro id
    rw [NodeArena.containsKey_iff, NodeArena.containsKey_iff]
    exact NodeArena.live_insert
  have sameLive :
      entry.nodes.filter
          (ready.nodes.insert (newFile dparent newname st)).2.containsKey =
        entry.nodes.filter ready.nodes.containsKey := by
    refine List.filter_congr fun id among => ?_
    rw [Bool.eq_iff_iff, inserted]
    exact or_iff_right (old id among)
  obtain ⟨-, changed, changedStored, -, nodes⟩ :=
    InodeTable.register_listed stored member ((inserted listed).mpr (.inr live))
      registered
  have taken :
      (entry.nodes.filter ready.nodes.containsKey).any
          (InodeTable.standsAt
            (ready.nodes.insert (newFile dparent newname st)).2
            (computePath (ready.nodes.insert (newFile dparent newname st)).2
              ready.nodes.nextId)) =
        entry.nodes.any (standsAtName ready.nodes dparent newname) := by
    rw [List.any_filter, Bool.eq_iff_iff, List.any_eq_true, List.any_eq_true]
    refine exists_congr fun id => and_congr_right fun among => ?_
    rw [standsAt_newFile tree, Bool.and_eq_true]
    refine and_iff_right_of_imp fun stands => ?_
    -- A node that stands somewhere is live.
    unfold standsAtName InodeTable.standsAt at stands
    cases found : (extended ready.nodes dparent newname).get? id with
    | none =>
        rw [found] at stands
        cases stands
    | some other =>
        unfold extended at found
        rw [NodeArena.get?_insert, if_neg (old id among)] at found
        exact NodeArena.containsKey_iff.mpr ⟨other, found⟩
  rw [sameLive, taken] at nodes
  have counted :
      ((withFile ready dparent newname st inodes).inodes.getByKey
        ⟨st.ino, st.dev⟩).map OvlIno.nodes = some changed.nodes := by
    unfold withFile InodeTable.getByKey InodeTable.incLookup
    simp only [FMap.get?_modify, ↓reduceIte, changedStored, Option.map_some]
  obtain ⟨final, finalStored, sameNodes⟩ := Option.map_eq_some_iff.mp counted
  have asks :
      liveLinks (withFile ready dparent newname st inodes).nodes
          (withFile ready dparent newname st inodes).inodes node =
        (changed.nodes.filter
          (withFile ready dparent newname st inodes).nodes.containsKey
          ).length := by
    unfold liveLinks
    rw [show (⟨node.tmpIno, node.tmpDev⟩ : InodeKey) = ⟨st.ino, st.dev⟩ from
      sameKey, finalStored]
    simp only [sameNodes]
  have allLive :
      ∀ id ∈ entry.nodes.filter ready.nodes.containsKey,
        (withFile ready dparent newname st inodes).nodes.containsKey id =
          true :=
    fun id among => (containsKey_withFile ..).mpr
      (.inr (List.mem_filter.mp among).2)
  rw [asks, nodes]
  split
  · rw [List.filter_eq_self.mpr allLive, Nat.add_zero]
  · have fresh : ready.nodes.nextId ∉
        entry.nodes.filter ready.nodes.containsKey :=
      fun among => old _ (List.mem_filter.mp among).1 rfl
    have placed := env.order.placePerm ready.nodes.nextId
      (entry.nodes.filter ready.nodes.containsKey)
    have all :
        ∀ id ∈ env.order.place ready.nodes.nextId
            (entry.nodes.filter ready.nodes.containsKey),
          (withFile ready dparent newname st inodes).nodes.containsKey id =
            true := by
      intro id among
      rcases List.mem_cons.mp (placed.mem_iff.mp among) with same | among
      · exact (containsKey_withFile ..).mpr (.inl same)
      · exact allLive id among
    unfold HashOrder.insert
    rw [if_neg fresh, List.filter_eq_self.mpr all, placed.length_eq]
    rfl

/-! ## What the names are looked up as -/

/-- A cached name of a file whose number has a live node. -/
structure Answers
    (ino parent : UInt64)
    (name : Name)
    (pnode id : NodeId)
    (node : OvlNode)
    (entry : OvlIno)
    (forest : Forest) : Prop where
  resolved : forest.resolve parent = some pnode
  child : forest.nodes.Entry pnode name id
  stored : forest.nodes.get? id = some node
  isFile : node.isDir = false
  numbered : node.tmpIno ≠ 0
  listed : forest.inodes.table.get? node.key = some entry
  number : entry.fuseIno = ino
  live : ∃ other ∈ entry.nodes, forest.nodes.Live other

section Answers

variable
  {ino parent : UInt64}
  {name : Name}
  {pnode id : NodeId}
  {node : OvlNode}
  {entry : OvlIno}

theorem Answers.sameShape
    {start : Forest}
    (answers : Answers ino parent name pnode id node entry start)
    {sys : Sys}
    (calm : CalmFrom start sys) :
    ∃ found, Answers ino parent name pnode id found entry sys.forest := by
  obtain ⟨found, foundStored, shape⟩ := calm.1.get?_of_get? answers.stored
  have sameIno : found.tmpIno = node.tmpIno :=
    congrArg (·.2.2.2.2.1) shape
  have sameKey : found.key = node.key := by
    unfold OvlNode.key
    rw [sameIno, show found.tmpDev = node.tmpDev from
      congrArg (·.2.2.2.2.2) shape]
  obtain ⟨other, member, live⟩ := answers.live
  refine ⟨found, ?_, calm.1.entry answers.child, foundStored, ?_, ?_, ?_,
    answers.number, other, member, calm.1.live live⟩
  · rw [calm.resolve_eq]
    exact answers.resolved
  · rw [OvlNode.isDir_of_shape shape]
    exact answers.isFile
  · rw [sameIno]
    exact answers.numbered
  · change sys.inodes.table.get? found.key = some entry
    rw [sameKey, calm.2]
    exact answers.listed

/-- The fast path answers with the number or leaves everything. -/
theorem lookupFast_answers
    {sys later : Sys}
    (answers : Answers ino parent name pnode id node entry sys.forest)
    {fast : Option Reply}
    (returned : lookupFast env parent name sys = (.ok fast, later)) :
    (fast = none ∧ CalmFrom sys.forest later) ∨
      ∃ st : Stat, fast = some (.entry st) ∧ st.ino = ino := by
  have calm : CalmFrom sys.forest sys := ⟨NodeArena.SameShape.refl _, rfl⟩
  obtain ⟨above, aboveStored, isChild⟩ := answers.child
  have stored : sys.nodes.get? id = some node := answers.stored
  unfold lookupFast at returned
  rw [Act.bind_ok (show resolveIno parent sys = (.ok (some pnode), sys) by
    rw [← answers.resolved]; rfl)] at returned
  simp only at returned
  rw [Act.bind_ok (show getNode pnode sys = (.ok (some above), sys) by
    rw [← aboveStored]; rfl)] at returned
  obtain ⟨_, middle, checked, rest⟩ :=
    Act.bind_returns (congrArg Prod.fst returned)
  simp only at returned
  rw [rest] at returned
  obtain ⟨-, rfl⟩ := Act.check_returns checked
  rw [isChild] at returned
  simp only at returned
  obtain ⟨found, middle, asked, rest⟩ :=
    Act.bind_returns (congrArg Prod.fst returned)
  rw [rest] at returned
  obtain ⟨isFound, rfl⟩ := node_returns asked
  rw [stored] at isFound
  cases isFound
  obtain ⟨_, middle, checked, rest⟩ :=
    Act.bind_returns (congrArg Prod.fst returned)
  rw [rest] at returned
  obtain ⟨-, rfl⟩ := Act.check_returns checked
  rw [Act.bind_ok (show Act.gets (fun sys : Sys =>
      sys.inodes.getByKey ⟨node.tmpIno, node.tmpDev⟩) middle =
    (.ok (some entry), middle) by
      rw [← show middle.inodes.getByKey node.key = some entry from
        answers.listed]
      rfl)] at returned
  simp only at returned
  split at returned
  · rw [Act.bind_ok (show nodePath id middle =
      (.ok (nodeParts middle.nodes id), middle) from rfl)] at returned
    obtain ⟨outcome, now, asked, rest⟩ :=
      Act.bind_returns (congrArg Prod.fst returned)
    rw [rest] at returned
    have quiet := Gives.ofKeeps
      ((Calm.attempt (.rplStatWithPath id _)) middle.forest) middle outcome
      now calm asked
    cases outcome with
    | error errno =>
        cases returned
        exact .inl ⟨rfl, quiet⟩
    | ok st =>
        cases returned
        exact .inr ⟨_, rfl, answers.number⟩
  · cases returned
    exact .inl ⟨rfl, calm⟩

/-- The slow path answers with the number. -/
theorem lookupSlow_answers
    {sys later : Sys}
    (answers : Answers ino parent name pnode id node entry sys.forest)
    {reply : Reply}
    (returned : lookupSlow env parent name sys = (.ok reply, later)) :
    ∃ st : Stat, reply = .entry st ∧ st.ino = ino := by
  have calm : CalmFrom sys.forest sys := ⟨NodeArena.SameShape.refl _, rfl⟩
  have stored : sys.nodes.get? id = some node := answers.stored
  unfold lookupSlow at returned
  rw [Act.bind_ok (doLookupFile_cached answers.resolved answers.child)]
    at returned
  have present := presentOr_apply id .ENOENT sys
  rw [if_pos (NodeArena.containsKey_iff.mpr ⟨node, stored⟩)] at present
  rw [Act.bind_ok present] at returned
  obtain ⟨before, middle, asked, rest⟩ :=
    Act.bind_returns (congrArg Prod.fst returned)
  rw [rest] at returned
  obtain ⟨isNode, rfl⟩ := node_returns asked
  rw [stored] at isNode
  cases isNode
  simp only [answers.isFile, Bool.and_false] at returned
  rw [Act.bind_ok (show Act.runIf false _ middle = (.ok (), middle) from
    rfl)] at returned
  obtain ⟨st, now, asked, rest⟩ :=
    Act.bind_returns (congrArg Prod.fst returned)
  rw [rest] at returned
  have quiet := Gives.ofKeeps ((Calm.rplStat id) middle.forest) middle st now
    calm asked
  obtain ⟨found, answersNow⟩ := answers.sameShape quiet
  obtain ⟨isFound, same, asked, rest⟩ :=
    Act.bind_returns (congrArg Prod.fst returned)
  rw [rest] at returned
  obtain ⟨foundStored, rfl⟩ := node_returns asked
  have isSame : isFound = found :=
    Option.some.inj (foundStored.symm.trans answersNow.stored)
  subst isSame
  obtain ⟨number, last, numbered, rest⟩ :=
    Act.bind_returns (congrArg Prod.fst returned)
  rw [rest] at returned
  cases returned
  refine ⟨_, rfl, ?_⟩
  obtain ⟨other, member, live⟩ := answersNow.live
  unfold lookupIno at numbered
  rw [if_pos (.inl answersNow.numbered)] at numbered
  obtain ⟨answer, middle, registered, rest⟩ :=
    Act.bind_returns (congrArg Prod.fst numbered)
  rw [rest] at numbered
  unfold register at registered
  cases ran : same.inodes.register env.order same.nodes id isFound.tmpIno
      isFound.tmpDev st.mode with
  | none =>
      simp only [ran] at registered
      cases registered
      cases numbered
  | some result =>
      simp only [ran] at registered
      cases registered
      cases numbered
      rw [← answersNow.number]
      exact (InodeTable.register_listed answersNow.listed member
        (NodeArena.containsKey_iff.mpr live) ran).1

/-- The answer of `lookup`, by either path. -/
theorem lookup_answers
    {sys later : Sys}
    (answers : Answers ino parent name pnode id node entry sys.forest)
    {st : Stat}
    (returned : lookup env parent name sys = (.ok (.entry st), later)) :
    st.ino = ino := by
  unfold lookup at returned
  obtain ⟨_, middle, checked, rest⟩ :=
    Act.bind_returns (congrArg Prod.fst returned)
  rw [rest] at returned
  obtain ⟨-, rfl⟩ := Act.check_returns checked
  obtain ⟨fast, now, ran, rest⟩ :=
    Act.bind_returns (congrArg Prod.fst returned)
  rw [rest] at returned
  rcases lookupFast_answers answers ran with
    ⟨rfl, calm⟩ | ⟨found, rfl, isNumber⟩
  · obtain ⟨again, answersNow⟩ := answers.sameShape calm
    obtain ⟨found, same, isNumber⟩ := lookupSlow_answers answersNow returned
    cases same
    exact isNumber
  · cases returned
    exact isNumber

end Answers

/-! ## The state with the new name -/

section NewName

variable
  {ready : Sys}
  (ok : ready.forest.Ok)
  {dparent : NodeId}
  {newparent : UInt64}
  {newname : Name}
  (aims : ready.forest.resolve newparent = some dparent)
  {st : Stat}
  {number : UInt64}
  {inodes : InodeTable}
  (registered :
    ready.inodes.register env.order
      (ready.nodes.insert (newFile dparent newname st)).2
      ready.nodes.nextId st.ino st.dev st.mode = some (number, inodes))

include ok registered

theorem resolve_withFile
    {parent : UInt64}
    {pnode : NodeId}
    (resolved : ready.forest.resolve parent = some pnode)
    (isDir : ready.nodes.DirNode pnode) :
    (withFile ready dparent newname st inodes).forest.resolve parent =
      some pnode := by
  have inserted :
      Forest.resolve
          ⟨(ready.nodes.insert (newFile dparent newname st)).2,
            ready.inodes⟩ parent = some pnode :=
    (Forest.Sound.resolve_insert ok _ parent).trans resolved
  have stillDir :
      (ready.nodes.insert (newFile dparent newname st)).2.DirNode pnode := by
    obtain ⟨above, aboveStored, aboveDir⟩ := isDir
    refine ⟨above, ?_, aboveDir⟩
    have bound : pnode < ready.nodes.nextId :=
      ok.tree.bounded ⟨above, aboveStored⟩
    rw [NodeArena.get?_insert, if_neg (Nat.ne_of_lt bound)]
    exact aboveStored
  have listed :
      Forest.resolve
          ⟨(ready.nodes.insert (newFile dparent newname st)).2, inodes⟩
          parent = some pnode := by
    rcases Forest.resolve_register registered inserted with kept | ⟨noDir, -⟩
    · exact kept
    · exact (noDir stillDir).elim
  have counted := (Forest.resolve_incLookup
    (ready.nodes.insert (newFile dparent newname st)).2 inodes
    ⟨st.ino, st.dev⟩ parent).trans listed
  exact (Forest.resolve_modify ..).trans counted

omit ok in
/-- The entry of a number keeps it, with a live node. -/
theorem listed_withFile
    {key : InodeKey}
    {entry : OvlIno}
    (stored : ready.inodes.table.get? key = some entry)
    (live : ∃ other ∈ entry.nodes, ready.nodes.Live other) :
    ∃ changed,
      (withFile ready dparent newname st inodes).inodes.table.get? key =
        some changed ∧ changed.fuseIno = entry.fuseIno ∧
      ∃ other ∈ changed.nodes,
        (withFile ready dparent newname st inodes).nodes.Live other := by
  obtain ⟨other, member, otherLive⟩ := live
  have stillLive :
      (withFile ready dparent newname st inodes).nodes.Live other :=
    NodeArena.live_modify.mpr (NodeArena.live_insert.mpr (.inr otherLive))
  have held :
      (ready.nodes.insert (newFile dparent newname st)).2.containsKey other =
        true :=
    NodeArena.containsKey_iff.mpr (NodeArena.live_insert.mpr (.inr otherLive))
  have known :
      ∃ found, inodes.table.get? key = some found ∧
        found.fuseIno = entry.fuseIno ∧ other ∈ found.nodes := by
    by_cases same : key = ⟨st.ino, st.dev⟩
    · subst same
      obtain ⟨-, changed, changedStored, sameNumber, nodes⟩ :=
        InodeTable.register_listed stored member held registered
      refine ⟨changed, changedStored, sameNumber, ?_⟩
      have kept := List.mem_filter.mpr ⟨member, held⟩
      rw [nodes]
      split
      · exact kept
      · rw [HashOrder.mem_insert]
        exact .inr kept
    · have others := (InodeTable.register_effect registered).1 key same
      exact ⟨entry, others.trans stored, rfl, member⟩
  obtain ⟨found, foundStored, sameNumber, foundMember⟩ := known
  change ∃ changed,
    (inodes.table.modify _ _).get? key = some changed ∧ _ ∧ _
  rw [FMap.get?_modify]
  split
  · next same =>
      subst same
      rw [foundStored]
      exact ⟨_, rfl, sameNumber, other, foundMember, stillLive⟩
  · exact ⟨found, foundStored, sameNumber, other, foundMember, stillLive⟩

include aims

/-- A new name leaves the answers for the others. -/
theorem Answers.withFile
    {ino parent : UInt64}
    {name : Name}
    {pnode id : NodeId}
    {node : OvlNode}
    {entry : OvlIno}
    (answers : Answers ino parent name pnode id node entry ready.forest)
    (unused : Unused ready.forest newparent newname) :
    ∃ found changed, found.key = node.key ∧
      Answers ino parent name pnode id found changed
        (Daemon.withFile ready dparent newname st inodes).forest := by
  have stored : ready.nodes.get? id = some node := answers.stored
  have child : ready.nodes.Entry pnode name id := answers.child
  have bound : id < ready.nodes.nextId := ok.tree.bounded ⟨node, stored⟩
  have parentBound : pnode < ready.nodes.nextId := by
    obtain ⟨above, aboveStored, -⟩ := child
    exact ok.tree.bounded ⟨above, aboveStored⟩
  obtain ⟨changed, listed, sameNumber, live⟩ :=
    listed_withFile registered answers.listed answers.live
  have now :
      ∃ found,
        (Daemon.withFile ready dparent newname st inodes).nodes.get? id =
          some found ∧ found.key = node.key ∧ found.isDir = node.isDir := by
    change ∃ found, ((ready.nodes.insert _).2.modify dparent _).get? id =
      some found ∧ _
    rw [NodeArena.get?_modify, NodeArena.get?_insert, NodeArena.get?_insert,
      if_neg (Nat.ne_of_lt bound), stored]
    split
    · next same =>
        subst same
        rw [if_neg (Nat.ne_of_lt bound), stored]
        exact ⟨_, rfl, OvlNode.key_insertChild .., OvlNode.isDir_insertChild ..⟩
    · exact ⟨node, rfl, rfl, rfl⟩
  obtain ⟨found, foundStored, sameKey, sameKind⟩ := now
  refine ⟨found, changed, sameKey, ?_, ?_, foundStored, ?_, ?_, ?_, ?_, live⟩
  · exact resolve_withFile ok registered answers.resolved child.dirNode
  · refine NodeArena.TreeBut.entry_attach.mpr (.inr ⟨fun both => ?_,
      NodeArena.entry_insert.mpr (.inr ⟨Nat.ne_of_lt parentBound, child⟩)⟩)
    obtain ⟨rfl, rfl⟩ := both
    exact unused pnode id aims child ⟨node, stored⟩
  · rw [sameKind]
    exact answers.isFile
  · rw [show found.tmpIno = node.tmpIno from congrArg InodeKey.ino sameKey]
    exact answers.numbered
  · rw [sameKey]
    exact listed
  · rw [sameNumber]
    exact answers.number

/-- The new name has the number of the entry it is registered under. -/
theorem answers_newFile
    (isDir : ready.nodes.DirNode dparent)
    (numbered : st.ino ≠ 0)
    {entry : OvlIno}
    (stored : ready.inodes.table.get? ⟨st.ino, st.dev⟩ = some entry)
    (live : ∃ other ∈ entry.nodes, ready.nodes.Live other) :
    ∃ found changed, Answers entry.fuseIno newparent newname dparent
      ready.nodes.nextId found changed
      (withFile ready dparent newname st inodes).forest := by
  obtain ⟨changed, listed, sameNumber, stillLive⟩ :=
    listed_withFile registered stored live
  have apart : ready.nodes.nextId ≠ dparent := by
    obtain ⟨above, aboveStored, -⟩ := isDir
    exact Nat.ne_of_gt (ok.tree.bounded ⟨above, aboveStored⟩)
  have inserted :
      (ready.nodes.insert (newFile dparent newname st)).2.DirNode dparent := by
    obtain ⟨above, aboveStored, aboveDir⟩ := isDir
    refine ⟨above, ?_, aboveDir⟩
    rw [NodeArena.get?_insert, if_neg apart.symm]
    exact aboveStored
  have foundStored :
      (withFile ready dparent newname st inodes).nodes.get?
        ready.nodes.nextId = some (newFile dparent newname st) := by
    change ((ready.nodes.insert _).2.modify dparent _).get? _ = _
    rw [NodeArena.get?_modify, if_neg apart, NodeArena.get?_insert,
      if_pos rfl]
  exact ⟨newFile dparent newname st, changed,
    resolve_withFile ok registered aims isDir,
    NodeArena.TreeBut.entry_attach.mpr (.inl ⟨rfl, inserted, rfl, rfl⟩),
    foundStored, rfl, numbered, listed, sameNumber, stillLive⟩

end NewName

end Daemon

/-! ## Every run keeps the table consistent -/

/-- Linking and unlinking nodes keeps the table consistent. -/
theorem InodeTable.Consistent.rule :
    TableRule Consistent where
  register consistent registered := (consistent.register registered).1
  removeNodeId consistent := consistent.removeNodeId _ _

namespace Daemon

variable {env : Env}

/-- A request keeps the table consistent. -/
theorem consistent_step
    {sys : Sys}
    {call : Call}
    (consistent : sys.inodes.Consistent) :
    (sys.step env call).2.inodes.Consistent := by
  have rule := @linkRule_of_tableRule env _ InodeTable.Consistent.rule
  unfold Sys.step
  cases grows : removesNode call.request with
  | false =>
      exact (rule.growth fun key _ holds => holds.incLookup key).handle grows
        (fun _ _ _ holds => holds) (sys.begin call) consistent
  | true =>
      cases request : call.request with
      | forget ino nlookup =>
          exact consistent.forget ino nlookup
      | unlink parent name =>
          exact rule.doRm parent name false
            (sys.begin call) consistent
      | rmdir parent name =>
          exact rule.doRm parent name true
            (sys.begin call) consistent
      | rename parent name newparent newname flags =>
          exact rule.rename parent name newparent newname flags
            (sys.begin call) consistent
      | _ =>
          rw [request] at grows
          cases grows

theorem consistent_run
    {sys : Sys}
    (consistent : sys.inodes.Consistent)
    (calls : List Call) :
    (sys.run env calls).inodes.Consistent := by
  induction calls generalizing sys with
  | nil =>
      exact consistent
  | cons call rest inductionHypothesis =>
      exact inductionHypothesis (consistent_step consistent)

end Daemon

/-! ## What `link` promises -/

namespace Sys

open Daemon

/-- A name leads to a file that is registered under the number. -/
structure Shows
    (sys : Sys)
    (ino parent : UInt64)
    (name : Name)
    (id : NodeId) : Prop where
  placed :
    ∃ pnode, sys.forest.resolve parent = some pnode ∧
      sys.nodes.Entry pnode name id
  numbered :
    ∃ node entry, sys.nodes.get? id = some node ∧ node.isDir = false ∧
      node.tmpIno ≠ 0 ∧ sys.inodes.table.get? node.key = some entry ∧
      entry.fuseIno = ino

/-- The link count replied for a node that has `onDisk` links on its layer. -/
def reportedLinks
    (env : Env)
    (sys : Sys)
    (id : NodeId)
    (onDisk : Nat) : Nat :=
  ((sys.nodes.get? id).map (replyNlink env sys · onDisk)).getD onDisk

/-- The new name is one more name of the same inode. -/
structure HardLinked
    (env : Env)
    (before after : Sys)
    (ino newparent : UInt64)
    (newname : Name)
    (number : UInt64) : Prop where
  number : number = ino
  newName :
    ∀ call st, call.request = .lookup newparent newname →
      (after.step env call).1 = .ok (.entry st) → st.ino = ino
  oldNames :
    ∀ parent name id call st, before.Shows ino parent name id →
      call.request = .lookup parent name →
      (after.step env call).1 = .ok (.entry st) → st.ino = ino
  links :
    ∀ parent name id parent' name' id' onDisk onDisk',
      before.Shows ino parent name id → after.Shows ino parent' name' id' →
      after.reportedLinks env id' onDisk' =
        before.reportedLinks env id onDisk + 1

/--
With both nodes upper, the object of the source has the key of the number, and
`register` takes no listed node for the new name.
-/
structure Linkable
    (ready : Sys)
    (ino : UInt64)
    (newname : Name)
    (src dparent : NodeId) : Prop where
  key :
    ∃ st, ready.os.disk.statat (.layer 0) (nodeParts ready.nodes src) =
        .ok st ∧
      ready.inodes.fuseMap.get? ino = some ⟨st.ino, st.dev⟩
  place :
    ∀ entry, ready.inodes.fuseToIno ino = some entry →
      entry.nodes.any (standsAtName ready.nodes dparent newname) = false

variable {env : Env}

/-- The entry that a shown file has. -/
theorem Shows.listed
    {sys : Sys}
    {ino parent : UInt64}
    {name : Name}
    {id : NodeId}
    (shown : sys.Shows ino parent name id)
    (consistent : sys.inodes.Consistent)
    {key : InodeKey}
    {entry : OvlIno}
    (number : sys.inodes.fuseMap.get? ino = some key)
    (stored : sys.inodes.table.get? key = some entry) :
    ∃ node, sys.nodes.get? id = some node ∧ node.isDir = false ∧
      node.tmpIno ≠ 0 ∧ node.key = key ∧ entry.fuseIno = ino := by
  obtain ⟨node, found, isNode, isFile, numbered, foundStored, isNumber⟩ :=
    shown.numbered
  have back := (consistent.numbered _ _ foundStored).2
  rw [isNumber, number] at back
  obtain rfl := Option.some.inj back
  rw [stored] at foundStored
  obtain rfl := Option.some.inj foundStored
  exact ⟨node, isNode, isFile, numbered, rfl, isNumber⟩

/-- The count of a file with a live node in its entry. -/
theorem reportedLinks_eq
    {sys : Sys}
    {id : NodeId}
    {node : OvlNode}
    (stored : sys.nodes.get? id = some node)
    (isFile : node.isDir = false)
    (numbered : node.tmpIno ≠ 0)
    (some : 0 < liveLinks sys.nodes sys.inodes node)
    (onDisk : Nat) :
    sys.reportedLinks env id onDisk =
      liveLinks sys.nodes sys.inodes node := by
  have unloaded : node.isLoaded = false := by
    unfold OvlNode.isDir at isFile
    unfold OvlNode.isLoaded
    cases kind : node.dirState with
    | notADir =>
        rfl
    | dir children whiteouts loaded =>
        rw [kind] at isFile
        cases isFile
  unfold reportedLinks
  rw [stored, Option.map_some, Option.getD_some]
  unfold replyNlink
  rw [unloaded, isFile]
  simp only [Bool.false_and, Bool.false_eq_true, ↓reduceIte]
  exact if_pos ⟨numbered, some⟩

/-- A `link` that is replied, up to its registration. -/
structure Linking
    (env : Env)
    (sys ready : Sys)
    (ino newparent : UInt64)
    (newname : Name)
    (src dparent : NodeId)
    (key : InodeKey)
    (entry : OvlIno)
    (st : Stat)
    (number : UInt64)
    (inodes : InodeTable) : Prop where
  tree : TreeOk sys
  consistent : sys.inodes.Consistent
  calm : CalmFrom sys.forest ready
  aims : sys.forest.resolve newparent = some dparent
  isDir : sys.nodes.DirNode dparent
  unused : Unused sys.forest newparent newname
  mapped : sys.inodes.fuseMap.get? ino = some key
  stored : sys.inodes.table.get? key = some entry
  isNumber : entry.fuseIno = ino
  member : src ∈ entry.nodes
  live : sys.nodes.Live src
  registered :
    ready.inodes.register env.order
      (ready.nodes.insert (newFile dparent newname st)).2
      ready.nodes.nextId st.ino st.dev st.mode = some (number, inodes)

namespace Linking

variable
  {sys ready : Sys}
  {ino newparent : UInt64}
  {newname : Name}
  {src dparent : NodeId}
  {key : InodeKey}
  {entry : OvlIno}
  {st : Stat}
  {number : UInt64}
  {inodes : InodeTable}
  (linking :
    Linking env sys ready ino newparent newname src dparent key entry st
      number inodes)

include linking

theorem readyStored :
    ready.inodes.table.get? key = some entry := by
  have same : ready.inodes = sys.inodes := linking.calm.2
  rw [same]
  exact linking.stored

theorem readyLive : ready.nodes.Live src :=
  linking.calm.1.live linking.live

theorem readyAims :
    ready.forest.resolve newparent = some dparent := by
  rw [linking.calm.resolve_eq]
  exact linking.aims

theorem readyDir : ready.nodes.DirNode dparent :=
  linking.calm.1.dirNode linking.isDir

theorem readyUnused : Unused ready.forest newparent newname := by
  intro dir id resolved child live
  rw [linking.calm.resolve_eq] at resolved
  exact linking.unused dir id resolved (linking.calm.1.symm.entry child)
    (linking.calm.1.symm.live live)

theorem number_iff :
    number = ino ↔ key = ⟨st.ino, st.dev⟩ := by
  have consistent : ready.inodes.Consistent := by
    have same : ready.inodes = sys.inodes := linking.calm.2
    rw [same]
    exact linking.consistent
  have inserted :
      (ready.nodes.insert (newFile dparent newname st)).2.containsKey src =
        true :=
    NodeArena.containsKey_iff.mpr
      (NodeArena.live_insert.mpr (.inr linking.readyLive))
  rw [← linking.isNumber]
  exact InodeTable.register_number_iff consistent linking.readyStored
    linking.member inserted linking.registered

/-- The count before the call is that of the live nodes. -/
theorem reported_before
    {parent : UInt64}
    {name : Name}
    {id : NodeId}
    (shown : sys.Shows ino parent name id)
    (onDisk : Nat) :
    sys.reportedLinks env id onDisk =
      (entry.nodes.filter ready.nodes.containsKey).length := by
  obtain ⟨node, stored, isFile, numbered, sameKey, -⟩ :=
    shown.listed linking.consistent linking.mapped linking.stored
  have sameLive :
      entry.nodes.filter sys.nodes.containsKey =
        entry.nodes.filter ready.nodes.containsKey := by
    refine List.filter_congr fun id _ => ?_
    rw [Bool.eq_iff_iff, NodeArena.containsKey_iff,
      NodeArena.containsKey_iff]
    exact linking.calm.1.live_iff.symm
  have counted :
      liveLinks sys.nodes sys.inodes node =
        (entry.nodes.filter ready.nodes.containsKey).length := by
    unfold liveLinks
    rw [show (⟨node.tmpIno, node.tmpDev⟩ : InodeKey) = key from sameKey,
      show sys.inodes.getByKey key = some entry from linking.stored]
    exact congrArg List.length sameLive
  have some : 0 < liveLinks sys.nodes sys.inodes node := by
    rw [counted]
    exact List.length_pos_of_mem (List.mem_filter.mpr
      ⟨linking.member, NodeArena.containsKey_iff.mpr linking.readyLive⟩)
  rw [reportedLinks_eq stored isFile numbered some, counted]

/-- A name of the file still leads to the number. -/
theorem answers_old
    {parent : UInt64}
    {name : Name}
    {id : NodeId}
    (shown : sys.Shows ino parent name id) :
    ∃ pnode node changed, Answers ino parent name pnode id node changed
      (withFile ready dparent newname st inodes).forest := by
  obtain ⟨node, stored, isFile, numbered, sameKey, isNumber⟩ :=
    shown.listed linking.consistent linking.mapped linking.stored
  obtain ⟨pnode, resolved, child⟩ := shown.placed
  have listed : sys.inodes.table.get? node.key = some entry := by
    rw [sameKey]
    exact linking.stored
  have answers : Answers ino parent name pnode id node entry sys.forest :=
    ⟨resolved, child, stored, isFile, numbered, listed, isNumber, src,
      linking.member, linking.live⟩
  obtain ⟨now, answersNow⟩ := answers.sameShape linking.calm
  obtain ⟨found, changed, -, answersThen⟩ :=
    answersNow.withFile (linking.calm.ok linking.tree) linking.readyAims
      linking.registered linking.readyUnused
  exact ⟨pnode, found, changed, answersThen⟩

/-- With one key, the new name leads to the number too. -/
theorem answers_new
    {parent : UInt64}
    {name : Name}
    {id : NodeId}
    (shown : sys.Shows ino parent name id)
    (same : key = ⟨st.ino, st.dev⟩) :
    ∃ node changed, Answers ino newparent newname dparent ready.nodes.nextId
      node changed (withFile ready dparent newname st inodes).forest := by
  obtain ⟨node, -, -, numbered, sameKey, -⟩ :=
    shown.listed linking.consistent linking.mapped linking.stored
  have isIno : node.tmpIno = st.ino :=
    congrArg InodeKey.ino (sameKey.trans same)
  have stored : ready.inodes.table.get? ⟨st.ino, st.dev⟩ = some entry := by
    rw [← same]
    exact linking.readyStored
  rw [← linking.isNumber]
  exact answers_newFile (linking.calm.ok linking.tree) linking.readyAims
    linking.registered linking.readyDir (isIno ▸ numbered) stored
    ⟨src, linking.member, linking.readyLive⟩

/-- The count after the call, with one key. -/
theorem reported_after
    (same : key = ⟨st.ino, st.dev⟩)
    {after : Sys}
    (left :
      after.forest = (withFile ready dparent newname st inodes).forest)
    (consistent : after.inodes.Consistent)
    {parent : UInt64}
    {name : Name}
    {id : NodeId}
    (shown : after.Shows ino parent name id)
    (onDisk : Nat) :
    after.reportedLinks env id onDisk =
      (entry.nodes.filter ready.nodes.containsKey).length +
        if entry.nodes.any (standsAtName ready.nodes dparent newname) then 0
        else 1 := by
  have nodes := congrArg Forest.nodes left
  have table := congrArg Forest.inodes left
  obtain ⟨changed, listed, sameNumber, -⟩ :=
    listed_withFile linking.registered linking.readyStored
      ⟨src, linking.member, linking.readyLive⟩
  have stored : after.inodes.table.get? key = some changed := by
    rw [show after.inodes = _ from table]
    exact listed
  have mapped : after.inodes.fuseMap.get? ino = some key := by
    rw [← linking.isNumber, ← sameNumber]
    exact (consistent.numbered key changed stored).2
  obtain ⟨node, isNode, isFile, numbered, sameKey, -⟩ :=
    shown.listed consistent mapped stored
  have readyStored :
      ready.inodes.table.get? ⟨st.ino, st.dev⟩ = some entry := by
    rw [← same]
    exact linking.readyStored
  have live := NodeArena.containsKey_iff.mpr linking.readyLive
  have counted :
      liveLinks after.nodes after.inodes node =
        (entry.nodes.filter ready.nodes.containsKey).length +
          if entry.nodes.any (standsAtName ready.nodes dparent newname) then 0
          else 1 := by
    rw [show after.nodes = _ from nodes, show after.inodes = _ from table]
    exact liveLinks_withFile (linking.calm.ok linking.tree) readyStored
      linking.member live linking.registered (sameKey.trans same)
  have some : 0 < liveLinks after.nodes after.inodes node := by
    have one : 0 < (entry.nodes.filter ready.nodes.containsKey).length :=
      List.length_pos_of_mem (List.mem_filter.mpr ⟨linking.member, live⟩)
    rw [counted]
    omega
  rw [reportedLinks_eq isNode isFile numbered some, counted]

/-- What `link` promises, by the key and by the nodes of the number. -/
theorem hardLinked_iff
    {parent : UInt64}
    {name : Name}
    {id : NodeId}
    (shown : sys.Shows ino parent name id)
    {after : Sys}
    (left :
      after.forest = (withFile ready dparent newname st inodes).forest)
    (consistent : after.inodes.Consistent) :
    HardLinked env sys after ino newparent newname number ↔
      key = ⟨st.ino, st.dev⟩ ∧
        entry.nodes.any (standsAtName ready.nodes dparent newname) =
          false := by
  have answered :
      ∀ {parent name pnode id node changed} call reply,
        Answers ino parent name pnode id node changed
          (withFile ready dparent newname st inodes).forest →
        call.request = .lookup parent name →
        (after.step env call).1 = .ok (.entry reply) → reply.ino = ino := by
    intro parent name pnode id node changed call reply answers asked replied
    rw [← left] at answers
    unfold step at replied
    rw [asked] at replied
    have returned :
        lookup env parent name (after.begin call) =
          (.ok (.entry reply), (lookup env parent name
            (after.begin call)).2) :=
      Prod.ext replied rfl
    exact @lookup_answers env ino parent name pnode id node changed
      (after.begin call) _ answers reply returned
  constructor
  · intro linked
    have same := linking.number_iff.mp linked.number
    refine ⟨same, ?_⟩
    obtain ⟨node, changed, answers⟩ := linking.answers_new shown same
    rw [← left] at answers
    have shownNow : after.Shows ino newparent newname ready.nodes.nextId :=
      ⟨⟨dparent, answers.resolved, answers.child⟩,
        ⟨node, changed, answers.stored, answers.isFile, answers.numbered,
          answers.listed, answers.number⟩⟩
    have more := linked.links _ _ _ _ _ _ 0 0 shown shownNow
    rw [linking.reported_after same left consistent shownNow,
      linking.reported_before shown] at more
    cases taken :
        entry.nodes.any (standsAtName ready.nodes dparent newname) with
    | false =>
        rfl
    | true =>
        rw [taken] at more
        simp at more
  · rintro ⟨same, free⟩
    refine ⟨linking.number_iff.mpr same, ?_, ?_, ?_⟩
    · intro call reply asked replied
      obtain ⟨node, changed, answers⟩ := linking.answers_new shown same
      exact answered call reply answers asked replied
    · intro parent name id call reply before asked replied
      obtain ⟨pnode, node, changed, answers⟩ := linking.answers_old before
      exact answered call reply answers asked replied
    · intro parent name id parent' name' id' onDisk onDisk' before now
      rw [linking.reported_after same left consistent now,
        linking.reported_before before, free]
      rfl

end Linking

/-- The parts of a `link` of a shown file that is replied. -/
theorem linking_of_replied
    {sys : Sys}
    (tree : TreeOk sys)
    (consistent : sys.inodes.Consistent)
    {call : Call}
    {ino newparent parent : UInt64}
    {newname name : Name}
    {id : NodeId}
    {st : Stat}
    (asked : call.request = .link ino newparent newname)
    (heads : sys.HeadsDir newparent)
    (shown : sys.Shows ino parent name id)
    (replied : (sys.step env call).1 = .ok (.entry st)) :
    ∃ src dparent ready key entry found old inodes,
      linkNodes env ino newparent newname (sys.begin call) =
        (.ok (src, dparent), ready) ∧
      ready.os.disk.statat (.layer 0) (nodeParts ready.nodes src) = .ok old ∧
      old.ino = found.ino ∧ old.dev = found.dev ∧
      Linking env sys ready ino newparent newname src dparent key entry found
        st.ino inodes ∧
      (sys.step env call).2.forest =
        (withFile ready dparent newname found inodes).forest := by
  unfold step at replied ⊢
  rw [asked] at replied ⊢
  have returned :
      link env ino newparent newname (sys.begin call) =
        (.ok (.entry st),
          (link env ino newparent newname (sys.begin call)).2) :=
    Prod.ext replied rfl
  obtain ⟨src, dparent, ready, found, old, inodes, prepared, isOld, sameIno,
    sameDev, registered, left⟩ := link_returns returned
  obtain ⟨calm, isSource, aims, unused⟩ :=
    @gives_linkNodes env sys.forest tree ino newparent newname
      (sys.begin call) _ _ ⟨NodeArena.SameShape.refl _, rfl⟩ prepared
  obtain ⟨node, listedEntry, -, -, -, listed, isListed⟩ := shown.numbered
  have notRoot : ino ≠ rootIno := by
    have large := (consistent.numbered _ _ listed).1
    rw [isListed] at large
    intro isRoot
    rw [isRoot] at large
    exact absurd large (by decide)
  rcases Forest.resolve_eq_some.mp isSource with
    ⟨isRoot, -⟩ | ⟨-, key, entry, mapped, stored, first⟩
  · exact (notRoot isRoot).elim
  · have back := (consistent.numbered _ _ listed).2
    rw [isListed] at back
    have sameKey : node.key = key :=
      Option.some.inj (back.symm.trans mapped)
    rw [sameKey] at listed
    have isEntry : listedEntry = entry :=
      Option.some.inj (listed.symm.trans stored)
    refine ⟨src, dparent, ready, key, entry, found, old, inodes, prepared,
      isOld, sameIno, sameDev, ?_, left⟩
    exact
      { tree := tree
        consistent := consistent
        calm := calm
        aims := aims
        isDir := heads dparent aims
        unused := unused
        mapped := mapped
        stored := stored
        isNumber := isEntry ▸ isListed
        member := List.mem_of_find?_eq_some first
        live := NodeArena.containsKey_iff.mp (List.find?_some first)
        registered := registered }

end Sys

namespace Sample

def linkFile : Call :=
  call (.link 11 1 (ascii "b"))

/-- The lower file is looked up. -/
def foundLower : Sys :=
  .run (env 1) (.mount (env 1) lowFile) [lookupFile]

end Sample

namespace Sys

open Daemon Sample

/-- The file of a sample is shown, by what can be computed of the state. -/
theorem shows_of_tests
    {sys : Sys}
    {name : Name}
    {ino : UInt64}
    {id : NodeId}
    (child : (sys.nodes.get? 1).bind (·.getChild name) = some id)
    (node :
      (sys.nodes.get? id).any (fun node =>
        !node.isDir && node.tmpIno ≠ 0 &&
          (sys.inodes.table.get? node.key).any (·.fuseIno = ino)) = true) :
    sys.Shows ino 1 name id := by
  obtain ⟨above, aboveStored, isChild⟩ := Option.bind_eq_some_iff.mp child
  refine ⟨⟨1, rfl, above, aboveStored, isChild⟩, ?_⟩
  obtain ⟨found, stored, passed⟩ := (Option.any_eq_true _ _).mp node
  simp only [Bool.and_eq_true, Bool.not_eq_true', decide_eq_true_eq] at passed
  obtain ⟨⟨isFile, numbered⟩, listed⟩ := passed
  obtain ⟨entry, entryStored, isNumber⟩ := (Option.any_eq_true _ _).mp listed
  exact ⟨found, entry, stored, isFile, numbered, entryStored,
    of_decide_eq_true isNumber⟩

end Sys

end FuseOverlay
