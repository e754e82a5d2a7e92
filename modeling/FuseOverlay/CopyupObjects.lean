import FuseOverlay.CopyupInstall

namespace FuseOverlay

/-!
# What each kind of copy looks like

A directory, a symbolic link, a special file and a regular file take four ways
to the upper layer.  Each of them is described by the object that it installs,
as a function of the source.
-/

/-- A `stat` of the object. -/
structure Stat.Shows
    (st : Stat)
    (obj : Obj) : Prop where
  mode : st.mode = ⟨some obj.kind, obj.perm⟩
  uid : st.uid = obj.uid
  gid : st.gid = obj.gid
  rdev : st.rdev = obj.rdev
  size : st.size = obj.data.length
  atime : st.atime = obj.atime
  mtime : st.mtime = obj.mtime

theorem Disk.shows_statObj
    (disk : Disk)
    (root : Root)
    (id : ObjId)
    (obj : Obj) :
    (disk.statObj root id obj).Shows obj :=
  ⟨rfl, rfl, rfl, rfl, rfl, rfl, rfl⟩

namespace Syscall

open Disk

/-! ## The source -/

/-- The object that a path of a lower layer leads to, with or without a link
at the end followed. -/
def LeadsTo
    (disk : Disk)
    (layerIdx : Nat)
    (path : Path)
    (noFollow : Bool)
    (loc : Loc)
    (obj : Obj) : Prop :=
  (if noFollow then disk.locate ⟨.layer layerIdx, []⟩ path
    else disk.locateFollow ⟨.layer layerIdx, []⟩ linkLimit [] path) = .ok loc ∧
    disk.find? loc = some obj

section

variable {env : Env} {before : Disk} {counter layerIdx : Nat} {path : Path}
  {os later : Os} {flags : OpenFlags} {perm : UInt32} {src : Obj} {fd : Fd}

theorem lower_layer
    (isLow : layerIdx ≠ 0)
    (path : Path) :
    Loc.Lower ⟨.layer layerIdx, path⟩ :=
  ⟨fun same => isLow (Root.layer.inj same), fun same => by cases same⟩

/-- The lower layers are walked as before. -/
theorem LeadsTo.of_kept
    {after : Disk}
    {noFollow : Bool}
    {loc : Loc}
    (isLow : layerIdx ≠ 0)
    (kept : Kept before after)
    (leads : LeadsTo after layerIdx path noFollow loc src) :
    LeadsTo before layerIdx path noFollow loc src ∧ loc.Lower := by
  have same : WalksAlike before after ⟨.layer layerIdx, []⟩ :=
    .of_find? fun path => kept.finds _ (lower_layer isLow path)
  obtain ⟨located, found⟩ := leads
  have root : loc.root = .layer layerIdx := by
    split at located
    · exact root_of_locate located
    · exact root_of_locateFollow located
  have low : loc.Lower :=
    Loc.lower_of_root root.symm (lower_layer isLow [])
  rw [kept.finds loc low] at found
  refine ⟨⟨?_, found⟩, low⟩
  rw [← located]
  split
  · exact (locate_congr same path).symm
  · exact (locateFollow_congr same linkLimit [] path).symm

/-- A source that is opened. -/
theorem openSource_returns
    (noFaults : os.faults = [])
    (kept : Kept before os.disk)
    (isLow : layerIdx ≠ 0)
    (plain : PlainFlags flags)
    (returned :
      safeOpenat env ⟨.layer layerIdx, []⟩ path flags perm os =
        (.ok fd, later)) :
    ∃ loc src inos, LeadsTo before layerIdx path flags.noFollow loc src ∧
      Source before fd src ∧ later = { os with inos := inos } := by
  unfold safeOpenat at returned
  obtain ⟨ino, inos, supplied⟩ := nextStIno_returns os
  rw [Act.bind_ok supplied,
    @call_noFaults _ _ { os with inos := inos } noFaults] at returned
  simp only at returned
  cases located :
      (if flags.noFollow then os.disk.locate ⟨.layer layerIdx, []⟩ path
        else os.disk.locateFollow ⟨.layer layerIdx, []⟩ linkLimit [] path) with
  | error errno =>
      rw [located] at returned
      cases returned
  | ok loc =>
      rw [located] at returned
      simp only [plain.creat, Bool.false_and, Bool.false_eq_true,
        ↓reduceIte] at returned
      cases named : os.disk.names.get? loc with
      | none =>
          rw [named] at returned
          cases returned
      | some id =>
          obtain ⟨obj, stored, found⟩ := find?_isSome named
          rw [named] at returned
          simp only [stored] at returned
          have leads : LeadsTo os.disk layerIdx path flags.noFollow loc obj :=
            ⟨located, found⟩
          obtain ⟨leads, low⟩ := leads.of_kept isLow kept
          split at returned
          · next value disk opened =>
              cases returned
              obtain ⟨rfl, -, rfl⟩ := openObj_plain plain opened
              refine ⟨loc, obj, inos, leads, ⟨loc, low, ?_, leads.2⟩, rfl⟩
              rw [← kept.names loc low]
              exact named
          · cases returned

/-- `fstat` of the source -/
theorem fstat_source
    (noFaults : os.faults = [])
    (stored : os.disk.objs.get? fd.obj = some src) :
    ∃ st : Stat, st.Shows src ∧ fstat fd os = (.ok st, os) := by
  refine ⟨os.disk.statObj fd.root fd.obj src, shows_statObj _ _ _ _, ?_⟩
  unfold fstat
  rw [query_noFaults noFaults, stored]

end

end Syscall

end FuseOverlay
