import FuseOverlay.SetattrSteps

namespace FuseOverlay

/-!
# Times between `setattr` and `getattr`

`setattr` puts the epoch in place of a time before it, and the conversion of a
`stat` panics on a time before the epoch.  Every other time comes back.
-/

open Syscall

/-! ## What a time turns into -/

/-- The time that `setattr` sets for a given one. -/
def clamped (time : Timespec) : Timespec :=
  if time.sec < 0 then ⟨0, 0⟩ else time

theorem clamped_eq_iff
    {time : Timespec} :
    clamped time = time ↔ 0 ≤ time.sec := by
  unfold clamped
  split
  · next old =>
      constructor
      · intro same
        rw [← same]
      · intro late
        omega
  · next late =>
      exact ⟨fun _ => by omega, fun _ => rfl⟩

theorem clamped_representable
    {time : Timespec}
    (valid : time.Representable) :
    (clamped time).Representable := by
  unfold clamped
  split
  · exact ⟨by decide, by decide, by decide⟩
  · exact valid

theorem apply_timeChange
    (disk : Disk)
    (old : Timespec)
    (time : Option Timespec) :
    (timeChange (time.map .specificTime)).apply disk old =
      (time.map clamped).getD old := by
  cases time <;> rfl

/-- The conversion of a reply ends, with these times in it. -/
def Reports
    (st : Stat)
    (rest : StatRest)
    (atime mtime : Timespec) : Prop :=
  ∃ attr, statToAttr st rest = some attr ∧ attr.atime = atime ∧
    attr.mtime = mtime

theorem reports_iff
    {st : Stat}
    {rest : StatRest}
    (accessed : st.atime.Representable)
    (modified : st.mtime.Representable)
    (changed : rest.ctime.Representable)
    {atime mtime : Timespec} :
    Reports st rest atime mtime ↔
      st.atime = atime ∧ st.mtime = mtime ∧ 0 ≤ atime.sec ∧
        0 ≤ mtime.sec ∧ 0 ≤ rest.ctime.sec := by
  unfold Reports statToAttr
  rw [systemTime_eq accessed, systemTime_eq modified, systemTime_eq changed]
  constructor
  · rintro ⟨attr, made, rfl, rfl⟩
    by_cases first : 0 ≤ st.atime.sec
    · by_cases second : 0 ≤ st.mtime.sec
      · by_cases third : 0 ≤ rest.ctime.sec
        · simp only [first, second, third, ↓reduceIte] at made
          cases made
          exact ⟨rfl, rfl, first, second, third⟩
        · simp [first, second, third] at made
      · simp [first, second] at made
    · simp [first] at made
  · rintro ⟨rfl, rfl, first, second, third⟩
    simp [first, second, third]

/-! ## Through the request -/

namespace Sys

section

variable {env : Env} {disk : Disk} {sys : Sys} {call : Call} {ino : UInt64}
  {nodeId : NodeId} {node : OvlNode} {layer : Layer} {id : ObjId} {obj : Obj}
  {change : SetAttr} {before after : Stat} {atime mtime : Option Timespec}

/-- The times after the request: of the object that it reaches, new ones. -/
theorem SetBetween.times
    (between : SetBetween env disk sys ino change call before after)
    (file : UpFile env sys call ino nodeId node layer id obj)
    (noSize : change.size = none)
    (setsAtime : change.atime = atime.map .specificTime)
    (setsMtime : change.mtime = mtime.map .specificTime) :
    (after.atime, after.mtime) =
      if (sys.copiedUp env call nodeId).reached change node
          (nodeParts (sys.copiedUp env call nodeId).nodes nodeId) = some id then
        ((atime.map clamped).getD obj.atime, (mtime.map clamped).getD obj.mtime)
      else
        (obj.atime, obj.mtime) := by
  obtain ⟨fd, opened, timed, granted, obj', ran, stored, shows⟩ :=
    between.ran file noSize
  have changes := setTimes_returns ran.times
  rw [setsAtime, setsMtime, ran.target_eq, ran.opens.disk] at changes
  have storedTimed := changes.stored file.holds.stored
  -- owner and mode leave the times alone
  have frames :
      Disk.Frames (fun obj : Obj => (obj.atime, obj.mtime)) timed.disk
        granted.disk :=
    gives_frames_setPermissions (fun _ _ _ => ⟨rfl, rfl⟩)
      (fun _ _ _ _ => ⟨rfl, rfl⟩) (fun _ _ _ _ => ⟨rfl, rfl⟩) _ _ _ _ _
      timed () granted (.refl _) ran.permits
  obtain ⟨found, storedGranted, -, same⟩ := frames.stored storedTimed
  rw [stored] at storedGranted
  cases storedGranted
  rw [shows.times.1, shows.times.2]
  rw [same]
  split
  · unfold utimeObj
    simp only [apply_timeChange]
  · rfl

end

end Sys

namespace Sample

/-- The modification time of the upper file is set. -/
def setMtime (time : Timespec) : Call :=
  call (.setattr 11
    ⟨none, none, none, none, none, some (.specificTime time), none⟩)

/-- The reply to a `getattr` of the upper file in the state after a call. -/
def attrAfter (request : Call) : Except Errno Reply :=
  ((foundUpper.step (env 0) request).2.step (env 0) (call (.getattr 11))).1

end Sample

end FuseOverlay
