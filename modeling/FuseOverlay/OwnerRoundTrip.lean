import FuseOverlay.IdMappings
import FuseOverlay.OverrideReplies

namespace FuseOverlay

/-!
# Owners there and back

An owner that a request names goes to the host through one side of a mapping
list and comes back in replies through the other.
-/

open IdMapping Syscall Override

/-! ## The lists of a mount -/

/-- Parsed lists whose ranges are apart, and no squash option. -/
structure Config.MapsBack (config : Config) : Prop where
  uidText : ∃ text, parseMappings text = .ok config.uidMappings
  gidText : ∃ text, parseMappings text = .ok config.gidMappings
  uids : RangesApart config.uidMappings
  gids : RangesApart config.gidMappings
  toRoot : config.squashToRoot = false
  toUid : config.squashToUid = none
  toGid : config.squashToGid = none

/-- An id of a range, or any id when there are no ranges. -/
def Named
    (mappings : List IdMapping)
    (id : UInt32) : Prop :=
  Mapped mappings false id ∨ mappings = []

theorem findMapping_named
    {mappings : List IdMapping}
    {id overflowId : UInt32}
    (ranges : RangesApart mappings)
    (named : Named mappings id) :
    findMapping (findMapping id mappings false false none overflowId)
      mappings true false none overflowId = id := by
  rcases named with mapped | rfl
  · exact findMapping_back ranges mapped
  · rfl

section

variable {env : Env}

theorem presentUid_mapUid
    (maps : env.config.MapsBack)
    {uid : UInt32}
    (named : Named env.config.uidMappings uid) :
    env.presentUid (mapUid env uid) = uid := by
  unfold Env.presentUid mapUid
  rw [maps.toRoot, maps.toUid]
  exact findMapping_named maps.uids named

theorem presentGid_mapGid
    (maps : env.config.MapsBack)
    {gid : UInt32}
    (named : Named env.config.gidMappings gid) :
    env.presentGid (mapGid env gid) = gid := by
  unfold Env.presentGid mapGid
  rw [maps.toRoot, maps.toGid]
  exact findMapping_named maps.gids named

end

/-! ## Through the request -/

namespace Sys

section

variable {env : Env} {disk : Disk} {sys copied : Sys} {call : Call}
  {ino : UInt64} {nodeId : NodeId} {node : OvlNode} {layer : Layer}
  {id : ObjId} {obj : Obj} {change : SetAttr} {before after : Stat}
  {fd : Option Fd} {opened : Sys}

/-- The request sets the owner that a reply about the file shows. -/
def OwnerShown
    (env : Env)
    (sys : Sys)
    (change : SetAttr)
    (fd : Option Fd)
    (node : OvlNode)
    (path : Path)
    (layer : Layer)
    (id : ObjId)
    (obj : Obj) : Prop :=
  match overrideXattr layer.statOverrideMode with
  | none => sys.reached change node path = some id
  | some _ =>
      (obj.kind = .dir ∨ obj.kind = .reg) ∧
        WritesShown env sys.os.disk change fd node path

/-- The host keeps the number, also where `-1` stands for no change. -/
def HostKeeps
    (layer : Layer)
    (id : UInt32) : Prop :=
  overrideXattr layer.statOverrideMode = none → id ≠ 0xffffffff

/-- The owner after a `chown` is the host's number, mapped back. -/
theorem SetBetween.owner
    (between : SetBetween env disk sys ino change call before after)
    (file : UpFile env sys call ino nodeId node layer id obj)
    (noSize : change.size = none)
    (noTimes : change.atime = none ∧ change.mtime = none)
    (copies : sys.copiedUp env call nodeId = copied)
    (opens :
      Daemon.setattrFd env node.layerIdx (nodeParts copied.nodes nodeId) change
        copied = (.ok fd, opened))
    (shown :
      OwnerShown env copied change fd node (nodeParts copied.nodes nodeId)
        layer id obj) :
    (∀ uid, change.uid = some uid → HostKeeps layer (mapUid env uid) →
      after.uid = env.presentUid (mapUid env uid)) ∧
    ∀ gid, change.gid = some gid → HostKeeps layer (mapGid env gid) →
      after.gid = env.presentGid (mapGid env gid) := by
  unfold OwnerShown at shown
  unfold HostKeeps
  split at shown
  · next plain =>
      subst copies
      obtain ⟨fd', opened', timed, granted, obj', ran, stored, shows⟩ :=
        between.ran file noSize
      have permits := ran.permits
      unfold setPermissions at permits
      rw [plain] at permits
      simp only at permits
      have owner :
          (change.uid.isSome || change.gid.isSome) = true →
            ∃ found : Obj, obj' =
              chownObj ((change.uid.map (mapUid env)).getD 0xffffffff)
                ((change.gid.map (mapGid env)).getD 0xffffffff) found := by
        intro asked
        obtain ⟨middle, frames, changes⟩ :=
          setModeAndOwner_returns permits asked
        -- the object is still there when its owner is set
        have timesFrames :
            Disk.Frames (fun _ => ()) opened'.disk timed.disk :=
          (setTimes_returns ran.times).frames (fun _ => rfl) fun _ => rfl
        have sameTarget :
            changeTarget timed.disk fd' (.layer node.layerIdx)
                (nodeParts (sys.copiedUp env call nodeId).nodes nodeId) =
              some id := by
          rw [← shown, ← ran.target_eq]
          unfold changeTarget
          split
          · rfl
          · exact timesFrames.idAt _ _
        have held := file.holds.stored
        rw [← ran.opens.disk] at held
        obtain ⟨timedObj, timedStored, -, -⟩ := timesFrames.stored held
        obtain ⟨found, foundStored, -, -⟩ := frames.stored timedStored
        have later := changes.stored foundStored
        rw [stored, sameTarget, if_pos rfl] at later
        exact ⟨found, Option.some.inj later⟩
      have shownOwner :
          after.uid = env.presentUid obj'.uid ∧
            after.gid = env.presentGid obj'.gid := by
        unfold Disk.Shows Disk.presented Layer.shown at shows
        rw [plain] at shows
        rw [shows]
        exact ⟨rfl, rfl⟩
      constructor
      · intro uid asked keeps
        obtain ⟨found, isChanged⟩ := owner (by rw [asked]; rfl)
        rw [shownOwner.1, isChanged, asked]
        unfold chownObj
        simp only [Option.map_some, Option.getD_some, if_neg (keeps plain)]
      · intro gid asked keeps
        obtain ⟨found, isChanged⟩ := owner (by rw [asked, Bool.or_comm]; rfl)
        rw [shownOwner.2, isChanged, asked]
        unfold chownObj
        simp only [Option.map_some, Option.getD_some, if_neg (keeps plain)]
  · next attr overrides =>
      obtain ⟨kind, writes⟩ := shown
      obtain ⟨granted, obj', shows, written, -⟩ :=
        between.overrides file noSize noTimes overrides kind copies opens
      obtain ⟨st, -, isShown⟩ := written writes
      unfold Disk.Shows at shows
      rw [isShown] at shows
      unfold overrideValue at shows
      rw [overridden_written] at shows
      constructor
      · intro uid asked _
        rw [shows, asked]
        rfl
      · intro gid asked _
        rw [shows, asked]
        rfl

end

end Sys

namespace Sample

/-- A mount with one range of owners. -/
def mappedEnv (range : IdMapping) : Env :=
  { env 0 with config := { config with uidMappings := [range] } }

def newOwner (uid : UInt32) : SetAttr :=
  ⟨none, some uid, none, none, none, none, none⟩

/-- The owner of the upper file that is shown after a `chown`. -/
def ownerAfter
    (range : IdMapping)
    (uid : UInt32) :
    Option UInt32 :=
  let env := mappedEnv range
  let found := (Sys.mount env upperFile).run env [lookupFile]
  let changed := (found.step env (call (.setattr 11 (newOwner uid)))).2
  (ownerOf (changed.step env (call (.getattr 11))).1).map (·.1)

/-- Ten owners that the host counts from 1000. -/
def tenEnv : Env := mappedEnv ⟨1000, 0, 10⟩

def foundTen : Sys :=
  (Sys.mount tenEnv upperFile).run tenEnv [lookupFile]

def chownFile : Call :=
  call (.setattr 11 (newOwner 5))

/-- The file in a reply, with an owner. -/
def ownedStat (uid : UInt32) : Stat :=
  { fileStat 11 1 with uid := uid }

end Sample

end FuseOverlay
