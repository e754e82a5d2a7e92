import FuseOverlay.OverrideText
import FuseOverlay.SetattrSteps

namespace FuseOverlay

/-!
# Owner and mode through an override attribute

`setattr` reads the attribute with a lenient parser that takes the fields that
it understands, and writes three fields; `getattr` reads it with a strict one
that takes all fields or none and knows a type field as well.
-/

open Syscall Override

/-! ## Modes -/

namespace Mode

theorem or_and
    (first second mask : UInt32) :
    (first ||| second) &&& mask = (first &&& mask) ||| (second &&& mask) :=
  UInt32.toBitVec_inj.mp BitVec.and_or_distrib_right

/-- The type bits do not reach into the permissions. -/
theorem perm_ofBits
    (perm : UInt32)
    (kind : Option FileKind) :
    (ofBits (perm ||| (kind.map kindBits).getD 0)).perm =
      perm &&& 0o7777 := by
  have apart : (kind.map kindBits).getD 0 &&& 0o7777 = 0 := by
    cases kind with
    | none =>
        decide
    | some kind =>
        cases kind <;> decide
  change (perm ||| (kind.map kindBits).getD 0) &&& 0o7777 = _
  rw [or_and, apart, UInt32.or_zero]

/-- Permissions alone leave the type as it is. -/
theorem kind_ofBits
    (perm : UInt32)
    (kind : FileKind) :
    (ofBits ((perm &&& 0o7777) ||| kindBits kind)).kind = some kind := by
  have bits :
      ((perm &&& 0o7777) ||| kindBits kind) &&& 0o170000 = kindBits kind := by
    rw [or_and, UInt32.and_assoc, show (0o7777 : UInt32) &&& 0o170000 = 0 by
      decide, UInt32.and_zero, UInt32.zero_or]
    cases kind <;> decide
  unfold ofBits
  simp only [bits]
  cases kind <;> decide

end Mode

/-! ## The two parsers -/

/-- Where the strict parser accepts a text, the lenient one takes the same. -/
theorem parseOverrideFields_of_applied
    {text : List UInt8}
    {st st' : Stat}
    (applied : parseAndApplyOverride text st = .ok st') :
    ∃ mode, parseOverrideFields text st = (st'.uid, st'.gid, mode) ∧
      st'.mode.perm = mode &&& 0o7777 := by
  unfold parseAndApplyOverride at applied
  unfold parseOverrideFields
  split at applied
  · split at applied
    · next uid gid mode isUid isGid isMode =>
        split at applied
        · next final rdev overridden =>
            cases applied
            refine ⟨mode, ?_, ?_⟩
            · rw [isUid, isGid, isMode]
              rfl
            · unfold overriddenMode at overridden
              split at overridden
              · cases overridden
                exact Mode.perm_ofBits mode st.mode.kind
              · split at overridden
                · cases overridden
                  next kind _ _ => exact Mode.perm_ofBits mode (some kind)
                · cases overridden
        · cases applied
    · cases applied
  · cases applied

/-- A text that `setattr` wrote is the attribute of the object. -/
theorem overrideText_written
    {env : Env}
    {attr : Name}
    (writable : writableXattr env attr = .ok ())
    (uid gid mode : UInt32)
    (obj : Obj) :
    env.overrideText attr
        (withXattr attr (renderOverride uid gid mode) obj) =
      some (renderOverride uid gid mode) := by
  have readable : readableXattr env attr = .ok () := by
    unfold writableXattr at writable
    unfold readableXattr
    split at writable
    · cases writable
    · next able =>
        split at writable
        · cases writable
        · next trusted =>
            rw [if_neg able, if_neg trusted]
  have read :
      env.readXattr attr 64
          (withXattr attr (renderOverride uid gid mode) obj) =
        .ok (renderOverride uid gid mode) := by
    unfold Env.readXattr withXattr
    rw [readable, FMap.get?_set_self]
    exact if_pos (renderOverride_length uid gid mode)
  unfold Env.overrideText
  rw [read]
  simp only [isUtf8_renderOverride, ↓reduceIte]

/-- The `stat` with a text that `setattr` wrote. -/
theorem overridden_written
    (uid gid mode : UInt32)
    (st : Stat) :
    overridden (some (renderOverride uid gid mode)) st =
      { st with
        uid := uid
        gid := gid
        mode := .ofBits (mode ||| st.mode.typeBits) } := by
  unfold overridden
  rw [Option.bind_some, parseAndApplyOverride_renderOverride]
  rfl

/-! ## What a reply shows -/

namespace Disk

variable {env : Env} {before after : Disk} {node : OvlNode} {path : Path}
  {layer : Layer} {id : ObjId} {obj : Obj} {attr : Name}

/-- A file or directory of a layer with overrides shows the text that is
read. -/
theorem presented_overridden
    (overrides : overrideXattr layer.statOverrideMode = some attr)
    (kind : obj.kind = .dir ∨ obj.kind = .reg) :
    before.presented env node path layer id obj =
      env.present (overridden
        (before.textOf env (before.overrideOf node path) attr)
        (before.statObj node.statRoot id obj)) := by
  have isKind :
      (before.statObj node.statRoot id obj).mode.kind = some .dir ∨
        (before.statObj node.statRoot id obj).mode.kind = some .reg :=
    kind.imp (congrArg some) (congrArg some)
  unfold presented Layer.shown
  rw [overrides]
  simp only [if_pos isKind]

/-- A write of the attribute changes the text of the object that it
reaches. -/
theorem textOf_written
    {target read : Option ObjId}
    {value : List UInt8}
    (changes : ChangesAt target (withXattr attr value) before after) :
    after.textOf env read attr =
      if target = read then
        (read.bind before.objs.get?).bind fun obj =>
          env.overrideText attr (withXattr attr value obj)
      else
        before.textOf env read attr := by
  unfold textOf
  cases read with
  | none =>
      simp
  | some id =>
      rw [Option.bind_some, Option.bind_some, changes.objs]
      split
      · cases before.objs.get? id <;> rfl
      · rfl

/-- A write of another object, or of none, is not read. -/
theorem text_unwritten
    {target read : Option ObjId}
    {written : Obj → Option (List UInt8)}
    (unread :
      ¬ (target = read ∧ (read.bind before.objs.get?).isSome = true)) :
    (if target = read then (read.bind before.objs.get?).bind written
      else before.textOf env read attr) =
      before.textOf env read attr := by
  split
  · next same =>
      have absent : read.bind before.objs.get? = none := by
        rw [← Option.not_isSome_iff_eq_none]
        exact fun stored => unread ⟨same, stored⟩
      unfold textOf
      rw [absent]
      rfl
  · rfl

/-- What a reply shows after a write of the attribute. -/
theorem presented_written
    (overrides : overrideXattr layer.statOverrideMode = some attr)
    (kind : obj.kind = .dir ∨ obj.kind = .reg)
    {target : Option ObjId}
    {value : List UInt8}
    (changes : ChangesAt target (withXattr attr value) before after) :
    after.presented env node path layer id
        (if target = some id then withXattr attr value obj else obj) =
      env.present (overridden
        (if target = before.overrideOf node path then
          ((before.overrideOf node path).bind before.objs.get?).bind
            fun obj => env.overrideText attr (withXattr attr value obj)
        else
          before.textOf env (before.overrideOf node path) attr)
        (before.statObj node.statRoot id obj)) := by
  have frames : Frames (fun _ => ()) before after :=
    changes.frames (fun _ => rfl) fun _ => rfl
  have sameRead : after.overrideOf node path = before.overrideOf node path :=
    frames.idAt _ _
  have sameKind :
      (if target = some id then withXattr attr value obj else obj).kind =
          .dir ∨
        (if target = some id then withXattr attr value obj else obj).kind =
          .reg := by
    split
    · exact kind
    · exact kind
  have sameStat :
      after.statObj node.statRoot id
          (if target = some id then withXattr attr value obj else obj) =
        before.statObj node.statRoot id obj := by
    rw [changes.statObj]
    split <;> rfl
  rw [presented_overridden overrides sameKind, sameRead, sameStat,
    textOf_written changes]

end Disk

/-! ## What a change leaves alone -/

/-- The later reply has what was asked for, and otherwise what the earlier one
had. -/
structure ChangesOnlyAsked
    (change : SetAttr)
    (before after : Stat) : Prop where
  uid : after.uid = change.uid.getD before.uid
  gid : after.gid = change.gid.getD before.gid
  perm :
    after.mode.perm &&& 0o7777 =
      change.mode.getD before.mode.perm &&& 0o7777
  kind : modeToFiletype after.mode = modeToFiletype before.mode
  rdev : after.rdev.toUInt32 = before.rdev.toUInt32

/-- Number and links play no part. -/
theorem changesOnlyAsked_shown_iff
    {env : Env}
    {disk : Disk}
    {node : OvlNode}
    {path : Path}
    {layer : Layer}
    {id : ObjId}
    {obj : Obj}
    {change : SetAttr}
    {before after : Stat}
    (shows : disk.Shows env node path layer id obj after) :
    ChangesOnlyAsked change before after ↔
      ChangesOnlyAsked change before
        (disk.presented env node path layer id obj) := by
  unfold Disk.Shows at shows
  constructor
  · intro only
    rw [shows] at only
    exact ⟨only.uid, only.gid, only.perm, only.kind, only.rdev⟩
  · intro only
    rw [shows]
    exact ⟨only.uid, only.gid, only.perm, only.kind, only.rdev⟩

/-- A field that is not asked for keeps the value shown before: the lenient
parser's for owner and permissions, the object's own for type and device. -/
structure KeepsRest
    (env : Env)
    (change : SetAttr)
    (text : Option (List UInt8))
    (st : Stat)
    (obj : Obj)
    (before : Stat) : Prop where
  uid :
    change.uid = none → env.presentUid (startsFrom text st).1 = before.uid
  gid :
    change.gid = none → env.presentGid (startsFrom text st).2.1 = before.gid
  perm :
    change.mode = none →
      (startsFrom text st).2.2 &&& 0o7777 = before.mode.perm &&& 0o7777
  kind :
    modeToFiletype
        (.ofBits ((if change.mode = none then (startsFrom text st).2.2 else 0)
          ||| Mode.kindBits obj.kind)) =
      modeToFiletype before.mode
  rdev : obj.rdev.toUInt32 = before.rdev.toUInt32

/-- Of a value that the strict parser accepts only the type field and the
device number can be lost. -/
theorem keepsRest_applied_iff
    {env : Env}
    {change : SetAttr}
    {text : List UInt8}
    {st st' before : Stat}
    {obj : Obj}
    (applied : parseAndApplyOverride text st = .ok st')
    (uid : before.uid = env.presentUid st'.uid)
    (gid : before.gid = env.presentGid st'.gid)
    (mode : before.mode = st'.mode) :
    KeepsRest env change (some text) st obj before ↔
      modeToFiletype (.ofBits ((if change.mode = none then
          (parseOverrideFields text st).2.2 else 0) |||
            Mode.kindBits obj.kind)) = modeToFiletype st'.mode ∧
        obj.rdev.toUInt32 = before.rdev.toUInt32 := by
  obtain ⟨bits, parsed, perm⟩ := parseOverrideFields_of_applied applied
  have start : startsFrom (some text) st = (st'.uid, st'.gid, bits) := parsed
  rw [parsed]
  constructor
  · intro keeps
    have kind := keeps.kind
    rw [start, mode] at kind
    exact ⟨kind, keeps.rdev⟩
  · rintro ⟨kind, rdev⟩
    refine ⟨fun _ => ?_, fun _ => ?_, fun _ => ?_, ?_, rdev⟩
    · rw [start, uid]
    · rw [start, gid]
    · rw [start, mode, perm, UInt32.and_assoc, UInt32.and_self]
    · rw [start, mode]
      exact kind

/-- What is shown of a value that `setattr` wrote. -/
theorem changesOnlyAsked_written_iff
    {env : Env}
    {disk : Disk}
    {root : Root}
    {id : ObjId}
    {obj : Obj}
    {change : SetAttr}
    {text : Option (List UInt8)}
    {st before : Stat}
    (uidMapped :
      ∀ uid, change.uid = some uid → env.presentUid (mapUid env uid) = uid)
    (gidMapped :
      ∀ gid, change.gid = some gid → env.presentGid (mapGid env gid) = gid) :
    ChangesOnlyAsked change before
        (env.present (overridden
          (some (overrideValue env change (startsFrom text st)))
          (disk.statObj root id obj))) ↔
      KeepsRest env change text st obj before := by
  unfold overrideValue
  rw [overridden_written]
  have uid :
      env.presentUid
          ((change.uid.map (mapUid env)).getD (startsFrom text st).1) =
          change.uid.getD before.uid ↔
        (change.uid = none →
          env.presentUid (startsFrom text st).1 = before.uid) := by
    cases asked : change.uid with
    | none =>
        simp
    | some uid =>
        simp [uidMapped uid asked]
  have gid :
      env.presentGid
          ((change.gid.map (mapGid env)).getD (startsFrom text st).2.1) =
          change.gid.getD before.gid ↔
        (change.gid = none →
          env.presentGid (startsFrom text st).2.1 = before.gid) := by
    cases asked : change.gid with
    | none =>
        simp
    | some gid =>
        simp [gidMapped gid asked]
  have twice :
      ∀ bits : UInt32, bits &&& 0o7777 &&& 0o7777 = bits &&& 0o7777 := by
    intro bits
    rw [UInt32.and_assoc, UInt32.and_self]
  have perm :
      (Mode.ofBits (((change.mode.map (· &&& 0o7777)).getD
          (startsFrom text st).2.2) ||| Mode.kindBits obj.kind)).perm
            &&& 0o7777 =
          change.mode.getD before.mode.perm &&& 0o7777 ↔
        (change.mode = none →
          (startsFrom text st).2.2 &&& 0o7777 =
            before.mode.perm &&& 0o7777) := by
    have low :=
      Mode.perm_ofBits ((change.mode.map (· &&& 0o7777)).getD
        (startsFrom text st).2.2) (some obj.kind)
    rw [Option.map_some, Option.getD_some] at low
    rw [low, twice]
    cases asked : change.mode with
    | none =>
        simp
    | some mode =>
        simp [twice]
  have kind :
      modeToFiletype (.ofBits (((change.mode.map (· &&& 0o7777)).getD
          (startsFrom text st).2.2) ||| Mode.kindBits obj.kind)) =
        modeToFiletype (.ofBits ((if change.mode = none then
          (startsFrom text st).2.2 else 0) ||| Mode.kindBits obj.kind)) := by
    cases asked : change.mode with
    | none =>
        rfl
    | some mode =>
        -- a given mode has no type bits
        have given := Mode.kind_ofBits mode obj.kind
        have bare := Mode.kind_ofBits 0 obj.kind
        rw [UInt32.zero_and] at bare
        unfold modeToFiletype
        simp only [Option.map_some, Option.getD_some, reduceCtorEq, ↓reduceIte]
        rw [given, bare]
  constructor
  · intro only
    exact ⟨uid.mp only.uid, gid.mp only.gid, perm.mp only.perm,
      kind.symm.trans only.kind, only.rdev⟩
  · intro keeps
    exact ⟨uid.mpr keeps.uid, gid.mpr keeps.gid, perm.mpr keeps.perm,
      kind.trans keeps.kind, keeps.rdev⟩

/-! ## Through the request -/

namespace Sys

/-- The request writes the attribute that a reply about the node reads. -/
structure WritesShown
    (env : Env)
    (disk : Disk)
    (change : SetAttr)
    (fd : Option Fd)
    (node : OvlNode)
    (path : Path) : Prop where
  asked :
    (change.mode.isSome || change.uid.isSome || change.gid.isSome) = true
  same : xattrTarget env disk fd path = disk.overrideOf node path
  stored : ((disk.overrideOf node path).bind disk.objs.get?).isSome = true

section

variable {env : Env} {disk : Disk} {sys copied : Sys} {call : Call}
  {ino : UInt64} {nodeId : NodeId} {node : OvlNode} {layer : Layer}
  {id : ObjId} {obj : Obj} {change : SetAttr} {before after : Stat}
  {attr : Name} {fd : Option Fd} {opened : Sys}

/-- What the reply after the request shows: the written value, if it is the
one that is read, and otherwise what was there. -/
theorem SetBetween.overrides
    (between : SetBetween env disk sys ino change call before after)
    (file : UpFile env sys call ino nodeId node layer id obj)
    (noSize : change.size = none)
    (noTimes : change.atime = none ∧ change.mtime = none)
    (overrides : overrideXattr layer.statOverrideMode = some attr)
    (kind : obj.kind = .dir ∨ obj.kind = .reg)
    (copies : sys.copiedUp env call nodeId = copied)
    (opens :
      Daemon.setattrFd env node.layerIdx (nodeParts copied.nodes nodeId) change
        copied = (.ok fd, opened)) :
    ∃ (granted : Os) (obj' : Obj),
      granted.disk.Shows env node (nodeParts copied.nodes nodeId) layer id obj'
        after ∧
      (WritesShown env copied.os.disk change fd node
          (nodeParts copied.nodes nodeId) →
        ∃ st, statOf copied.os.disk fd (.layer node.layerIdx)
            (nodeParts copied.nodes nodeId) = some st ∧
          granted.disk.presented env node (nodeParts copied.nodes nodeId) layer
              id obj' =
            env.present (overridden
              (some (overrideValue env change
                (startsFrom (rereadText env fd attr opened.os) st)))
              (copied.os.disk.statObj node.statRoot id obj))) ∧
      (¬ WritesShown env copied.os.disk change fd node
          (nodeParts copied.nodes nodeId) →
        granted.disk.presented env node (nodeParts copied.nodes nodeId) layer
            id obj' =
          copied.os.disk.presented env node (nodeParts copied.nodes nodeId)
            layer id obj) := by
  subst copies
  obtain ⟨fd', opened', timed, granted, obj', ran, stored, shows⟩ :=
    between.ran file noSize
  refine ⟨granted, obj', shows, ?_⟩
  have same := ran.openedBy
  rw [opens] at same
  cases same
  have noChange := ran.times
  rw [setTimes_none _ _ _ noTimes.1 noTimes.2] at noChange
  cases noChange
  have permits := ran.permits
  unfold setPermissions at permits
  rw [overrides] at permits
  simp only [Act.runIf] at permits
  split at permits
  · next asked =>
      obtain ⟨st, statted, writable, changes⟩ := setOverride_returns permits
      rw [ran.opens.disk] at statted changes
      have storedLater := changes.stored file.holds.stored
      rw [stored] at storedLater
      cases storedLater
      rw [Disk.presented_written overrides kind changes]
      constructor
      · intro writes
        obtain ⟨read, isRead⟩ := Option.isSome_iff_exists.mp writes.stored
        refine ⟨st, statted, ?_⟩
        rw [if_pos writes.same, isRead, Option.bind_some]
        unfold overrideValue
        rw [overrideText_written writable]
      · intro unread
        rw [Disk.text_unwritten fun both => unread ⟨asked, both.1, both.2⟩,
          ← Disk.presented_overridden overrides kind]
  · next nothing =>
      cases permits
      rw [ran.opens.disk, file.holds.stored] at stored
      cases stored
      rw [ran.opens.disk]
      exact ⟨fun writes => absurd writes.asked nothing, fun _ => rfl⟩

end

end Sys

namespace Sample

/-- A new mode for the file and nothing else. -/
def newMode : SetAttr :=
  ⟨some 0o600, none, none, none, none, none, none⟩

def chmodFile : Call :=
  call (.setattr 11 newMode)

/-- The file in a reply, with the mode and device that an override gives. -/
def overriddenStat
    (mode : Mode)
    (rdev : UInt64) : Stat :=
  { fileStat 11 1 with mode := mode, rdev := rdev }

def blockFile : Disk :=
  disk 0 [(⟨.layer 0, [ascii "f"]⟩,
    { obj .reg [] 11 with
      xattrs := (∅ : FMap Name (List UInt8)).set Xattr.containersOverrideStat
        (ascii "0:0:660:block8:0") })]

/-- The block device is looked up. -/
def foundBlock : Sys :=
  (Sys.mount overrideEnv blockFile).run overrideEnv
    [call (.lookup 1 (ascii "f"))]

end Sample

end FuseOverlay
