import FuseOverlay.LookupShortcut
import FuseOverlay.ObjectChanges

namespace FuseOverlay

/-!
# The attributes of a reply

`rpl_stat` takes the `stat` of a layer, applies the override attribute and maps
the owner; `stat_to_attr` turns the result into what is sent.  A `SystemTime`
holds signed seconds, but the seconds of a `stat` are read as unsigned ones, so
that the sum with the epoch panics for a time before it.
-/

open Act (Keeps)

/-! ## Times -/

namespace Timespec

/-- Seconds that an `i64` holds, and a fraction of a second. -/
def Representable (time : Timespec) : Prop :=
  -2 ^ 63 ≤ time.sec ∧ time.sec < 2 ^ 63 ∧ time.nsec < 10 ^ 9

end Timespec

/-- `value as u64` of an `i64` -/
def asU64 (value : Int) : Nat :=
  (value % 2 ^ 64).toNat

/-- `std::time::Duration` -/
structure Duration where
  secs : Nat
  nanos : Nat

/-- `Duration::new`: whole seconds are carried; no value where it panics. -/
def Duration.new (secs nanos : Nat) : Option Duration :=
  if nanos < 10 ^ 9 then
    some ⟨secs, nanos⟩
  else if secs + nanos / 10 ^ 9 < 2 ^ 64 then
    some ⟨secs + nanos / 10 ^ 9, nanos % 10 ^ 9⟩
  else
    none

/-- `UNIX_EPOCH` -/
def unixEpoch : Timespec := ⟨0, 0⟩

/-- `SystemTime + Duration`; no value where it panics. -/
def addDuration
    (time : Timespec)
    (duration : Duration) :
    Option Timespec :=
  let nanos := time.nsec + duration.nanos
  let sec := time.sec + duration.secs + (nanos / 10 ^ 9 : Nat)
  if sec < 2 ^ 63 then some ⟨sec, nanos % 10 ^ 9⟩ else none

/-- `UNIX_EPOCH + Duration::new(sec as u64, nsec as u32)` -/
def systemTime (time : Timespec) : Option Timespec := do
  let duration ← Duration.new (asU64 time.sec) (time.nsec % 2 ^ 32)
  addDuration unixEpoch duration

/-- A time is kept from the epoch on; before it the sum is too large. -/
theorem systemTime_eq
    {time : Timespec}
    (valid : time.Representable) :
    systemTime time = if 0 ≤ time.sec then some time else none := by
  obtain ⟨low, high, fraction⟩ := valid
  have nanos : time.nsec % 2 ^ 32 = time.nsec := by
    apply Nat.mod_eq_of_lt
    omega
  have made :
      Duration.new (asU64 time.sec) (time.nsec % 2 ^ 32) =
        some ⟨asU64 time.sec, time.nsec⟩ := by
    unfold Duration.new
    rw [nanos, if_pos fraction]
  unfold systemTime
  rw [made, Option.bind_eq_bind, Option.bind_some]
  unfold addDuration unixEpoch asU64
  by_cases old : 0 ≤ time.sec
  · have secs : time.sec % 2 ^ 64 = time.sec := by
      omega
    have whole : (0 + time.nsec) / 10 ^ 9 = 0 := by
      omega
    have sum : 0 + ((time.sec % 2 ^ 64).toNat : Int) + (0 : Nat) = time.sec := by
      rw [secs]
      omega
    simp only [whole, sum, if_pos old, if_pos high]
    congr 2
    omega
  · have late :
        ¬ 0 + ((time.sec % 2 ^ 64).toNat : Int) +
          ((0 + time.nsec) / 10 ^ 9 : Nat) < 2 ^ 63 := by
      omega
    rw [if_neg old]
    simp only [if_neg late]

/-! ## The conversion -/

/-- What of a `libc::stat` nothing but the conversion reads. -/
structure StatRest where
  ctime : Timespec
  blocks : Int
  blksize : Int

/-- `fuser::FileAttr` -/
structure FileAttr where
  ino : UInt64
  size : Nat
  blocks : Nat
  atime : Timespec
  mtime : Timespec
  ctime : Timespec
  crtime : Timespec
  kind : FileKind
  perm : UInt16
  nlink : UInt32
  uid : UInt32
  gid : UInt32
  rdev : UInt32
  blksize : UInt32
  flags : UInt32

/-- `mode_to_filetype`: type bits without meaning give a regular file. -/
def modeToFiletype (mode : Mode) : FileKind :=
  mode.kind.getD .reg

/-- `stat_to_attr`; no value where it panics. -/
def statToAttr
    (st : Stat)
    (rest : StatRest) :
    Option FileAttr := do
  let atime ← systemTime st.atime
  let mtime ← systemTime st.mtime
  let ctime ← systemTime rest.ctime
  pure
    { ino := st.ino
      size := st.size
      blocks := asU64 rest.blocks
      atime := atime
      mtime := mtime
      ctime := ctime
      crtime := unixEpoch
      kind := modeToFiletype st.mode
      perm := (st.mode.perm &&& 0o7777).toUInt16
      nlink := st.nlink.toUInt32
      uid := st.uid
      gid := st.gid
      rdev := st.rdev.toUInt32
      blksize := (asU64 rest.blksize).toUInt32
      flags := 0 }

/-- The conversion ends exactly if no time is before the epoch. -/
theorem statToAttr_returns_iff
    {st : Stat}
    {rest : StatRest}
    (atime : st.atime.Representable)
    (mtime : st.mtime.Representable)
    (ctime : rest.ctime.Representable) :
    (∃ attr, statToAttr st rest = some attr ∧ attr.atime = st.atime ∧
        attr.mtime = st.mtime ∧ attr.ctime = rest.ctime) ↔
      0 ≤ st.atime.sec ∧ 0 ≤ st.mtime.sec ∧ 0 ≤ rest.ctime.sec := by
  unfold statToAttr
  rw [systemTime_eq atime, systemTime_eq mtime, systemTime_eq ctime]
  by_cases accessed : 0 ≤ st.atime.sec
  · by_cases modified : 0 ≤ st.mtime.sec
    · by_cases changed : 0 ≤ rest.ctime.sec
      · simp [accessed, modified, changed]
      · simp [accessed, modified, changed]
    · simp [accessed, modified]
  · simp [accessed]

/-! ## What `rpl_stat` makes of an object -/

/-- A `stat` with an override text; one that cannot be parsed is ignored. -/
def overridden
    (text : Option (List UInt8))
    (st : Stat) :
    Stat :=
  (text.bind fun text =>
    (Override.parseAndApplyOverride text st).toOption).getD st

/-- A `stat` as a layer presents it, given what the attribute reads. -/
def Layer.shown
    (layer : Layer)
    (text : Name → Option (List UInt8))
    (st : Stat) :
    Stat :=
  match Override.overrideXattr layer.statOverrideMode with
  | none => st
  | some attr =>
      if st.mode.kind = some .dir ∨ st.mode.kind = some .reg then
        overridden (text attr) st
      else
        st

namespace Env

variable (env : Env)

/-- What a read of an attribute with a buffer of `size` bytes answers. -/
def readXattr
    (attr : Name)
    (size : Nat)
    (obj : Obj) :
    Except Errno (List UInt8) := do
  Syscall.readableXattr env attr
  match obj.xattrs.get? attr with
  | none => .error .ENODATA
  | some value => Syscall.fitting size value

/-- The text of the override attribute, when it can be read and is text. -/
def overrideText
    (attr : Name)
    (obj : Obj) :
    Option (List UInt8) :=
  match env.readXattr attr 64 obj with
  | .ok value => if Override.isUtf8 value then some value else none
  | .error _ => none

/-- The owner that a reply names for one of the host. -/
def presentUid (uid : UInt32) : UInt32 :=
  findMapping uid env.config.uidMappings true env.config.squashToRoot
    env.config.squashToUid env.host.overflowUid

/-- The group that a reply names for one of the host. -/
def presentGid (gid : UInt32) : UInt32 :=
  findMapping gid env.config.gidMappings true env.config.squashToRoot
    env.config.squashToGid env.host.overflowGid

/-- The attributes of an object up to its number and its links. -/
def present (st : Stat) : Stat :=
  { st with uid := env.presentUid st.uid, gid := env.presentGid st.gid }

end Env

/-- The override names no times. -/
theorem overridden_times
    (text : Option (List UInt8))
    (st : Stat) :
    (overridden text st).atime = st.atime ∧
      (overridden text st).mtime = st.mtime := by
  unfold overridden
  cases text with
  | none =>
      exact ⟨rfl, rfl⟩
  | some text =>
      simp only [Option.bind_some]
      cases applied : Override.parseAndApplyOverride text st with
      | error errno =>
          exact ⟨rfl, rfl⟩
      | ok st' =>
          unfold Override.parseAndApplyOverride at applied
          split at applied
          · split at applied
            · split at applied
              · cases applied
                exact ⟨rfl, rfl⟩
              · cases applied
            · cases applied
          · cases applied

theorem Layer.shown_times
    (layer : Layer)
    (text : Name → Option (List UInt8))
    (st : Stat) :
    (layer.shown text st).atime = st.atime ∧
      (layer.shown text st).mtime = st.mtime := by
  unfold shown
  split
  · exact ⟨rfl, rfl⟩
  · split
    · exact overridden_times _ st
    · exact ⟨rfl, rfl⟩

/-! ## Where a node is looked up -/

namespace OvlNode

/-- The root below which the object of a node is. -/
def statRoot (node : OvlNode) : Root :=
  if node.hidden then .workdir else .layer node.layerIdx

/-- The path that `rpl_stat` passes on; `path` is the one of the names. -/
def statPath
    (node : OvlNode)
    (path : Path) :
    Path :=
  if node.hidden then [node.hiddenPath.getD []] else path

end OvlNode

namespace Disk

/-- The object whose `stat` a reply carries. -/
def objectOf
    (disk : Disk)
    (node : OvlNode)
    (path : Path) :
    Option ObjId :=
  if node.hidden then
    disk.names.get? (Loc.entry ⟨.workdir, []⟩ (node.hiddenPath.getD []))
  else
    disk.idAt (.layer node.layerIdx) path

/-- The object whose override attribute a reply carries: of a hidden node too
it is looked up on the layer. -/
def overrideOf
    (disk : Disk)
    (node : OvlNode)
    (path : Path) :
    Option ObjId :=
  disk.idAt (.layer node.layerIdx) (node.statPath path)

/-- The override text of an object, if there is the object. -/
def textOf
    (env : Env)
    (disk : Disk)
    (id : Option ObjId)
    (attr : Name) :
    Option (List UInt8) :=
  (id.bind disk.objs.get?).bind (env.overrideText attr)

/-- The object of a node on a layer. -/
structure HoldsAt
    (env : Env)
    (disk : Disk)
    (node : OvlNode)
    (path : Path)
    (layer : Layer)
    (id : ObjId)
    (obj : Obj) : Prop where
  isLayer : env.layers[node.layerIdx]? = some layer
  at_ : disk.objectOf node path = some id
  stored : disk.objs.get? id = some obj

/-- The attributes that a reply carries, up to number and links. -/
def presented
    (env : Env)
    (disk : Disk)
    (node : OvlNode)
    (path : Path)
    (layer : Layer)
    (id : ObjId)
    (obj : Obj) :
    Stat :=
  env.present (layer.shown (disk.textOf env (disk.overrideOf node path))
    (disk.statObj node.statRoot id obj))

/-- The reply carries the attributes of the object. -/
def Shows
    (env : Env)
    (disk : Disk)
    (node : OvlNode)
    (path : Path)
    (layer : Layer)
    (id : ObjId)
    (obj : Obj)
    (st : Stat) : Prop :=
  st = { disk.presented env node path layer id obj with
    ino := st.ino, nlink := st.nlink }

section

variable {env : Env} {disk : Disk} {node again : OvlNode} {path : Path}
  {layer : Layer} {id : ObjId} {obj : Obj} {st : Stat}

theorem Frames.objectOf
    {β : Type}
    {view : Obj → β}
    {later : Disk}
    (frames : Frames view disk later)
    (node : OvlNode)
    (path : Path) :
    later.objectOf node path = disk.objectOf node path := by
  unfold Disk.objectOf
  rw [frames.names, frames.idAt]

/-- No override changes the times of a reply. -/
theorem Shows.times
    (shows : disk.Shows env node path layer id obj st) :
    st.atime = obj.atime ∧ st.mtime = obj.mtime := by
  unfold Shows at shows
  rw [shows]
  exact layer.shown_times _ _

/-- Only the place of the node counts. -/
theorem HoldsAt.samePlace
    (same : NodeArena.placeOf again = NodeArena.placeOf node)
    (holds : disk.HoldsAt env again path layer id obj)
    (shows : disk.Shows env again path layer id obj st) :
    disk.HoldsAt env node path layer id obj ∧
      disk.Shows env node path layer id obj st := by
  have sameLayer : again.layerIdx = node.layerIdx := congrArg (·.2.1) same
  have sameHidden : again.hidden = node.hidden := congrArg (·.2.2.1) same
  have samePath : again.hiddenPath = node.hiddenPath :=
    congrArg (·.2.2.2.1) same
  have sameObject : disk.objectOf again path = disk.objectOf node path := by
    unfold objectOf
    rw [sameLayer, sameHidden, samePath]
  have samePresented :
      disk.presented env again path layer id obj =
        disk.presented env node path layer id obj := by
    unfold presented overrideOf OvlNode.statPath OvlNode.statRoot
    rw [sameLayer, sameHidden, samePath]
  refine ⟨⟨?_, ?_, holds.stored⟩, ?_⟩
  · rw [← sameLayer]
    exact holds.isLayer
  · rw [← sameObject]
    exact holds.at_
  · unfold Shows
    rw [← samePresented]
    exact shows

end

end Disk

namespace Syscall

variable {env : Env} {os : Os}

/-- What `getxattr` reads of the override attribute. -/
theorem getxattr_text
    (noFaults : os.faults = [])
    (layerIdx : Nat)
    (path : Path)
    (attr : Name) :
    ∃ read,
      getxattr env (.layer layerIdx) path attr 64 os = (read, os) ∧
      os.disk.textOf env (os.disk.idAt (.layer layerIdx) path) attr =
        match read with
        | .ok value => if Override.isUtf8 value then some value else none
        | .error _ => none := by
  unfold getxattr
  rw [query_noFaults noFaults]
  refine ⟨_, rfl, ?_⟩
  unfold Disk.textOf Disk.idAt Disk.getxattr Env.overrideText Env.readXattr
  cases readableXattr env attr with
  | error errno =>
      simp [bind, Except.bind]
  | ok granted =>
      cases os.disk.locate ⟨.layer layerIdx, []⟩ path with
      | error errno =>
          rfl
      | ok loc =>
          simp only
          cases os.disk.names.get? loc with
          | none =>
              rfl
          | some id =>
              unfold Disk.xattrOf
              simp only [Option.bind_some]
              cases os.disk.objs.get? id with
              | none =>
                  rfl
              | some obj =>
                  simp only [Option.bind_some]
                  cases obj.xattrs.get? attr <;> rfl

/-- An override that fails leaves the `stat` alone. -/
theorem attempt_overrideMode
    (noFaults : os.faults = [])
    (layerIdx : Nat)
    (layer : Layer)
    (path : Path)
    (st : Stat) :
    ∃ outcome,
      (overrideMode env layerIdx layer path st).attempt os =
        (.ok outcome, os) ∧
      outcome.toOption.getD st =
        layer.shown
          (os.disk.textOf env (os.disk.idAt (.layer layerIdx) path)) st := by
  unfold overrideMode Layer.shown
  cases Override.overrideXattr layer.statOverrideMode with
  | none =>
      exact ⟨.ok st, rfl, rfl⟩
  | some attr =>
      simp only
      split
      · obtain ⟨read, answers, isText⟩ :=
          @getxattr_text env os noFaults layerIdx path attr
        have attempted :
            (getxattr env (.layer layerIdx) path attr 64).attempt os =
              (.ok read, os) := by
          rw [Act.attempt_apply, answers]
        rw [Act.attempt_apply, Act.bind_ok attempted, isText]
        unfold overridden
        cases read with
        | ok value =>
            simp only
            split
            · exact ⟨_, rfl, rfl⟩
            · exact ⟨.error .EINVAL, rfl, rfl⟩
        | error errno =>
            cases errno with
            | ENODATA =>
                exact ⟨.ok st, rfl, rfl⟩
            | ENOTSUP =>
                exact ⟨.ok st, rfl, rfl⟩
            | _ =>
                exact ⟨.error _, rfl, rfl⟩
      · exact ⟨.ok st, rfl, rfl⟩

/-- `do_stat_with_path` reads the object of the node. -/
theorem doStatWithPath_returns
    (noFaults : os.faults = [])
    {node : OvlNode}
    {path : Path}
    {st : Stat}
    {later : Os}
    (returned : doStatWithPath env node (node.statPath path) os =
      (.ok st, later)) :
    ∃ id obj, os.disk.objectOf node path = some id ∧
      os.disk.objs.get? id = some obj ∧
      st = os.disk.statObj node.statRoot id obj ∧ later = os := by
  unfold doStatWithPath at returned
  obtain ⟨_, between, granted, rest⟩ :=
    Act.bind_returns (congrArg Prod.fst returned)
  obtain ⟨-, rfl⟩ := Act.orFail_returns granted
  rw [rest] at returned
  unfold Disk.objectOf OvlNode.statRoot
  unfold OvlNode.statPath at returned
  split at returned
  · next hidden =>
      rw [fstatat, query_noFaults noFaults] at returned
      obtain ⟨onDisk, sameOs⟩ := Prod.mk.inj returned
      unfold Disk.statLoc at onDisk
      simp only [hidden, ↓reduceIte]
      split at onDisk
      · cases onDisk
      · next id named =>
          split at onDisk
          · cases onDisk
          · next obj stored =>
              have sameRoot :
                  (Loc.entry ⟨.workdir, []⟩ (node.hiddenPath.getD [])).root =
                    .workdir := by
                unfold Loc.entry Loc.child
                split <;> rfl
              rw [sameRoot] at onDisk
              cases onDisk
              exact ⟨id, obj, named, stored, rfl, sameOs.symm⟩
  · next visible =>
      rw [statat, query_noFaults noFaults] at returned
      obtain ⟨onDisk, sameOs⟩ := Prod.mk.inj returned
      simp only [visible, Bool.false_eq_true, ↓reduceIte] at onDisk ⊢
      obtain ⟨id, obj, at_, stored, isStat⟩ :=
        Disk.statat_returns_iff.mp onDisk
      exact ⟨id, obj, at_, stored, isStat, sameOs.symm⟩

end Syscall

namespace Daemon

open Syscall

variable {env : Env} {sys : Sys}

theorem rplStat_eq
    {id : NodeId}
    {node : OvlNode}
    (stored : sys.nodes.get? id = some node) :
    rplStat env id sys =
      rplStatWithPath env id (node.statPath (nodeParts sys.nodes id)) sys := by
  unfold rplStat OvlNode.statPath
  rw [Act.bind_ok (node_apply stored)]
  split
  · rfl
  · rfl

/-- The attributes of a node are those of its object. -/
theorem rplStat_returns
    (noFaults : sys.os.faults = [])
    {id : NodeId}
    {node : OvlNode}
    (stored : sys.nodes.get? id = some node)
    {st : Stat}
    (replied : (rplStat env id sys).1 = .ok st) :
    ∃ layer objId obj,
      sys.os.disk.HoldsAt env node (nodeParts sys.nodes id) layer objId obj ∧
      sys.os.disk.Shows env node (nodeParts sys.nodes id) layer objId obj
        st := by
  rw [rplStat_eq stored] at replied
  unfold rplStatWithPath at replied
  obtain ⟨found, later, asked, rest⟩ := Act.bind_returns replied
  obtain ⟨known, rfl⟩ := node_returns asked
  rw [stored] at known
  cases known
  rw [rest] at replied
  obtain ⟨st', called, asked, rest⟩ := Act.bind_returns replied
  rw [rest] at replied
  obtain ⟨layer, afterLayer, asked', rest⟩ := Act.bind_returns replied
  obtain ⟨isLayer, rfl⟩ := layer_returns asked'
  rw [rest] at replied
  obtain ⟨ran, shape⟩ := lift_returns asked
  obtain ⟨objId, obj, at_, objStored, rfl, sameOs⟩ :=
    doStatWithPath_returns noFaults ran
  have same : afterLayer = later := by
    rw [shape, sameOs]
  subst same
  obtain ⟨outcome, overrides, isShown⟩ :=
    @attempt_overrideMode env afterLayer.os noFaults node.layerIdx layer
      (node.statPath (nodeParts afterLayer.nodes id))
      (afterLayer.os.disk.statObj node.statRoot objId obj)
  rw [Act.bind_ok (lift_apply overrides)] at replied
  obtain ⟨ino, later, numbered, rest⟩ := Act.bind_returns replied
  rw [rest, isShown] at replied
  refine ⟨layer, objId, obj, ⟨isLayer, at_, objStored⟩, ?_⟩
  unfold Disk.Shows
  rw [← Except.ok.inj replied]
  rfl

/-- A node and its path after its directory was loaded. -/
theorem Reloaded.root
    {later : Sys}
    (reloaded : Reloaded sys later)
    (ok : TreeOk sys)
    {root : OvlNode}
    (stored : sys.nodes.get? rootId = some root) :
    ∃ again, later.nodes.get? rootId = some again ∧
      NodeArena.placeOf again = NodeArena.placeOf root ∧
      nodeParts later.nodes rootId = nodeParts sys.nodes rootId := by
  have bounded : ∀ {id}, sys.nodes.Live id → id < sys.nodes.nextId :=
    ok.tree.bounded
  obtain ⟨again, storedLater, samePlace⟩ :=
    reloaded.nodes.stored bounded stored
  refine ⟨again, storedLater, samePlace, ?_⟩
  obtain ⟨found, known, noParent, -⟩ := ok.tree.root
  have top : sys.nodes.Ascends rootId [] := .top known noParent
  rw [(reloaded.nodes.ascends bounded top).nodeParts_eq, top.nodeParts_eq]

/-- What `getattr` replies without a fault. -/
theorem getattr_returns
    (ok : TreeOk sys)
    (noFaults : sys.os.faults = [])
    {ino : UInt64}
    {id : NodeId}
    {node : OvlNode}
    (named : lookupNodeId sys.nodes sys.inodes ino = some id)
    (stored : sys.nodes.get? id = some node)
    {st : Stat}
    (replied : (getattr env ino sys).1 = .ok (.attr st)) :
    ∃ layer objId obj,
      sys.os.disk.HoldsAt env node (nodeParts sys.nodes id) layer objId obj ∧
      sys.os.disk.Shows env node (nodeParts sys.nodes id) layer objId obj
        st := by
  have unwrap :
      ∀ {id sys}, ((.attr <$> rplStat env id : Daemon Reply) sys).1 =
        .ok (.attr st) → (rplStat env id sys).1 = .ok st := by
    intro id sys replied
    change ((rplStat env id >>= fun st => pure (Reply.attr st)) sys).1 = _
      at replied
    obtain ⟨value, later, ran, rest⟩ := Act.bind_returns replied
    rw [rest] at replied
    cases replied
    rw [ran]
  unfold getattr at replied
  split at replied
  · next isRoot =>
      have atRoot : id = rootId := by
        unfold lookupNodeId at named
        rw [if_pos isRoot] at named
        exact (Option.some.inj named).symm
      subst atRoot
      have reloaded := @ensureRootLoaded_reloaded env sys noFaults
      obtain ⟨_, later, ran, rest⟩ := Act.bind_returns replied
      rw [rest] at replied
      rw [ran] at reloaded
      obtain ⟨again, storedLater, samePlace, samePath⟩ :=
        reloaded.root ok stored
      have shown := rplStat_returns (reloaded.os ▸ noFaults) storedLater
        (unwrap replied)
      rw [reloaded.os, samePath] at shown
      obtain ⟨layer, objId, obj, holds, shows⟩ := shown
      exact ⟨layer, objId, obj, holds.samePlace samePlace shows⟩
  · obtain ⟨found, later, ran, rest⟩ := Act.bind_returns replied
    obtain ⟨resolved, -, rfl⟩ := resolveNode_returns ran
    rw [named] at resolved
    cases resolved
    rw [rest] at replied
    exact rplStat_returns noFaults stored (unwrap replied)

end Daemon

end FuseOverlay
