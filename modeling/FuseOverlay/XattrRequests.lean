import FuseOverlay.DaemonSteps
import FuseOverlay.Observing
import FuseOverlay.Sample

namespace FuseOverlay

/-!
# What setting an attribute can change

`setxattr` and `removexattr` change one attribute of one object, after the
object was copied up.  The names that make a directory opaque are out of reach,
because `encode_xattr_name` gives none of them; the names that carry the owner
and mode of an overridden layer are not.  As long as the attribute is not one
that the mount reads of that object, now or after a remount, nothing that can
be observed changes.
-/

namespace Xattr

def overrideStat : Name := ascii "user.fuseoverlayfs.override_stat"

/-- The attributes of a layer's root that choose its override mode. -/
def modeXattrs : List Name :=
  [privilegedOverrideStat, containersOverrideStat, overrideStat]

/-- The attributes that can carry the owner of an object. -/
def ownerXattrs : List Name :=
  [privilegedOverrideStat, containersOverrideStat]

/-- A name under one of the three hidden prefixes. -/
def isHidden (name : Name) : Bool :=
  xattrPrefix.isPrefixOf name || privilegedPrefix.isPrefixOf name
    || unprivilegedPrefix.isPrefixOf name

/-- The encoded name starts with a prefix that is not hidden. -/
theorem not_hidden_encoded
    (name : Name) :
    isHidden (containersOverridePrefix ++ name) = false :=
  rfl

/-- No hidden name is written or removed. -/
theorem not_hidden_of_encode
    {name encoded : Name}
    {mode : StatOverrideMode}
    (given : encodeXattrName name mode = some encoded) :
    isHidden encoded = false := by
  unfold encodeXattrName at given
  split at given
  · next access =>
      cases given
      unfold canAccessXattr at access
      unfold isHidden
      simp only [Bool.and_eq_true, Bool.not_eq_true'] at access
      simp [access.1.1.1, access.1.1.2, access.1.2]
  · split at given
    · cases given
    · split at given
      · cases given
      · cases given
        exact not_hidden_encoded name

theorem isHidden_of_mem_opaqueXattrs
    {attr : Name}
    (mark : attr ∈ Whiteout.opaqueXattrs) :
    isHidden attr = true := by
  simp only [Whiteout.opaqueXattrs, List.mem_cons, List.not_mem_nil,
    or_false] at mark
  rcases mark with rfl | rfl | rfl <;> decide

/-- A mode is chosen by an owner attribute or by a hidden one. -/
theorem mem_ownerXattrs_of_mem_modeXattrs
    {attr : Name}
    (isMode : attr ∈ modeXattrs)
    (visible : isHidden attr = false) :
    attr ∈ ownerXattrs := by
  simp only [modeXattrs, List.mem_cons, List.not_mem_nil, or_false] at isMode
  rcases isMode with rfl | rfl | rfl
  · simp [ownerXattrs]
  · simp [ownerXattrs]
  · exact absurd visible (by decide)

theorem mem_ownerXattrs_of_override
    {mode : StatOverrideMode}
    {attr : Name}
    (override : Override.overrideXattr mode = some attr) :
    attr ∈ ownerXattrs := by
  cases mode with
  | none =>
      cases override
  | user =>
      cases override
      simp [ownerXattrs]
  | privileged =>
      cases override
      simp [ownerXattrs]
  | containers =>
      cases override
      simp [ownerXattrs]

end Xattr

/-! ## A fresh mount -/

namespace Env

/-- Whether the root of a layer has an attribute that `load_data_source` asks
for. -/
def rootHas
    (env : Env)
    (disk : Disk)
    (root : Root)
    (attr : Name) : Bool :=
  match disk.names.get? ⟨root, []⟩ with
  | none => false
  | some id =>
      match Syscall.readableXattr env attr, disk.xattrOf id attr with
      | .ok (), .ok value => value.length ≤ 64
      | _, _ => false

/-- The override mode that `load_data_source` finds. -/
def detectStatOverride
    (env : Env)
    (disk : Disk)
    (root : Root) :
    StatOverrideMode :=
  if env.rootHas disk root Xattr.privilegedOverrideStat then .privileged
  else if env.rootHas disk root Xattr.containersOverrideStat then .containers
  else if env.rootHas disk root Xattr.overrideStat then .user
  else .none

/-- The mode of a layer in `init_layers`; the option is for the upper one. -/
def layerMode
    (permissions : Int)
    (low : Bool)
    (detected : StatOverrideMode) :
    StatOverrideMode :=
  if detected = .none && !low then
    if permissions = 1 then .privileged
    else if permissions = 2 then .containers
    else .none
  else
    detected

/-- The mount that `init_layers` sets up over the trees of another one. -/
def remount
    (env : Env)
    (permissions : Int)
    (disk : Disk) :
    Env :=
  { env with
    layers := env.layers.mapIdx fun idx layer =>
      { layer with
        statOverrideMode := layerMode permissions layer.low
          (env.detectStatOverride disk (.layer idx)) } }

end Env

namespace Sys

/-- Every run of observing requests replies the same, also after a remount. -/
def Alike
    (env : Env)
    (permissions : Int)
    (first second : Sys) : Prop :=
  ∀ calls : List Call, (∀ call ∈ calls, call.request.Observes) →
    first.replies env calls = second.replies env calls ∧
    (mount (env.remount permissions first.os.disk) first.os.disk).replies
        (env.remount permissions first.os.disk) calls =
      (mount (env.remount permissions second.os.disk) second.os.disk).replies
        (env.remount permissions second.os.disk) calls

/--
The attribute carries the owner of the object in the mount or in one set up
over its trees, or chooses the mode of a layer there.
-/
def Steers
    (env : Env)
    (permissions : Int)
    (disk : Disk)
    (id : ObjId)
    (attr : Name) : Prop :=
  env.ReadsOwner disk.names id attr ∨
    (env.remount permissions disk).ReadsOwner disk.names id attr ∨
    (∃ idx, disk.names.get? ⟨.layer idx, []⟩ = some id) ∧
      attr ∈ Xattr.ownerXattrs

variable {env : Env} {permissions : Int}

theorem Alike.trans
    {first second third : Sys}
    (left : Alike env permissions first second)
    (right : Alike env permissions second third) :
    Alike env permissions first third := by
  intro calls observing
  obtain ⟨running, remounted⟩ := left calls observing
  obtain ⟨running', remounted'⟩ := right calls observing
  exact ⟨running.trans running', remounted.trans remounted'⟩

/-- The modes of a remount depend on attributes of the roots only. -/
theorem remount_eq
    {first second : Disk}
    (sameNames : first.names = second.names)
    (sameModes :
      ∀ idx id attr, first.names.get? ⟨.layer idx, []⟩ = some id →
        attr ∈ Xattr.modeXattrs →
        first.xattrOf id attr = second.xattrOf id attr) :
    env.remount permissions first = env.remount permissions second := by
  have sameRoots :
      ∀ idx attr, attr ∈ Xattr.modeXattrs →
        env.rootHas first (.layer idx) attr =
          env.rootHas second (.layer idx) attr := by
    intro idx attr asked
    unfold Env.rootHas
    rw [← sameNames]
    cases named : first.names.get? ⟨.layer idx, []⟩ with
    | none =>
        rfl
    | some id =>
        simp only [sameModes idx id attr named asked]
  have sameDetected :
      ∀ idx, env.detectStatOverride first (.layer idx) =
        env.detectStatOverride second (.layer idx) := by
    intro idx
    unfold Env.detectStatOverride
    rw [sameRoots idx _ (by simp [Xattr.modeXattrs]),
      sameRoots idx _ (by simp [Xattr.modeXattrs]),
      sameRoots idx _ (by simp [Xattr.modeXattrs])]
  unfold Env.remount
  simp only [sameDetected]

/-- A state whose trees are twins for the mount and for a remount. -/
theorem alike_of_twin
    {first second : Sys}
    (twin : Twin env first second)
    (fresh :
      Disk.Twin ((env.remount permissions first.os.disk).Reads
        first.os.disk.names) first.os.disk second.os.disk)
    (sameModes :
      ∀ idx id attr, first.os.disk.names.get? ⟨.layer idx, []⟩ = some id →
        attr ∈ Xattr.modeXattrs →
        first.os.disk.xattrOf id attr = second.os.disk.xattrOf id attr) :
    Alike env permissions first second := by
  intro calls observing
  refine ⟨twin.replies_eq observing, ?_⟩
  rw [← remount_eq fresh.names sameModes]
  have mounted :
      Twin (env.remount permissions first.os.disk)
        (mount (env.remount permissions first.os.disk) first.os.disk)
        (mount (env.remount permissions first.os.disk) second.os.disk) :=
    ⟨⟨fresh, rfl, rfl, rfl, rfl⟩, rfl, rfl, rfl, rfl, rfl, rfl⟩
  exact mounted.replies_eq observing

/-- The faults and the clock of a request are no part of what is observed. -/
theorem alike_of_begin
    {first second : Sys}
    (same : ∀ call, first.begin call = second.begin call) :
    Alike env permissions first second := by
  intro calls _
  have sameDisk :
      ∀ call, (first.begin call).os.disk = (second.begin call).os.disk :=
    fun call => congrArg (fun sys : Sys => sys.os.disk) (same call)
  cases calls with
  | nil =>
      exact ⟨rfl, rfl⟩
  | cons call rest =>
      have sameNames : first.os.disk.names = second.os.disk.names := by
        have shared := congrArg Disk.names (sameDisk call)
        exact shared
      have sameObjs : first.os.disk.objs = second.os.disk.objs := by
        have shared := congrArg Disk.objs (sameDisk call)
        exact shared
      have sameRemount :
          env.remount permissions first.os.disk =
            env.remount permissions second.os.disk := by
        refine remount_eq sameNames fun _ _ _ _ _ => ?_
        unfold Disk.xattrOf
        rw [sameObjs]
      refine ⟨?_, ?_⟩
      · unfold replies Sys.step
        rw [same call]
      · have sameMount :
            (mount (env.remount permissions second.os.disk)
              first.os.disk).begin call =
            (mount (env.remount permissions second.os.disk)
              second.os.disk).begin call := by
          unfold mount begin
          simp only
          rw [show ({ first.os.disk with now := call.now } : Disk) =
            { second.os.disk with now := call.now } from sameDisk call]
        rw [sameRemount]
        unfold replies Sys.step
        rw [sameMount]

end Sys

/-! ## One attribute of one object -/

/-- A change of one object's attributes that leaves what is read. -/
theorem Disk.twin_modifyObj
    {reads : ObjId → Name → Prop}
    (disk : Disk)
    {id : ObjId}
    {attr : Name}
    {change : FMap Name (List UInt8) → FMap Name (List UInt8)}
    (unread : ¬ reads id attr)
    (others :
      ∀ xattrs query, query ≠ attr →
        (change xattrs).get? query = xattrs.get? query) :
    Disk.Twin reads disk
      (disk.modifyObj id fun old => { old with xattrs := change old.xattrs })
    where
  names := rfl
  dev := rfl
  objs := by
    intro query
    have stored :
        (disk.modifyObj id fun old =>
          { old with xattrs := change old.xattrs }).objs.get? query =
          if query = id then (disk.objs.get? id).map fun old =>
            { old with xattrs := change old.xattrs }
          else disk.objs.get? query :=
      FMap.get?_modify ..
    rw [stored]
    by_cases same : query = id
    · subst same
      rw [if_pos rfl]
      cases disk.objs.get? query with
      | none =>
          exact .inl ⟨rfl, rfl⟩
      | some obj =>
          refine .inr ⟨obj, _, rfl, rfl, rfl, fun other isRead => ?_⟩
          refine (others obj.xattrs other ?_).symm
          rintro rfl
          exact unread isRead
    · rw [if_neg same]
      cases disk.objs.get? query with
      | none =>
          exact .inl ⟨rfl, rfl⟩
      | some obj =>
          exact .inr ⟨obj, obj, rfl, rfl, rfl, fun _ _ => rfl⟩

/-- An attribute that is read of no object in question keeps its value. -/
theorem Disk.xattrOf_modifyObj
    (disk : Disk)
    {id query : ObjId}
    {attr other : Name}
    {change : FMap Name (List UInt8) → FMap Name (List UInt8)}
    (apart : ¬ (query = id ∧ other = attr))
    (others :
      ∀ xattrs query, query ≠ attr →
        (change xattrs).get? query = xattrs.get? query) :
    disk.xattrOf query other =
      (disk.modifyObj id fun old =>
        { old with xattrs := change old.xattrs }).xattrOf query other := by
  have twin :
      Disk.Twin (fun object name => object = query ∧ name = other) disk
        (disk.modifyObj id fun old =>
          { old with xattrs := change old.xattrs }) :=
    disk.twin_modifyObj (fun both => apart ⟨both.1.symm, both.2.symm⟩) others
  exact twin.xattrOf ⟨rfl, rfl⟩

namespace Sys

variable {env : Env} {permissions : Int}

/-- Changing an attribute that steers nothing cannot be observed. -/
theorem alike_modifyXattr
    (sys : Sys)
    {id : ObjId}
    {attr : Name}
    {change : FMap Name (List UInt8) → FMap Name (List UInt8)}
    (visible : Xattr.isHidden attr = false)
    (inert : ¬ Steers env permissions sys.os.disk id attr)
    (others :
      ∀ xattrs query, query ≠ attr →
        (change xattrs).get? query = xattrs.get? query) :
    Alike env permissions sys
      { sys with
        os := { sys.os with
          disk := sys.os.disk.modifyObj id fun old =>
            { old with xattrs := change old.xattrs } } } := by
  have noMark : attr ∉ Whiteout.opaqueXattrs := by
    intro mark
    rw [Xattr.isHidden_of_mem_opaqueXattrs mark] at visible
    cases visible
  have running : ¬ env.Reads sys.os.disk.names id attr := by
    rintro (mark | owner)
    · exact noMark mark
    · exact inert (.inl owner)
  have fresh :
      ¬ (env.remount permissions sys.os.disk).Reads sys.os.disk.names id
        attr := by
    rintro (mark | owner)
    · exact noMark mark
    · exact inert (.inr (.inl owner))
  refine alike_of_twin ?_ (sys.os.disk.twin_modifyObj fresh others) ?_
  · exact ⟨⟨sys.os.disk.twin_modifyObj running others, rfl, rfl, rfl, rfl⟩,
      rfl, rfl, rfl, rfl, rfl, rfl⟩
  · intro idx query mode named asked
    refine sys.os.disk.xattrOf_modifyObj ?_ others
    rintro ⟨rfl, rfl⟩
    exact inert (.inr (.inr ⟨⟨idx, named⟩,
      Xattr.mem_ownerXattrs_of_mem_modeXattrs asked visible⟩))

end Sys

/-! ## The two requests -/

namespace Syscall

/-- The call changes one attribute of the object at a path. -/
def ChangesOne
    (env : Env)
    (path : Path)
    (attr : Name)
    (act : Syscall Unit) : Prop :=
  ∀ os, (act os).1 = .ok () →
    ∃ loc id, ∃ change : FMap Name (List UInt8) → FMap Name (List UInt8),
      ∃ faults,
        procLocate env os.disk (.layer 0) [] path = .ok loc ∧
        os.disk.names.get? loc = some id ∧
        (∀ xattrs query, query ≠ attr →
          (change xattrs).get? query = xattrs.get? query) ∧
        (act os).2 =
          { os with
            disk := os.disk.modifyObj id fun old =>
              { old with xattrs := change old.xattrs }
            faults := faults }

theorem changesOne_lsetxattr
    (env : Env)
    (path : Path)
    (attr : Name)
    (value : List UInt8)
    (create replace : Bool) :
    ChangesOne env path attr
      (lsetxattr env (.layer 0) path attr value create replace) := by
  intro os returned
  have others :
      ∀ (xattrs : FMap Name (List UInt8)) query, query ≠ attr →
        (xattrs.set attr value).get? query = xattrs.get? query :=
    fun xattrs query apart => FMap.get?_set_of_ne xattrs apart value
  obtain ⟨disk, faults, ran, later⟩ := change_returns returned
  cases allowed : writableXattr env attr with
  | error errno =>
      simp only [allowed, bind, Except.bind] at ran
      cases ran
  | ok granted =>
      cases located : procLocate env os.disk (.layer 0) [] path with
      | error errno =>
          simp only [allowed, located, bind, Except.bind] at ran
          cases ran
      | ok loc =>
          simp only [allowed, located, bind, Except.bind] at ran
          split at ran
          · cases ran
          · next id named =>
              -- the value goes in whether or not there was one before
              have set :
                  disk = os.disk.modifyObj id fun old =>
                    { old with xattrs := old.xattrs.set attr value } := by
                split at ran
                · split at ran
                  · cases ran
                  · exact (Except.ok.inj ran).symm
                · split at ran
                  · cases ran
                  · exact (Except.ok.inj ran).symm
              refine ⟨loc, id, (·.set attr value), faults, rfl, named, others,
                ?_⟩
              rw [← set]
              exact later

theorem changesOne_lremovexattr
    (env : Env)
    (path : Path)
    (attr : Name) :
    ChangesOne env path attr (lremovexattr env (.layer 0) path attr) := by
  intro os returned
  have others :
      ∀ (xattrs : FMap Name (List UInt8)) query, query ≠ attr →
        (xattrs.remove attr).get? query = xattrs.get? query := by
    intro xattrs query apart
    rw [FMap.get?_remove, if_neg apart]
  obtain ⟨disk, faults, ran, later⟩ := change_returns returned
  cases allowed : writableXattr env attr with
  | error errno =>
      simp only [allowed, bind, Except.bind] at ran
      cases ran
  | ok granted =>
      cases located : procLocate env os.disk (.layer 0) [] path with
      | error errno =>
          simp only [allowed, located, bind, Except.bind] at ran
          cases ran
      | ok loc =>
          simp only [allowed, located, bind, Except.bind] at ran
          split at ran
          · cases ran
          · next id named =>
              split at ran
              · cases ran
              · cases ran
                exact ⟨loc, id, (·.remove attr), faults, rfl, named, others,
                  later⟩

end Syscall




/-- The request changes the attribute of a number's object. -/
def Request.ChangesXattr
    (ino : UInt64)
    (attr : Name) :
    Request → Prop
  | .setxattr number name _ _ _ => number = ino ∧ name = attr
  | .removexattr number name => number = ino ∧ name = attr
  | _ => False

namespace Sys

/-- The state once the node of the request is on the upper layer. -/
def copiedUp
    (env : Env)
    (sys : Sys)
    (call : Call)
    (nodeId : NodeId) :
    Sys :=
  (Daemon.getNodeUp env nodeId (sys.begin call)).2

/-- The attribute is not one that the mount reads of the node's object. -/
def Inert
    (env : Env)
    (permissions : Int)
    (sys : Sys)
    (nodeId : NodeId)
    (attr : Name) : Prop :=
  ∀ node layer encoded loc id,
    sys.nodes.get? nodeId = some node →
    env.layers[node.layerIdx]? = some layer →
    Xattr.encodeXattrName attr layer.statOverrideMode = some encoded →
    Syscall.procLocate env sys.os.disk (.layer 0) []
      (nodeParts sys.nodes nodeId) = .ok loc →
    sys.os.disk.names.get? loc = some id →
    ¬ Steers env permissions sys.os.disk id encoded

variable {env : Env} {permissions : Int}

/-- Both requests, by the call that they end with. -/
theorem alike_withXattr
    {sys : Sys}
    {call : Call}
    {ino : UInt64}
    {nodeId : NodeId}
    {attr : Name}
    {final : Path → Name → Syscall Unit}
    (one : ∀ path encoded,
      Syscall.ChangesOne env path encoded (final path encoded))
    (named : Daemon.lookupNodeId sys.nodes sys.inodes ino = some nodeId)
    (inert : Inert env permissions (sys.copiedUp env call nodeId) nodeId attr)
    {act : Daemon Reply}
    (shape : act = do
      Act.check (Override.isUtf8 attr) .EINVAL
      Act.check (!env.config.disableXattrs) .ENOSYS
      let nodeId ← Act.orFail (← Daemon.resolveIno ino) .ENOENT
      Daemon.getNodeUp env nodeId
      let path ← Daemon.nodePath nodeId
      let found ← Daemon.node nodeId
      let layer ← Syscall.layer env found.layerIdx
      let encoded ←
        Act.orFail (Xattr.encodeXattrName attr layer.statOverrideMode) .EPERM
      final path encoded
      pure .ok)
    (replied : (act (sys.begin call)).1 = .ok .ok) :
    Alike env permissions (sys.copiedUp env call nodeId)
      (act (sys.begin call)).2 := by
  subst shape
  obtain ⟨_, later, asked, rest⟩ := Act.bind_returns replied
  obtain ⟨-, rfl⟩ := Act.check_returns asked
  rw [rest] at replied ⊢
  obtain ⟨_, later, asked, rest⟩ := Act.bind_returns replied
  obtain ⟨-, rfl⟩ := Act.check_returns asked
  rw [rest] at replied ⊢
  obtain ⟨resolved, later, asked, rest⟩ := Act.bind_returns replied
  cases asked
  rw [rest] at replied ⊢
  obtain ⟨target, later, asked, rest⟩ := Act.bind_returns replied
  obtain ⟨isTarget, rfl⟩ := Act.orFail_returns asked
  rw [rest] at replied ⊢
  have sameNode : target = nodeId := by
    have resolvesTo :
        Daemon.lookupNodeId sys.nodes sys.inodes ino = some target := isTarget
    rw [named] at resolvesTo
    exact (Option.some.inj resolvesTo).symm
  subst sameNode
  obtain ⟨_, copied, asked, rest⟩ := Act.bind_returns replied
  have isCopied : sys.copiedUp env call target = copied :=
    congrArg Prod.snd asked
  rw [isCopied] at inert ⊢
  rw [rest] at replied ⊢
  obtain ⟨path, later, asked, rest⟩ := Act.bind_returns replied
  cases asked
  rw [rest] at replied ⊢
  obtain ⟨found, later, asked, rest⟩ := Act.bind_returns replied
  obtain ⟨known, rfl⟩ := Daemon.node_returns asked
  rw [rest] at replied ⊢
  obtain ⟨layer, later', asked, rest⟩ := Act.bind_returns replied
  obtain ⟨isLayer, rfl⟩ := Daemon.layer_returns asked
  rw [rest] at replied ⊢
  obtain ⟨encoded, later, asked, rest⟩ := Act.bind_returns replied
  obtain ⟨isEncoded, rfl⟩ := Act.orFail_returns asked
  rw [rest] at replied ⊢
  obtain ⟨done, changed, ran, rest⟩ := Act.bind_returns replied
  rw [rest]
  have returned :
      (final (nodeParts later.nodes target) encoded later.os).1 = .ok () :=
    congrArg Prod.fst ran
  obtain ⟨loc, id, change, faults, located, named, others, after⟩ :=
    one _ _ later.os returned
  have reached :
      changed = { later with
        os := (final (nodeParts later.nodes target) encoded later.os).2 } :=
    (congrArg Prod.snd ran).symm
  have steers :=
    inert found layer encoded loc id known isLayer isEncoded located named
  refine (alike_modifyXattr later (Xattr.not_hidden_of_encode isEncoded)
    steers others).trans (alike_of_begin fun call => ?_)
  rw [Act.pure_apply, reached, after]
  rfl

/-- A node of the upper layer is not copied. -/
theorem copiedUp_of_upper
    {env : Env}
    {sys : Sys}
    {nodeId : NodeId}
    {node : OvlNode}
    (upper : Syscall.hasUpper env = true)
    (stored : sys.nodes.get? nodeId = some node)
    (onUpper : node.layerIdx = 0)
    (call : Call) :
    sys.copiedUp env call nodeId = sys.begin call := by
  have asked :
      Daemon.node nodeId (sys.begin call) = (.ok node, sys.begin call) := by
    unfold Daemon.node
    rw [Act.bind_ok (show Daemon.getNode nodeId (sys.begin call) =
      (.ok (some node), sys.begin call) by rw [← stored]; rfl)]
    rfl
  have checked :
      Act.check (Syscall.hasUpper env) Errno.EROFS (sys.begin call) =
        (.ok (), sys.begin call) := by
    rw [upper]
    rfl
  unfold copiedUp Daemon.getNodeUp
  rw [Act.bind_ok checked, Act.bind_ok asked, if_pos onUpper]
  rfl

/-- A name that carries no owner steers nothing. -/
theorem not_steers
    {env : Env}
    {permissions : Int}
    {disk : Disk}
    {attr : Name}
    (id : ObjId)
    (noOwner : attr ∉ Xattr.ownerXattrs) :
    ¬ Steers env permissions disk id attr := by
  rintro (⟨_, _, layer, -, -, override⟩ | ⟨_, _, layer, -, -, override⟩ |
    ⟨-, isMode⟩)
  · exact noOwner (Xattr.mem_ownerXattrs_of_override override)
  · exact noOwner (Xattr.mem_ownerXattrs_of_override override)
  · exact noOwner isMode

end Sys

namespace Sample

/-- An upper layer that keeps owners in an attribute, with one file. -/
def overrideEnv : Env :=
  { env 0 with layers := [⟨false, .containers, true, fun _ => 0⟩] }

def plainFile : Disk :=
  disk 0 [(⟨.layer 0, [ascii "f"]⟩, obj .reg [] 11)]

/-- The file is looked up. -/
def foundFile : Sys :=
  (Sys.mount overrideEnv plainFile).run overrideEnv
    [call (.lookup 1 (ascii "f"))]

def setNote : Call :=
  call (.setxattr 11 (ascii "user.note") [1] false false)

def setOwner : Call :=
  call (.setxattr 11 (ascii "user.containers.override_stat")
    (ascii "1000:1000:4755") false false)

/-- Owner and permissions in a reply. -/
def ownerOf : Except Errno Reply → Option (UInt32 × UInt32)
  | .ok (.attr st) => some (st.uid, st.mode.perm)
  | _ => none

end Sample

namespace Sys

open Sample

end Sys

end FuseOverlay
