import FuseOverlay.Answers
import FuseOverlay.Sample
import FuseOverlay.WholeRequests
import FuseOverlay.XattrRequests

namespace FuseOverlay

/-!
# Names and lists of extended attributes

In the containers mode a name that users must not reach is stored behind a
prefix.  The prefix is a name that users may use themselves, and decoding does
not look at the mode, so encoding and decoding are inverse on the names that do
not look encoded.  A list of names is read into a buffer of the caller's size
before it is filtered.
-/

namespace Xattr

variable {name stored : Name} {mode : StatOverrideMode}

/-- A user name and its stored form belong to each other. -/
def ReadsBack
    (mode : StatOverrideMode)
    (name : Name) : Prop :=
  ∀ stored, encodeXattrName name mode = some stored →
    decodeXattrName stored mode = some name

/-- A stored name that is shown can be asked for under the shown name. -/
def AsksBack
    (mode : StatOverrideMode)
    (stored : Name) : Prop :=
  ∀ name, decodeXattrName stored mode = some name →
    encodeXattrName name mode = some stored

/-- The name without the prefix. -/
theorem eq_append_drop
    (begins : containersOverridePrefix.isPrefixOf stored = true) :
    stored =
      containersOverridePrefix ++
        stored.drop containersOverridePrefix.length := by
  obtain ⟨rest, rfl⟩ := List.isPrefixOf_iff_prefix.mp begins
  rw [List.drop_left]

theorem isEncodedXattrName_append
    (name : Name)
    (mode : StatOverrideMode) :
    isEncodedXattrName (containersOverridePrefix ++ name) mode =
      !canAccessXattr name mode := by
  unfold isEncodedXattrName
  rw [List.drop_left]
  have begins :
      containersOverridePrefix.isPrefixOf (containersOverridePrefix ++ name) =
        true :=
    List.isPrefixOf_iff_prefix.mpr (List.prefix_append _ _)
  rw [begins, Bool.true_and]

/-- The prefixes of names that users must not reach. -/
def hiddenPrefixes : List Name :=
  [xattrPrefix, privilegedPrefix, unprivilegedPrefix, securityPrefix]

/-- A name that begins with the prefix of stored names is no hidden one. -/
theorem canAccessXattr_of_begins
    (begins : containersOverridePrefix.isPrefixOf name = true) :
    canAccessXattr name mode = true := by
  obtain ⟨rest, rfl⟩ := List.isPrefixOf_iff_prefix.mp begins
  have short :
      ∀ hidden ∈ hiddenPrefixes,
        hidden.length ≤ containersOverridePrefix.length := by
    decide
  have different :
      ∀ hidden ∈ hiddenPrefixes, ¬ hidden <+: containersOverridePrefix := by
    decide
  have apart :
      ∀ hidden ∈ hiddenPrefixes,
        hidden.isPrefixOf (containersOverridePrefix ++ rest) = false := by
    intro hidden member
    rw [Bool.eq_false_iff]
    intro hides
    refine different hidden member ?_
    exact List.prefix_of_prefix_length_le
      (List.isPrefixOf_iff_prefix.mp hides) (List.prefix_append _ _)
      (short hidden member)
  unfold canAccessXattr
  simp only [hiddenPrefixes, List.mem_cons, List.not_mem_nil, or_false, forall_eq_or_imp,
    forall_eq] at apart
  rw [apart.1, apart.2.1, apart.2.2.1, apart.2.2.2]
  simp

theorem decodeXattrName_encoded
    (isEncoded : isEncodedXattrName stored mode = true) :
    decodeXattrName stored mode =
      some (stored.drop containersOverridePrefix.length) := by
  unfold decodeXattrName
  rw [if_pos isEncoded]

theorem decodeXattrName_plain
    (notEncoded : isEncodedXattrName stored mode = false)
    (accessible : canAccessXattr stored mode = true) :
    decodeXattrName stored mode = some stored := by
  unfold decodeXattrName
  rw [notEncoded, accessible]
  rfl

/-- A name that looks encoded is shown without the prefix. -/
theorem encoded_not_readsBack
    (isEncoded : isEncodedXattrName name mode = true) :
    ¬ ReadsBack mode name := by
  intro readsBack
  have begins : containersOverridePrefix.isPrefixOf name = true := by
    unfold isEncodedXattrName at isEncoded
    exact (Bool.and_eq_true_iff.mp isEncoded).1
  have stays : encodeXattrName name mode = some name := by
    unfold encodeXattrName
    rw [if_pos (canAccessXattr_of_begins begins)]
  have shown := readsBack name stays
  rw [decodeXattrName_encoded isEncoded, Option.some.injEq] at shown
  have shape := eq_append_drop begins
  rw [shown] at shape
  have lengths := congrArg List.length shape
  rw [List.length_append] at lengths
  have long : 0 < containersOverridePrefix.length := by decide
  omega

theorem readsBack_of_plain
    (notEncoded : isEncodedXattrName name mode = false) :
    ReadsBack mode name := by
  intro stored encoded
  unfold encodeXattrName at encoded
  split at encoded
  · next accessible =>
      cases encoded
      exact decodeXattrName_plain notEncoded accessible
  · next isHidden =>
      split at encoded
      · cases encoded
      · split at encoded
        · cases encoded
        · cases encoded
          have isEncoded :
              isEncodedXattrName (containersOverridePrefix ++ name) mode =
                true := by
            rw [isEncodedXattrName_append]
            simpa using isHidden
          rw [decodeXattrName_encoded isEncoded, List.drop_left]

/-- Outside of the containers mode a shown encoded name cannot be asked. -/
theorem encoded_not_asksBack
    (isEncoded : isEncodedXattrName stored mode = true)
    (otherMode : mode ≠ .containers) :
    ¬ AsksBack mode stored := by
  intro asksBack
  have asked := asksBack _ (decodeXattrName_encoded isEncoded)
  unfold isEncodedXattrName at isEncoded
  have isHidden := (Bool.and_eq_true_iff.mp isEncoded).2
  rw [Bool.not_eq_true'] at isHidden
  unfold encodeXattrName at asked
  rw [isHidden] at asked
  simp [otherMode] at asked

theorem asksBack_of_containers
    (isEncoded : isEncodedXattrName stored .containers = true)
    (fits : stored.length ≤ 255) :
    AsksBack .containers stored := by
  intro name shown
  rw [decodeXattrName_encoded isEncoded, Option.some.injEq] at shown
  unfold isEncodedXattrName at isEncoded
  obtain ⟨begins, isHidden⟩ := Bool.and_eq_true_iff.mp isEncoded
  rw [shown, Bool.not_eq_true'] at isHidden
  have shape := eq_append_drop begins
  rw [shown] at shape
  have short :
      ¬ 255 < name.length + containersOverridePrefix.length := by
    have lengths := congrArg List.length shape
    rw [List.length_append] at lengths
    omega
  unfold encodeXattrName
  rw [isHidden, if_neg Bool.false_ne_true, if_neg (fun differs => differs rfl),
    if_neg short, ← shape]

theorem asksBack_of_plain
    (notEncoded : isEncodedXattrName stored mode = false) :
    AsksBack mode stored := by
  intro name shown
  unfold decodeXattrName at shown
  rw [notEncoded, if_neg Bool.false_ne_true] at shown
  split at shown
  · next accessible =>
      cases shown
      unfold encodeXattrName
      rw [if_pos accessible]
  · cases shown

/--
Encoding and decoding are inverse exactly on the names that do not look
encoded; in the containers mode every stored name can be asked for.
-/
theorem encoding_inverse_iff
    (mode : StatOverrideMode) :
    (∀ name, ReadsBack mode name ↔ isEncodedXattrName name mode = false) ∧
      ∀ stored : Name, stored.length ≤ 255 →
        (AsksBack mode stored ↔
          mode = .containers ∨ isEncodedXattrName stored mode = false) := by
  refine ⟨fun name => ⟨fun readsBack => ?_, readsBack_of_plain⟩,
    fun stored fits => ⟨fun asksBack => ?_, fun allowed => ?_⟩⟩
  · rw [Bool.eq_false_iff]
    exact fun isEncoded => encoded_not_readsBack isEncoded readsBack
  · by_cases isContainers : mode = .containers
    · exact .inl isContainers
    · rw [Bool.eq_false_iff]
      exact .inr fun isEncoded =>
        encoded_not_asksBack isEncoded isContainers asksBack
  · cases isEncoded : isEncodedXattrName stored mode with
    | false =>
        exact asksBack_of_plain isEncoded
    | true =>
        rcases allowed with rfl | notEncoded
        · exact asksBack_of_containers isEncoded fits
        · rw [isEncoded] at notEncoded
          cases notEncoded

/--
Two user names share one stored name, and outside of the containers mode an
internal name is shown that cannot be asked for.
-/
theorem encoding_not_inverse :
    ¬ ReadsBack .containers
        (ascii "user.containers.override_security.x") ∧
      ¬ AsksBack .none
        (ascii "user.containers.override_user.overlay.x") :=
  ⟨encoded_not_readsBack (by decide),
    encoded_not_asksBack (by decide) (by decide)⟩

/-! ## Lists of names -/

/-- The size of a list of names as `llistxattr` gives it. -/
def listBytes (names : List Name) : Nat :=
  (names.map fun name => name.length + 1).sum

/-- A shown name is no longer than the stored one. -/
theorem length_decodeXattrName
    (shown : decodeXattrName stored mode = some name) :
    name.length ≤ stored.length := by
  unfold decodeXattrName at shown
  split at shown
  · cases shown
    rw [List.length_drop]
    omega
  · split at shown
    · cases shown
      exact Nat.le_refl _
    · cases shown

/-- Filtering a list does not make it longer. -/
theorem length_filterXattrList
    (names : List Name)
    (mode : StatOverrideMode) :
    (filterXattrList names mode).length ≤ listBytes names := by
  unfold filterXattrList listBytes
  induction names with
  | nil =>
      exact Nat.le_refl _
  | cons stored rest bounded =>
      rw [List.map_cons, List.sum_cons, List.filter_cons]
      split
      · rw [List.flatMap_cons, List.length_append]
        refine Nat.add_le_add ?_ bounded
        split
        · next decoded shown =>
            rw [List.length_append, List.length_singleton]
            exact Nat.add_le_add_right (length_decodeXattrName shown) 1
        · exact Nat.zero_le _
      · exact Nat.le_trans bounded (Nat.le_add_left _ _)

end Xattr

/-- The names of the attributes of the object that a path leads to. -/
def Disk.xattrNames
    (disk : Disk)
    (root : Root)
    (path : Path) :
    Option (List Name) :=
  match disk.locate ⟨root, []⟩ path with
  | .error _ => none
  | .ok loc => (disk.find? loc).map fun obj => obj.xattrs.toList.map (·.1)

namespace Syscall

variable {env : Env} {root : Root} {path : Path} {size : Nat} {os later : Os}

/-- The list that a call returned is the stored one and fitted the buffer. -/
theorem listxattr_returns
    {names : List Name}
    (returned : listxattr env root path size os = (.ok names, later)) :
    env.host.xattrs = true ∧ os.disk.xattrNames root path = some names ∧
      Xattr.listBytes names ≤ size := by
  obtain ⟨read, -⟩ := query_returns returned
  cases supported : env.host.xattrs with
  | false =>
      rw [supported] at read
      cases read
  | true =>
      rw [supported] at read
      unfold Disk.xattrNames
      cases located : os.disk.locate ⟨root, []⟩ path with
      | error errno =>
          rw [located] at read
          cases read
      | ok loc =>
          cases stored : os.disk.find? loc with
          | none =>
              simp only [located, stored] at read
              cases read
          | some obj =>
              simp only [located, stored] at read
              rw [if_neg (by decide)] at read
              split at read
              · next fits =>
                  cases read
                  refine ⟨rfl, ?_, fits⟩
                  simp only [stored, Option.map_some]
              · cases read

/-- Without an error of the disk the call fails only for a short buffer. -/
theorem listxattr_noFaults
    {names : List Name}
    (noFaults : os.faults = [])
    (supported : env.host.xattrs = true)
    (stored : os.disk.xattrNames root path = some names) :
    listxattr env root path size os =
      (if Xattr.listBytes names ≤ size then .ok names else .error .ERANGE,
        os) := by
  unfold listxattr
  rw [query_noFaults noFaults, supported, if_neg (by decide)]
  unfold Disk.xattrNames at stored
  cases located : os.disk.locate ⟨root, []⟩ path with
  | error errno =>
      rw [located] at stored
      cases stored
  | ok loc =>
      simp only [located, Option.map_eq_some_iff] at stored
      obtain ⟨obj, isObj, rfl⟩ := stored
      simp only [isObj]
      rfl

end Syscall

namespace Sys

/-- The stored names of the object that a number stands for. -/
def storedXattrs
    (env : Env)
    (sys : Sys)
    (ino : UInt64) :
    Option (List Name × StatOverrideMode) := do
  let nodeId ← Daemon.lookupNodeId sys.nodes sys.inodes ino
  let found ← sys.nodes.get? nodeId
  let layer ← env.layers[found.layerIdx]?
  let names ← sys.os.disk.xattrNames (.layer found.layerIdx)
    (nodeParts sys.nodes nodeId)
  pure (names, layer.statOverrideMode)

/-- The reply to a list request of a size, given the size asked for before. -/
def HonoursSize
    (count size : Nat)
    (outcome : Except Errno Reply) : Prop :=
  (count ≤ size →
    ∃ bytes, outcome = .ok (.data bytes) ∧ bytes.length = count) ∧
  (size < count → outcome = .error .ERANGE)

/-- The time of a request does not change what is stored. -/
theorem storedXattrs_begin
    (env : Env)
    (sys : Sys)
    (call : Call)
    (ino : UInt64) :
    (sys.begin call).storedXattrs env ino = sys.storedXattrs env ino := by
  have sameNames :
      ∀ root path,
        (sys.begin call).os.disk.xattrNames root path =
          sys.os.disk.xattrNames root path := by
    intro root path
    have sameLocation :
        (sys.begin call).os.disk.locate ⟨root, []⟩ path =
          sys.os.disk.locate ⟨root, []⟩ path := by
      have alike :
          Disk.WalksAlike sys.os.disk (sys.begin call).os.disk ⟨root, []⟩ :=
        .of_find? fun _ => rfl
      exact Disk.locate_congr alike path
    unfold Disk.xattrNames
    rw [sameLocation]
    rfl
  unfold storedXattrs
  simp only [sameNames]
  rfl

end Sys

namespace Daemon

variable {env : Env} {sys : Sys} {ino : UInt64} {size : Nat}

/-- The buffer that `listxattr` hands to the system call. -/
def listBuffer (size : Nat) : Nat :=
  if size = 0 then 65536 else min size 65536

/-- The reply, once the names were read. -/
def listReply
    (names : List Name)
    (mode : StatOverrideMode)
    (size : Nat) :
    Except Errno Reply :=
  let filtered := Xattr.filterXattrList names mode
  if size = 0 then .ok (.size filtered.length)
  else if filtered.length ≤ size then .ok (.data filtered)
  else .error .ERANGE

/-- A list that was replied is the stored one, and it fitted the buffer. -/
theorem listxattrOf_returns
    {reply : Reply}
    (replied : (listxattrOf env ino size sys).1 = .ok reply) :
    ∃ names mode, sys.storedXattrs env ino = some (names, mode) ∧
      env.config.disableXattrs = false ∧ env.host.xattrs = true ∧
      Xattr.listBytes names ≤ listBuffer size ∧
      listReply names mode size = .ok reply := by
  unfold listxattrOf at replied
  obtain ⟨_, later, asked, rest⟩ := Act.bind_returns replied
  obtain ⟨enabled, rfl⟩ := Act.check_returns asked
  rw [rest] at replied
  obtain ⟨nodeId, resolved, asked, rest⟩ := Act.bind_returns replied
  rw [rest] at replied
  obtain ⟨unchanged, isNode⟩ := resolveNode_state ino later
  rw [asked] at unchanged isNode
  have known := isNode nodeId rfl
  obtain rfl : resolved = later := unchanged
  obtain ⟨path, later, asked, rest⟩ := Act.bind_returns replied
  cases asked
  rw [rest] at replied
  obtain ⟨found, later, asked, rest⟩ := Act.bind_returns replied
  obtain ⟨isFound, rfl⟩ := node_returns asked
  rw [rest] at replied
  obtain ⟨layer, later', asked, rest⟩ := Act.bind_returns replied
  obtain ⟨isLayer, rfl⟩ := layer_returns asked
  rw [rest] at replied
  obtain ⟨names, listed, asked, rest⟩ := Act.bind_returns replied
  rw [rest] at replied
  have returned :
      Syscall.listxattr env (.layer found.layerIdx)
          (nodeParts later'.nodes nodeId) (listBuffer size) later'.os =
        (.ok names, listed.os) :=
    (lift_returns asked).1
  obtain ⟨supported, stored, fits⟩ := Syscall.listxattr_returns returned
  refine ⟨names, layer.statOverrideMode, ?_, by simpa using enabled, supported,
    fits, ?_⟩
  · unfold Sys.storedXattrs
    have isNamed :
        lookupNodeId later'.nodes later'.inodes ino = some nodeId := known
    simp only [isNamed, isFound, isLayer, stored, Option.bind_eq_bind,
      Option.bind_some]
    rfl
  · unfold listReply
    split at replied
    · next probing =>
        simp only [Act.pure_apply] at replied
        rw [if_pos probing, replied]
    · next asking =>
        rw [if_neg asking]
        obtain ⟨_, later, asked, rest⟩ := Act.bind_returns replied
        obtain ⟨holds, rfl⟩ := Act.check_returns asked
        rw [rest, Act.pure_apply] at replied
        rw [if_pos (of_decide_eq_true holds)]
        exact replied

/-- Without an error of the disk the stored list decides the reply. -/
theorem listxattrOf_noFaults
    {names : List Name}
    {mode : StatOverrideMode}
    (noFaults : sys.os.faults = [])
    (enabled : env.config.disableXattrs = false)
    (supported : env.host.xattrs = true)
    (stored : sys.storedXattrs env ino = some (names, mode)) :
    (listxattrOf env ino size sys).1 =
      if Xattr.listBytes names ≤ listBuffer size then
        listReply names mode size
      else .error .ERANGE := by
  unfold Sys.storedXattrs at stored
  simp only [Option.bind_eq_bind, Option.bind_eq_some_iff, Option.pure_def,
    Option.some.injEq, Prod.mk.injEq] at stored
  obtain ⟨nodeId, isNamed, found, isFound, layer, isLayer, names, hasNames,
    rfl, rfl⟩ := stored
  have read : resolveIno ino sys = (.ok (some nodeId), sys) := by
    unfold resolveIno
    rw [Act.gets_apply, isNamed]
  have resolved : resolveNode ino sys = (.ok nodeId, sys) := by
    unfold resolveNode
    rw [Act.bind_ok read, presentOr_apply]
    have live : sys.nodes.containsKey nodeId = true :=
      NodeArena.containsKey_iff.mpr ⟨found, isFound⟩
    rw [live]
    rfl
  have isNode : node nodeId sys = (.ok found, sys) := by
    unfold node
    rw [Act.bind_ok (show getNode nodeId sys = (.ok (some found), sys) by
      unfold getNode; rw [Act.gets_apply, isFound])]
    rfl
  have isLayer' :
      (liftM (Syscall.layer env found.layerIdx) : Daemon Layer) sys =
        (.ok layer, sys) := by
    unfold Syscall.layer
    rw [isLayer]
    rfl
  have isPath : nodePath nodeId sys = (.ok (nodeParts sys.nodes nodeId), sys) :=
    rfl
  have listed :
      (liftM (Syscall.listxattr env (.layer found.layerIdx)
          (nodeParts sys.nodes nodeId) (listBuffer size)) :
          Daemon (List Name)) sys =
        (if Xattr.listBytes names ≤ listBuffer size then .ok names
          else .error .ERANGE, sys) :=
    Syscall.Answers.lift
      (Syscall.listxattr_noFaults noFaults supported hasNames)
  unfold listxattrOf
  rw [Act.bind_ok (Act.check_true (by rw [enabled]; rfl) _ _), Act.bind_ok resolved,
    Act.bind_ok isPath, Act.bind_ok isNode, Act.bind_ok isLayer']
  change (((liftM (Syscall.listxattr env (.layer found.layerIdx)
    (nodeParts sys.nodes nodeId) (listBuffer size)) : Daemon (List Name)) >>= _)
    sys).1 = _
  by_cases fits : Xattr.listBytes names ≤ listBuffer size
  · rw [if_pos fits] at listed ⊢
    rw [Act.bind_ok listed]
    unfold listReply
    split
    · rfl
    · dsimp only
      split
      · next holds =>
          rw [Act.bind_ok (Act.check_true (decide_eq_true holds) _ _)]
          rfl
      · next fails =>
          rw [Act.bind_error (Act.check_false (decide_eq_false fails) _ _)]
  · rw [if_neg fits] at listed ⊢
    rw [Act.bind_error listed]

end Daemon

namespace Sys

variable {env : Env} {sys : Sys} {ino : UInt64} {count size : Nat}

/--
A list request keeps to the size that was replied before, exactly if the
caller's buffer holds the stored list, with its hidden names and prefixes, or
is too short for the shown one.
-/
theorem listxattr_honours_iff
    {names : List Name}
    {mode : StatOverrideMode}
    {probe ask : Call}
    (probing : probe.request = .listxattr ino 0)
    (asking : ask.request = .listxattr ino size)
    (positive : 0 < size)
    (noFaults : ask.faults = [])
    (stored : sys.storedXattrs env ino = some (names, mode))
    (replied : (sys.step env probe).1 = .ok (.size count)) :
    HonoursSize count size (sys.step env ask).1 ↔
      Xattr.listBytes names ≤ size ∨
        size < (Xattr.filterXattrList names mode).length := by
  have probed :
      (Daemon.listxattrOf env ino 0 (sys.begin probe)).1 =
        .ok (.size count) := by
    unfold step at replied
    rw [probing] at replied
    exact replied
  obtain ⟨names', mode', stored', enabled, supported, small, isCount⟩ :=
    Daemon.listxattrOf_returns probed
  rw [storedXattrs_begin, stored, Option.some.injEq, Prod.mk.injEq] at stored'
  obtain ⟨rfl, rfl⟩ := stored'
  have counted : (Xattr.filterXattrList names mode).length = count := by
    simpa [Daemon.listReply] using isCount
  have asked :
      (sys.step env ask).1 =
        if Xattr.listBytes names ≤ Daemon.listBuffer size then
          Daemon.listReply names mode size
        else .error .ERANGE := by
    unfold step
    rw [asking]
    refine Daemon.listxattrOf_noFaults noFaults enabled supported ?_
    rw [storedXattrs_begin, stored]
  have bounded := Xattr.length_filterXattrList names mode
  have sameBuffer :
      Xattr.listBytes names ≤ Daemon.listBuffer size ↔
        Xattr.listBytes names ≤ size := by
    have small : Xattr.listBytes names ≤ 65536 := small
    unfold Daemon.listBuffer
    rw [if_neg (Nat.ne_of_gt positive)]
    omega
  have notProbe : ¬ size = 0 := Nat.ne_of_gt positive
  simp only [sameBuffer] at asked
  rw [counted] at bounded ⊢
  unfold HonoursSize
  by_cases fits : Xattr.listBytes names ≤ size
  · have enough : count ≤ size := Nat.le_trans bounded fits
    rw [if_pos fits] at asked
    unfold Daemon.listReply at asked
    simp only [counted, notProbe, ↓reduceIte, enough] at asked
    refine iff_of_true ⟨fun _ => ⟨_, asked, counted⟩, fun short => ?_⟩
      (.inl fits)
    omega
  · rw [if_neg fits] at asked
    rw [asked]
    refine ⟨fun honours => ?_, fun either => ?_⟩
    · refine .inr (Nat.lt_of_not_le fun enough => ?_)
      obtain ⟨_, replies, -⟩ := honours.1 enough
      cases replies
    · have short : size < count := either.resolve_left fits
      exact ⟨fun enough => absurd enough (Nat.not_le_of_lt short), fun _ => rfl⟩

end Sys

namespace Sample

/-- A root directory with a visible attribute and a hidden one. -/
def attrRoot : Disk :=
  .ofList [(⟨.layer 0, []⟩,
    { obj .dir [] 1001 with
      xattrs :=
        (FMap.set ∅ (ascii "user.a") []).set (ascii "user.overlay.x") [] })]

/-- Ask for the list of the root's attributes. -/
def listRoot (size : Nat) : Call :=
  call (.listxattr 1 size)

end Sample

namespace Sys

open Sample

theorem listxattr_honours_large :
    HonoursSize 7 22 ((mount (env 0) attrRoot).step (env 0) (listRoot 22)).1 :=
  (listxattr_honours_iff (show (listRoot 0).request = _ from rfl) rfl
    (by decide) rfl rfl rfl).mpr (.inl (by decide))

/-- The size that was replied is refused. -/
theorem listxattr_refuses_own_size :
    ((mount (env 0) attrRoot).step (env 0) (listRoot 0)).1 =
        .ok (.size 7) ∧
      ((mount (env 0) attrRoot).step (env 0) (listRoot 7)).1 =
        .error .ERANGE ∧
      ¬ HonoursSize 7 7
        ((mount (env 0) attrRoot).step (env 0) (listRoot 7)).1 := by
  refine ⟨rfl, rfl, fun honours => ?_⟩
  obtain ⟨_, replies, -⟩ := honours.1 (Nat.le_refl 7)
  cases replies

end Sys

end FuseOverlay
