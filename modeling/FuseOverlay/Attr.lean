import FuseOverlay.Daemon

namespace FuseOverlay

/-!
# Attributes: id mapping, stat override and the replied `stat`
-/

/-- `find_mapping`; additions wrap as in a release build. -/
def findMapping
    (id : UInt32)
    (mappings : List IdMapping)
    (direct : Bool)
    (squashToRoot : Bool)
    (squashToId : Option UInt32)
    (overflowId : UInt32) :
    UInt32 :=
  match direct, squashToId, squashToRoot with
  | true, some squashId, _ => squashId
  | true, none, true => 0
  | _, _, _ =>
      if mappings.isEmpty then
        id
      else
        match mappings.find? fun entry =>
            if direct then
              entry.host ≤ id && id - entry.host < entry.len
            else
              entry.target ≤ id && id - entry.target < entry.len with
        | some entry =>
            if direct then entry.target + (id - entry.host)
            else entry.host + (id - entry.target)
        | none => overflowId

namespace Mode

/-- The type bits `S_IFMT` of a file type. -/
def kindBits : FileKind → UInt32
  | .reg => 0o100000
  | .dir => 0o040000
  | .lnk => 0o120000
  | .chr => 0o020000
  | .blk => 0o060000
  | .fifo => 0o010000
  | .sock => 0o140000

/-- A `mode_t` from its bits; type bits without meaning give no kind. -/
def ofBits (bits : UInt32) : Mode where
  kind :=
    [FileKind.reg, .dir, .lnk, .chr, .blk, .fifo, .sock].find? fun kind =>
      bits &&& 0o170000 = kindBits kind
  perm := bits &&& 0o7777

/-- The bits of the type of a mode. -/
def typeBits (mode : Mode) : UInt32 :=
  (mode.kind.map kindBits).getD 0

end Mode

namespace Override

/-- `splitn(4, ':')` -/
def splitFields
    (count : Nat)
    (bytes : List UInt8) :
    List (List UInt8) :=
  match count with
  | 0 => []
  | 1 => [bytes]
  | count + 2 =>
      match bytes.dropWhile (· ≠ 58) with
      | [] => [bytes]
      | _ :: rest =>
          bytes.takeWhile (· ≠ 58) :: splitFields (count + 1) rest

/-- The digits of a number in a base of at most ten. -/
def parseDigits
    (base : Nat) :
    Nat → List UInt8 → Option Nat
  | acc, [] => some acc
  | acc, digit :: rest =>
      if 48 ≤ digit ∧ digit.toNat < 48 + base then
        parseDigits base (acc * base + (digit.toNat - 48)) rest
      else
        none

/-- `u32::from_str_radix`: an optional `+`, at least one digit, no overflow. -/
def parseU32
    (base : Nat)
    (bytes : List UInt8) :
    Option UInt32 :=
  let digits := if bytes.head? = some 43 then bytes.tail else bytes
  if digits.isEmpty then
    none
  else
    match parseDigits base 0 digits with
    | some value => if value < 2 ^ 32 then some value.toUInt32 else none
    | none => none

/-- `libc::makedev` -/
def makedev
    (major minor : UInt32) :
    UInt64 :=
  let major := major.toUInt64
  let minor := minor.toUInt64
  ((major &&& 0xfffff000) <<< 32) ||| ((major &&& 0xfff) <<< 8) |||
    ((minor &&& 0xffffff00) <<< 12) ||| (minor &&& 0xff)

/-- `parse_device` -/
def parseDevice
    (bytes : List UInt8) :
    Option UInt64 :=
  match splitFields 2 bytes with
  | [major, minor] =>
      match parseU32 10 major, parseU32 10 minor with
      | some major, some minor => some (makedev major minor)
      | _, _ => none
  | _ => none

/-- `str::strip_prefix` -/
def strip
    (lead bytes : List UInt8) :
    Option (List UInt8) :=
  if lead.isPrefixOf bytes then some (bytes.drop lead.length) else none

/-- The type field of an override: the kind and a device number. -/
def parseType
    (text : List UInt8) :
    Option (FileKind × Option UInt64) :=
  if (ascii "dir").isPrefixOf text then some (.dir, none)
  else if (ascii "file").isPrefixOf text then some (.reg, none)
  else if (ascii "symlink").isPrefixOf text then some (.lnk, none)
  else if (ascii "pipe").isPrefixOf text then some (.fifo, none)
  else if (ascii "socket").isPrefixOf text then some (.sock, none)
  else
    match strip (ascii "block") text with
    | some rest => some (.blk, parseDevice rest)
    | none =>
        match strip (ascii "char") text with
        | some rest => some (.chr, parseDevice rest)
        | none => none

/-- `parse_override_fields`: owner, group and mode, with fallbacks. -/
def parseOverrideFields
    (text : List UInt8)
    (st : Stat) :
    UInt32 × UInt32 × UInt32 :=
  match splitFields 4 text with
  | uid :: gid :: mode :: _ =>
      ((parseU32 10 uid).getD st.uid, (parseU32 10 gid).getD st.gid,
        (parseU32 8 mode).getD st.mode.perm)
  | _ => (st.uid, st.gid, st.mode.perm)

/-- The final mode and device number of an override. -/
def overriddenMode
    (mode : UInt32)
    (st : Stat) :
    List (List UInt8) → Option (Mode × UInt64)
  | [] => some (.ofBits (mode ||| st.mode.typeBits), st.rdev)
  | text :: _ =>
      match parseType text with
      | some (kind, rdev) =>
          some (.ofBits (mode ||| Mode.kindBits kind), rdev.getD st.rdev)
      | none => none

/-- `parse_and_apply_override` -/
def parseAndApplyOverride
    (text : List UInt8)
    (st : Stat) :
    Except Errno Stat :=
  match splitFields 4 text with
  | uid :: gid :: mode :: typeField =>
      match parseU32 10 uid, parseU32 10 gid, parseU32 8 mode with
      | some uid, some gid, some mode =>
          match overriddenMode mode st typeField with
          | some (mode, rdev) =>
              .ok { st with uid := uid, gid := gid, mode := mode, rdev := rdev }
          | none => .error .EINVAL
      | _, _, _ => .error .EINVAL
  | _ => .error .EINVAL

/-- `std::str::from_utf8` -/
def isUtf8 (bytes : List UInt8) : Bool :=
  (ByteArray.mk bytes.toArray).validateUTF8

/-- The attribute that holds the override of a mode. -/
def overrideXattr : StatOverrideMode → Option Name
  | .none => none
  | .user | .containers => some Xattr.containersOverrideStat
  | .privileged => some Xattr.privilegedOverrideStat

end Override

namespace Syscall

variable (env : Env)

/-- `map_uid` -/
def mapUid (id : UInt32) : UInt32 :=
  findMapping id env.config.uidMappings false env.config.squashToRoot
    env.config.squashToUid env.host.overflowUid

/-- `map_gid` -/
def mapGid (id : UInt32) : UInt32 :=
  findMapping id env.config.gidMappings false env.config.squashToRoot
    env.config.squashToGid env.host.overflowGid

/-- `override_mode` of a node on a layer, through its path -/
def overrideMode
    (layerIdx : Nat)
    (layer : Layer)
    (path : Path)
    (st : Stat) :
    Syscall Stat :=
  match Override.overrideXattr layer.statOverrideMode with
  | none => pure st
  | some attr =>
      if st.mode.kind = some .dir ∨ st.mode.kind = some .reg then do
        match ← (getxattr env (.layer layerIdx) path attr 64).attempt with
        | .ok value =>
            if Override.isUtf8 value then
              Act.ofExcept (Override.parseAndApplyOverride value st)
            else
              Act.fail .EINVAL
        | .error .ENODATA | .error .ENOTSUP => pure st
        | .error errno => Act.fail errno
      else
        pure st

/-- `layer` -/
def layer
    (layerIdx : Nat) :
    Syscall Layer :=
  Act.orFail env.layers[layerIdx]? .ENOENT

/-- `do_stat_with_path` without a descriptor -/
def doStatWithPath
    (node : OvlNode)
    (path : Path) :
    Syscall Stat := do
  let _ ← layer env node.layerIdx
  if node.hidden then
    fstatat ⟨.workdir, []⟩ (node.hiddenPath.getD [])
  else
    statat (.layer node.layerIdx) path

/-- `get_nfs_filehandle`: 0 when the layer has no handle for the path. -/
def getNfsFilehandle
    (layer : Layer)
    (layerIdx : Nat)
    (path : Path) :
    Syscall UInt64 :=
  Act.gets fun os =>
    match os.disk.locate ⟨.layer layerIdx, []⟩ path with
    | .error _ => 0
    | .ok loc =>
        match os.disk.names.get? loc with
        | none => 0
        | some id => layer.nfsHandle id

/-- The number `get_st_ino_with_path` starts from. -/
def rawStIno
    (node : OvlNode)
    (path : Path) :
    Syscall UInt64 :=
  match env.config.nfsFilehandles, env.layers[node.layerIdx]? with
  | true, some layer => do
      let handle ← getNfsFilehandle layer node.layerIdx path
      pure (if handle ≠ 0 then handle else node.tmpIno)
  | _, _ => pure node.tmpIno

/-- `get_st_ino_with_path` -/
def getStInoWithPath
    (node : OvlNode)
    (path : Path) :
    Syscall UInt64 := do
  if env.config.nfsFilehandles && env.layers[node.layerIdx]?.isNone then
    pure node.tmpIno
  else do
    let raw ← rawStIno env node path
    let ino := computeFuseIno raw node.tmpDev env.sameDevice
    pure (if env.config.inoT32 then ino.toUInt32.toUInt64 else ino)

end Syscall

namespace Daemon

open Syscall

variable (env : Env)

/-- `node` -/
def node
    (id : NodeId) :
    Daemon OvlNode := do
  Act.orFail (← getNode id) .ENOENT

/-- The number of live subdirectories among the children of a node. -/
def childDirs
    (nodes : NodeArena)
    (node : OvlNode) :
    Nat :=
  match node.children with
  | none => 0
  | some children =>
      (children.toList.filter fun entry =>
        ((nodes.get? entry.2).map OvlNode.isDir).getD false).length

/-- The number of live nodes in the entry of a node's key. -/
def liveLinks
    (nodes : NodeArena)
    (inodes : InodeTable)
    (node : OvlNode) :
    Nat :=
  match inodes.getByKey ⟨node.tmpIno, node.tmpDev⟩ with
  | none => 0
  | some entry => (entry.nodes.filter nodes.containsKey).length

/-- The link count part of `rpl_stat_with_path`. -/
def replyNlink
    (sys : Sys)
    (node : OvlNode)
    (nlink : Nat) :
    Nat :=
  if node.isLoaded && 0 < node.nLinks then
    node.nLinks
  else if node.isDir then
    if env.config.staticNlink then 1 else 2 + childDirs sys.nodes node
  else if node.tmpIno ≠ 0 ∧ 0 < liveLinks sys.nodes sys.inodes node then
    liveLinks sys.nodes sys.inodes node
  else
    nlink

/-- `rpl_stat_with_path` without a descriptor -/
def rplStatWithPath
    (nodeId : NodeId)
    (path : Path) :
    Daemon Stat := do
  let found ← node nodeId
  let st ← doStatWithPath env found path
  let layer ← layer env found.layerIdx
  let overridden ← (overrideMode env found.layerIdx layer path st).attempt
  let st := overridden.toOption.getD st
  let ino ← getStInoWithPath env found path
  Act.gets fun sys =>
    { st with
      uid := findMapping st.uid env.config.uidMappings true
        env.config.squashToRoot env.config.squashToUid env.host.overflowUid
      gid := findMapping st.gid env.config.gidMappings true
        env.config.squashToRoot env.config.squashToGid env.host.overflowGid
      ino := ino
      nlink := replyNlink env sys found st.nlink }

/-- `rpl_stat` without a descriptor -/
def rplStat
    (nodeId : NodeId) :
    Daemon Stat := do
  let found ← node nodeId
  if found.hidden then
    rplStatWithPath env nodeId [found.hiddenPath.getD []]
  else do
    rplStatWithPath env nodeId (← nodePath nodeId)

end Daemon

end FuseOverlay
