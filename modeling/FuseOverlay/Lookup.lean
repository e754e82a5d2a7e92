import Mathlib.Data.List.Sort
import FuseOverlay.Attr

namespace FuseOverlay

/-!
# Finding names: loading a directory and looking one name up

`loadDirImpl` reads a directory from all layers into the children of its node;
`doLazyLookup` finds one name without reading the directory.
-/

namespace Syscall

open Whiteout

variable (env : Env)

/-- `is_wh_file`: a file `.wh.<name>` in the directory on a layer. -/
def isWhFile
    (layerIdx : Nat)
    (parentPath : Path)
    (name : Name) :
    Syscall Bool := do
  let found ←
    (fileExists (.layer layerIdx) (parentPath ++ [whName name])).attempt
  pure (found.toOption.getD false)

/-- Whether an entry of unknown or character device type is a whiteout. -/
def isDeviceEntry
    (layerIdx : Nat)
    (path : Path)
    (entry : DirEntry) :
    Syscall Bool := do
  if entry.dtype = some .chr ∨ entry.dtype = none then do
    match ← (statat (.layer layerIdx) (path ++ [entry.name])).attempt with
    | .ok st => pure (isChardevWhiteout st)
    | .error _ => pure false
  else
    pure false

/-- Inode number, device and mode of a normal entry. -/
def entryAttr
    (layerIdx : Nat)
    (path : Path)
    (entry : DirEntry) :
    Syscall (UInt64 × UInt64 × Mode) := do
  let fallback : UInt64 × UInt64 × Mode :=
    (entry.ino, 0, if entry.dtype = some .dir then .ifDir else .zero)
  if env.config.fastInoCheck then
    pure fallback
  else do
    match ← (statat (.layer layerIdx) (path ++ [entry.name])).attempt with
    | .ok st => pure (st.ino, st.dev, st.mode)
    | .error _ => pure fallback

end Syscall

namespace Daemon

open Syscall Whiteout

variable (env : Env)

/-- `wh_prefix_name`: the name that a `.wh.` entry whites out. -/
def whPrefixName (name : Name) : Option Name :=
  if hasWhPrefix name && name ≠ opaqueWhiteout then some (name.drop 4)
  else none

/-- `lookup_node_id`: the first live node of a FUSE inode number. -/
def lookupNodeId
    (nodes : NodeArena)
    (inodes : InodeTable)
    (ino : UInt64) :
    Option NodeId :=
  if ino = rootIno then
    some rootId
  else
    match inodes.fuseToIno ino with
    | none => none
    | some entry => entry.nodes.find? nodes.containsKey

/-- `lookup_node_id` as an action -/
def resolveIno
    (ino : UInt64) :
    Daemon (Option NodeId) :=
  Act.gets fun sys => lookupNodeId sys.nodes sys.inodes ino

/-- `insert_child_node` -/
def insertChildNode
    (parentId : NodeId)
    (child : OvlNode) :
    Daemon NodeId := do
  let childId ← insertNode child
  modifyNode parentId fun parent => parent.insertChild child.name childId
  pure childId

/-! ## Loading -/

/-- The end of the entry loop: a normal entry becomes a child. -/
def loadNormalEntry
    (parentId : NodeId)
    (path : Path)
    (layerIdx : Nat)
    (entry : DirEntry) :
    Daemon Unit := do
  let (ino, dev, mode) ← entryAttr env layerIdx path entry
  let isDir := mode.isDir || entry.dtype = some .dir
  let _ ← insertChildNode parentId
    { OvlNode.new entry.name layerIdx ino dev isDir with
      mode := mode
      lastLayerIdx := layerIdx
      parent := some parentId }

/-- An entry that no higher layer decided. -/
def loadNewEntry
    (parentId : NodeId)
    (path : Path)
    (layerIdx : Nat)
    (entry : DirEntry) :
    Daemon Unit := do
  if ← isWhFile layerIdx path entry.name then
    modifyNode parentId fun parent => parent.insertWhiteout entry.name
  else
    match whPrefixName entry.name with
    | some whited => do
        let parent ← getNode parentId
        Act.runIf ((parent.bind (·.getChild whited)).isNone)
          (modifyNode parentId fun parent => parent.insertWhiteout whited)
    | none => do
        if ← isDeviceEntry layerIdx path entry then
          modifyNode parentId fun parent => parent.insertWhiteout entry.name
        else
          loadNormalEntry env parentId path layerIdx entry

/-- One turn of the entry loop of `load_dir_impl`. -/
def loadEntry
    (parentId : NodeId)
    (path : Path)
    (layerIdx : Nat)
    (entry : DirEntry) :
    Daemon Unit := do
  if entry.name = dotName ∨ entry.name = dotDotName
      ∨ entry.name = opaqueWhiteout then
    pure ()
  else do
    let parent ← getNode parentId
    match parent.bind (·.getChild entry.name) with
    | some existingId =>
        modifyNode existingId fun existing =>
          { existing with lastLayerIdx := layerIdx }
    | none =>
        if (parent.map (·.isWhiteout entry.name)).getD false then
          pure ()
        else
          loadNewEntry env parentId path layerIdx entry

/-- Read one layer's directory; the result is the new stop flag. -/
def loadStream
    (parentId : NodeId)
    (path : Path)
    (layerIdx : Nat)
    (stop : Bool) :
    Daemon Bool := do
  match ← (opendir env layerIdx path).attempt with
  | .error _ => pure stop
  | .ok entries => do
      Act.each (loadEntry env parentId path layerIdx) entries
      let cut ← (isDirectoryOpaque env (.layer layerIdx) path).attempt
      pure (stop || cut.toOption.getD false)

/-- One turn of the layer loop: the new stop flag, or nothing on `break`. -/
def loadLayer
    (parentId : NodeId)
    (path : Path)
    (lastLayerStop : Option Nat)
    (layerIdx : Nat) :
    Daemon (Option Bool) := do
  let stop := lastLayerStop = some layerIdx && 0 < layerIdx
  match ← (statat (.layer layerIdx) path).attempt with
  | .ok st =>
      if st.mode.isDir then
        some <$> loadStream env parentId path layerIdx stop
      else
        pure none
  | .error .ENOENT | .error .ENOTDIR => pure (some stop)
  | .error _ => pure none

/-- The layer loop of `load_dir_impl`. -/
def loadLayers
    (parentId : NodeId)
    (path : Path)
    (lastLayerStop : Option Nat) :
    List Nat → Daemon Unit
  | [] => pure ()
  | layerIdx :: rest => do
      match ← loadLayer env parentId path lastLayerStop layerIdx with
      | some false => loadLayers parentId path lastLayerStop rest
      | _ => pure ()

/-- The indices of all layers, top first. -/
def layerIndices : List Nat :=
  List.range env.layers.length

/-- `load_dir_impl` -/
def loadDirImpl
    (parentId : NodeId)
    (path : Path)
    (lastLayerStop : Option Nat) :
    Daemon Unit := do
  loadLayers env parentId path lastLayerStop (layerIndices env)
  modifyNode parentId OvlNode.markLoaded

/-- `ensure_root_loaded` -/
def ensureRootLoaded : Daemon Unit := do
  let root ← getNode rootId
  if (root.map OvlNode.isLoaded).getD true then pure ()
  else loadDirImpl env rootId [] none

/-- `reload_dir` -/
def reloadDir
    (nodeId : NodeId) :
    Daemon Bool := do
  match ← getNode nodeId with
  | none => pure true
  | some node =>
      if node.isLoaded then
        pure true
      else do
        let path ← nodePath nodeId
        loadDirImpl env nodeId path (some node.lastLayerIdx)
        pure true

/-! ## Lazy lookup -/

/-- What one turn of the layer loop of `do_lazy_lookup` leaves. -/
inductive LazyStep where
  | done
  | next (found : Option OvlNode) (stop : Bool)

/-- Record a whiteout in the parent and end the lookup. -/
def whitedOut
    (parentId : NodeId)
    (name : Name) :
    Daemon LazyStep := do
  modifyNode parentId fun parent => parent.insertWhiteout name
  pure .done

/-- A layer without the name: only a `.wh.` file matters. -/
def lazyMissing
    (parentId : NodeId)
    (parentPath : Path)
    (name : Name)
    (layerIdx : Nat)
    (stop : Bool) :
    Daemon LazyStep := do
  if ← isWhFile layerIdx parentPath name then whitedOut parentId name
  else pure (.next none stop)

/-- The first layer that holds the name. -/
def lazyFound
    (parentId : NodeId)
    (parentPath : Path)
    (name : Name)
    (layerIdx : Nat)
    (stop : Bool)
    (st : Stat) :
    Daemon LazyStep := do
  if ← isWhFile layerIdx parentPath name then
    whitedOut parentId name
  else
    match whPrefixName name with
    | some whited => whitedOut parentId whited
    | none => do
        if isChardevWhiteout st then
          whitedOut parentId name
        else do
          let child : OvlNode :=
            { OvlNode.new name layerIdx st.ino st.dev st.mode.isDir with
              mode := st.mode
              lastLayerIdx := layerIdx
              parent := some parentId }
          if st.mode.isDir then do
            let cut ←
              (isDirectoryOpaque env (.layer layerIdx)
                (parentPath ++ [name])).attempt
            pure (.next (some child) (stop || cut.toOption.getD false))
          else
            pure (.next (some child) stop)

/-- One turn of the layer loop of `do_lazy_lookup`. -/
def lazyLayer
    (parentId : NodeId)
    (parentPath : Path)
    (name : Name)
    (lastLayerIdx layerIdx : Nat)
    (found : Option OvlNode) :
    Daemon LazyStep := do
  let stop := lastLayerIdx = layerIdx && 0 < layerIdx
  match ← (statat (.layer layerIdx) (parentPath ++ [name])).attempt with
  | .error .ENOENT | .error .ENOTDIR | .error .EACCES =>
      match found with
      | some child => pure (.next (some child) stop)
      | none => lazyMissing parentId parentPath name layerIdx stop
  | .error _ => pure .done
  | .ok st =>
      match found with
      | some child =>
          pure (.next
            (some { child with
              tmpIno := st.ino, tmpDev := st.dev, lastLayerIdx := layerIdx })
            stop)
      | none => lazyFound env parentId parentPath name layerIdx stop st

/-- The layer loop of `do_lazy_lookup`. -/
def lazyLayers
    (parentId : NodeId)
    (parentPath : Path)
    (name : Name)
    (lastLayerIdx : Nat) :
    List Nat → Option OvlNode → Daemon (Option OvlNode)
  | [], found => pure found
  | layerIdx :: rest, found => do
      match ← lazyLayer env parentId parentPath name lastLayerIdx layerIdx
          found with
      | .done => pure none
      | .next found true => pure found
      | .next found false =>
          lazyLayers parentId parentPath name lastLayerIdx rest found

/-- The end of `do_lazy_lookup`: the node goes into the arena and the table. -/
def adoptChild
    (parentId : NodeId)
    (child : OvlNode) :
    Daemon (Option NodeId) := do
  let childId ← insertNode child
  Act.runIf (child.tmpIno ≠ 0) do
    let _ ← register env childId child.tmpIno child.tmpDev child.mode
  modifyNode parentId fun parent => parent.insertChild child.name childId
  pure (some childId)

/-- `do_lazy_lookup` -/
def doLazyLookup
    (parentId : NodeId)
    (name : Name) :
    Daemon (Option NodeId) := do
  match ← getNode parentId with
  | none => pure none
  | some parent => do
      let parentPath ← nodePath parentId
      match ← lazyLayers env parentId parentPath name parent.lastLayerIdx
          (layerIndices env) none with
      | none => pure none
      | some child => adoptChild env parentId child

/-- `do_lookup_file` with a name -/
def doLookupFile
    (parentIno : UInt64)
    (name : Name) :
    Daemon (Option NodeId) := do
  match ← resolveIno parentIno with
  | none => pure none
  | some parentId => do
      match ← getNode parentId with
      | none => pure none
      | some parent =>
          match parent.getChild name with
          | some childId => pure (some childId)
          | none =>
              if parent.isWhiteout name || parent.isLoaded then pure none
              else doLazyLookup env parentId name

/-! ## Listing -/

/-- The handle entry of a directory itself or of its parent. -/
def selfEntry
    (label : Name)
    (nodeId : NodeId)
    (node : OvlNode)
    (path : Path) :
    Daemon HandleEntry := do
  let ino ← getStInoWithPath env node path
  let attr ← (rplStatWithPath env nodeId path).attempt
  pure ⟨label, ino, .ifDir, attr.toOption, some nodeId⟩

/-- The handle entry of a child. -/
def childEntry
    (dirPath : Path)
    (entry : Name × NodeId) :
    Daemon (Option HandleEntry) := do
  match ← getNode entry.2 with
  | none => pure none
  | some child =>
      if child.hidden then
        pure none
      else do
        let path := dirPath ++ [child.name]
        let ino ← getStInoWithPath env child path
        let attr ← (rplStatWithPath env entry.2 path).attempt
        pure (some ⟨entry.1, ino, child.mode, attr.toOption, some entry.2⟩)

/-- The child loop of `build_dir_entries`. -/
def childEntries
    (dirPath : Path) :
    List (Name × NodeId) → Daemon (List HandleEntry)
  | [] => pure []
  | entry :: rest => do
      let first ← childEntry env dirPath entry
      let others ← childEntries dirPath rest
      pure (first.toList ++ others)

/-- The order of byte strings. -/
def nameLe
    (first second : Name) : Bool :=
  !decide (second < first)

/-- The `..` entry of a directory. -/
def parentEntry
    (node : OvlNode)
    (self : HandleEntry) :
    Daemon HandleEntry := do
  let missing : HandleEntry :=
    ⟨dotDotName, self.ino, .ifDir, self.attr, node.parent⟩
  match node.parent with
  | none => pure missing
  | some parentId => do
      match ← getNode parentId with
      | none => pure missing
      | some parent => do
          selfEntry env dotDotName parentId parent (← nodePath parentId)

/-- `build_dir_entries` -/
def buildDirEntries
    (nodeId : NodeId) :
    Daemon (List HandleEntry) := do
  let _ ← reloadDir env nodeId
  match ← getNode nodeId with
  | none => pure []
  | some node => do
      let dirPath ← nodePath nodeId
      let self ← selfEntry env dotName nodeId node dirPath
      let parent ← parentEntry env node self
      let children := (node.children.map FMap.toList).getD []
      let sorted := children.insertionSort fun first second =>
        nameLe first.1 second.1
      let rest ← childEntries env dirPath sorted
      pure (self :: parent :: rest)

end Daemon

end FuseOverlay
