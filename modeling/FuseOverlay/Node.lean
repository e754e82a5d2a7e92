import FuseOverlay.Basic

namespace FuseOverlay

/-!
# Nodes and their arena

All cached tree entries live in one arena and refer to each other by `NodeId`.
A directory carries its children, the names known to be whited out, and whether
the children map is exhaustive.  Paths are not stored: `computePath` walks the
parent pointers.

`name_hash` is written by the source but read by nothing, and `hidden_dirfd` is
the work directory whenever `hidden_path` is set, so neither is kept.
-/

/-- Opaque handle for a node in the arena. -/
abbrev NodeId := Nat

/-- The arena identifier of the root node. -/
def rootId : NodeId := 1

/-- Directory state for an overlay node. -/
inductive DirState where
  | notADir
  | dir
      (children : FMap Name NodeId)
      (whiteouts : Finset Name)
      (loaded : Bool)

/-- A single named entry in the overlay directory tree. -/
structure OvlNode where
  parent : Option NodeId
  dirState : DirState
  layerIdx : Nat
  lastLayerIdx : Nat
  tmpIno : UInt64
  tmpDev : UInt64
  name : Name
  hiddenPath : Option Name
  nLinks : Nat
  mode : Mode
  doUnlink : Bool
  doRmdir : Bool
  hidden : Bool

namespace OvlNode

/-- `OvlNode::new` -/
def new
    (name : Name)
    (layerIdx : Nat)
    (ino dev : UInt64)
    (isDir : Bool) :
    OvlNode where
  parent := none
  dirState := if isDir then .dir ∅ ∅ false else .notADir
  layerIdx := layerIdx
  lastLayerIdx := layerIdx
  tmpIno := ino
  tmpDev := dev
  name := name
  hiddenPath := none
  nLinks := 0
  mode := if isDir then .ifDir else .zero
  doUnlink := false
  doRmdir := false
  hidden := false

def isDir (node : OvlNode) : Bool :=
  match node.dirState with
  | .dir .. => true
  | .notADir => false

def isLoaded (node : OvlNode) : Bool :=
  match node.dirState with
  | .dir _ _ loaded => loaded
  | .notADir => false

def markLoaded (node : OvlNode) : OvlNode :=
  match node.dirState with
  | .dir children whiteouts _ =>
      { node with dirState := .dir children whiteouts true }
  | .notADir => node

/--
Mark a directory as needing a re-scan.  The known children stay; only missing
names may now be found on the layers.
-/
def markUnloaded (node : OvlNode) : OvlNode :=
  match node.dirState with
  | .dir children whiteouts _ =>
      { node with dirState := .dir children whiteouts false }
  | .notADir => node

/-- Look up a child by name. -/
def getChild
    (node : OvlNode)
    (name : Name) :
    Option NodeId :=
  match node.dirState with
  | .dir children _ _ => children.get? name
  | .notADir => none

/-- The children map, for directories only. -/
def children (node : OvlNode) : Option (FMap Name NodeId) :=
  match node.dirState with
  | .dir children _ _ => some children
  | .notADir => none

/-- Insert a child; a whiteout of the same name goes. -/
def insertChild
    (node : OvlNode)
    (name : Name)
    (childId : NodeId) :
    OvlNode :=
  match node.dirState with
  | .dir children whiteouts loaded =>
      { node with
        dirState :=
          .dir (children.set name childId) (whiteouts.erase name) loaded }
  | .notADir => node

/-- Remove a child by name. -/
def removeChild
    (node : OvlNode)
    (name : Name) :
    OvlNode :=
  match node.dirState with
  | .dir children whiteouts loaded =>
      { node with dirState := .dir (children.remove name) whiteouts loaded }
  | .notADir => node

/-- Whether a name is known to be deleted by an upper layer. -/
def isWhiteout
    (node : OvlNode)
    (name : Name) :
    Bool :=
  match node.dirState with
  | .dir _ whiteouts _ => decide (name ∈ whiteouts)
  | .notADir => false

/-- Record a name as deleted by an upper layer. -/
def insertWhiteout
    (node : OvlNode)
    (name : Name) :
    OvlNode :=
  match node.dirState with
  | .dir children whiteouts loaded =>
      { node with dirState := .dir children (insert name whiteouts) loaded }
  | .notADir => node

/-- Clear all children and whiteouts, before a forced re-scan. -/
def clearChildren (node : OvlNode) : OvlNode :=
  match node.dirState with
  | .dir _ _ loaded => { node with dirState := .dir ∅ ∅ loaded }
  | .notADir => node

end OvlNode

/-- The arena that owns all nodes. -/
structure NodeArena where
  map : FMap NodeId OvlNode
  nextId : Nat

namespace NodeArena

def new : NodeArena where
  map := ∅
  nextId := 1

/-- Insert a node and return its fresh identifier. -/
def insert
    (arena : NodeArena)
    (node : OvlNode) :
    NodeId × NodeArena :=
  (arena.nextId,
    { map := arena.map.set arena.nextId node
      nextId := arena.nextId + 1 })

def get?
    (arena : NodeArena)
    (id : NodeId) :
    Option OvlNode :=
  arena.map.get? id

/-- `get_mut` followed by a change of the node. -/
def modify
    (arena : NodeArena)
    (id : NodeId)
    (change : OvlNode → OvlNode) :
    NodeArena :=
  { arena with map := arena.map.modify id change }

def remove
    (arena : NodeArena)
    (id : NodeId) :
    NodeArena :=
  { arena with map := arena.map.remove id }

def containsKey
    (arena : NodeArena)
    (id : NodeId) :
    Bool :=
  arena.map.contains id

theorem get?_insert
    (arena : NodeArena)
    (node : OvlNode)
    (query : NodeId) :
    (arena.insert node).2.get? query =
      if query = arena.nextId then some node else arena.get? query :=
  FMap.get?_set ..

theorem get?_modify
    (arena : NodeArena)
    (id query : NodeId)
    (change : OvlNode → OvlNode) :
    (arena.modify id change).get? query =
      if query = id then (arena.get? id).map change
      else arena.get? query :=
  FMap.get?_modify ..

theorem get?_remove
    (arena : NodeArena)
    (id query : NodeId) :
    (arena.remove id).get? query =
      if query = id then none else arena.get? query :=
  FMap.get?_remove ..

theorem containsKey_iff
    {arena : NodeArena}
    {id : NodeId} :
    arena.containsKey id = true ↔ ∃ node, arena.get? id = some node :=
  FMap.contains_iff

end NodeArena

/--
The names the loop of `compute_path` collects, deepest first.  The loop ends at
a node without parent or at an identifier that is not in the arena; the fuel
bounds it on an arena whose parent pointers form a cycle.
-/
def collectParts
    (arena : NodeArena) :
    Nat → NodeId → List Name
  | 0, _ => []
  | fuel + 1, id =>
      match arena.get? id with
      | none => []
      | some node =>
          match node.parent with
          | none => []
          | some parent => node.name :: collectParts arena fuel parent

/-- The components of a node's path, from the root down. -/
def nodeParts
    (arena : NodeArena)
    (id : NodeId) :
    Path :=
  (collectParts arena arena.map.size id).reverse

/--
`compute_path`: `.` for a node without parent, else the collected names joined
by `/`.  An identifier outside the arena gives the empty byte string.
-/
def computePath
    (arena : NodeArena)
    (id : NodeId) :
    List UInt8 :=
  match arena.get? id with
  | none => []
  | some node =>
      match node.parent with
      | none => dotName
      | some _ => joinPath (nodeParts arena id)

end FuseOverlay
