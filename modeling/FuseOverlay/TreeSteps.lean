import Mathlib.Data.List.Find
import FuseOverlay.FileRequests
import FuseOverlay.InodeTableInvariant
import FuseOverlay.TreePaths

namespace FuseOverlay

/-!
# What lookups and loads do to the tree

Most of a handler only adds to the tree: it looks names up, loads directories
and copies nodes up.  `Sound start now` says that the tree is right now and has
grown from `start`: entries stay, new entries lead to new live nodes, and a
number that stood for a directory still stands for it.
-/

open Act (Keeps Holds)

/-- The part of the state that holds the tree. -/
structure Forest where
  nodes : NodeArena
  inodes : InodeTable

namespace Sys

def forest (sys : Sys) : Forest :=
  ⟨sys.nodes, sys.inodes⟩

end Sys

namespace Forest

/-- `lookup_node_id` -/
def resolve
    (forest : Forest)
    (ino : UInt64) :
    Option NodeId :=
  Daemon.lookupNodeId forest.nodes forest.inodes ino

/-- The tree is right, and the inode table lists no node of the future. -/
structure Ok (forest : Forest) : Prop where
  tree : forest.nodes.Tree
  listed :
    ∀ {key entry id}, forest.inodes.table.get? key = some entry →
      id ∈ entry.nodes → id < forest.nodes.nextId

/-- The tree has only grown. -/
structure Extends
    (start now : Forest) : Prop where
  entries :
    ∀ {parent name child}, start.nodes.Entry parent name child →
      now.nodes.Entry parent name child
  fresh :
    ∀ {parent name child}, now.nodes.Entry parent name child →
      start.nodes.Entry parent name child ∨
        (now.nodes.Live child ∧ start.nodes.nextId ≤ child)
  live : ∀ {id}, start.nodes.Live id → now.nodes.Live id
  dirs : ∀ {id}, start.nodes.DirNode id → now.nodes.DirNode id
  kinds :
    ∀ {id}, now.nodes.DirNode id → id < start.nodes.nextId →
      start.nodes.DirNode id
  steady :
    ∀ {ino id}, start.resolve ino = some id → start.nodes.DirNode id →
      now.resolve ino = some id
  nextId : start.nodes.nextId ≤ now.nodes.nextId

/-- The tree is right and has grown from `start`. -/
structure Sound
    (start now : Forest) : Prop where
  ok : now.Ok
  grown : Extends start now

namespace Extends

theorem refl
    (forest : Forest) :
    Extends forest forest where
  entries := id
  fresh := .inl
  live := id
  dirs := id
  kinds := fun dir _ => dir
  steady := fun resolved _ => resolved
  nextId := le_rfl

theorem trans
    {first second third : Forest}
    (left : Extends first second)
    (right : Extends second third) :
    Extends first third where
  entries := fun entry => right.entries (left.entries entry)
  fresh := by
    intro parent name child entry
    rcases right.fresh entry with older | ⟨live, new⟩
    · rcases left.fresh older with oldest | ⟨live, new⟩
      · exact .inl oldest
      · exact .inr ⟨right.live live, new⟩
    · exact .inr ⟨live, left.nextId.trans new⟩
  live := fun live => right.live (left.live live)
  dirs := fun dir => right.dirs (left.dirs dir)
  kinds := fun dir old => left.kinds (right.kinds dir (old.trans_le left.nextId)) old
  steady := fun resolved dir =>
    right.steady (left.steady resolved dir) (left.dirs dir)
  nextId := left.nextId.trans right.nextId

/-- An old node without parent stays without parent. -/
theorem orphan
    {start now : Forest}
    (grown : Extends start now)
    {id : NodeId}
    (old : id < start.nodes.nextId)
    (orphan : start.nodes.Orphan id) :
    now.nodes.Orphan id := by
  intro parent name entry
  rcases grown.fresh entry with older | ⟨-, new⟩
  · exact orphan parent name older
  · exact Nat.not_lt_of_le new old

end Extends

/-- Resolution asks only which nodes are live. -/
theorem resolve_congr
    {inodes : InodeTable}
    {first second : NodeArena}
    {ino : UInt64}
    (agree :
      ∀ {key entry id}, inodes.table.get? key = some entry →
        id ∈ entry.nodes → (second.Live id ↔ first.Live id)) :
    resolve ⟨second, inodes⟩ ino = resolve ⟨first, inodes⟩ ino := by
  unfold resolve Daemon.lookupNodeId
  split
  · rfl
  · simp only
    cases listed : inodes.fuseToIno ino with
    | none =>
        rfl
    | some entry =>
        obtain ⟨key, -, stored⟩ := Option.bind_eq_some_iff.mp listed
        refine List.find?_congr fun id member => ?_
        rw [Bool.eq_iff_iff, NodeArena.containsKey_iff,
          NodeArena.containsKey_iff]
        exact agree stored member

theorem resolve_modify
    (nodes : NodeArena)
    (inodes : InodeTable)
    (id : NodeId)
    (change : OvlNode → OvlNode)
    (ino : UInt64) :
    resolve ⟨nodes.modify id change, inodes⟩ ino =
      resolve ⟨nodes, inodes⟩ ino :=
  resolve_congr fun _ _ => NodeArena.live_modify

/-- A change of a node that keeps its kind keeps which nodes are directories. -/
theorem dirNode_modify
    {nodes : NodeArena}
    {id query : NodeId}
    {change : OvlNode → OvlNode}
    (sameKind : ∀ node, (change node).isDir = node.isDir) :
    (nodes.modify id change).DirNode query ↔ nodes.DirNode query := by
  unfold NodeArena.DirNode
  rw [NodeArena.get?_modify]
  by_cases same : query = id
  · subst same
    simp [sameKind]
  · simp [same]

theorem dirNode_insertChild
    {nodes : NodeArena}
    {id query child : NodeId}
    {name : Name} :
    (nodes.modify id (·.insertChild name child)).DirNode query ↔
      nodes.DirNode query :=
  dirNode_modify (by simp)

namespace Sound

theorem refl
    {forest : Forest}
    (ok : forest.Ok) :
    Sound forest forest :=
  ⟨ok, .refl forest⟩

theorem trans
    {first second third : Forest}
    (left : Sound first second)
    (right : Sound second third) :
    Sound first third :=
  ⟨right.ok, left.grown.trans right.grown⟩

/-- The table lists only nodes of the past, so a new node is not listed. -/
theorem resolve_insert
    {forest : Forest}
    (ok : forest.Ok)
    (node : OvlNode)
    (ino : UInt64) :
    resolve ⟨(forest.nodes.insert node).2, forest.inodes⟩ ino =
      forest.resolve ino := by
  refine resolve_congr fun stored member => ?_
  rw [NodeArena.live_insert]
  exact or_iff_right (Nat.ne_of_lt (ok.listed stored member))

/-- A change that the tree does not see. -/
theorem sameShape
    {forest : Forest}
    {nodes : NodeArena}
    (ok : forest.Ok)
    (same : NodeArena.SameShape forest.nodes nodes) :
    Sound forest ⟨nodes, forest.inodes⟩ where
  ok :=
    ⟨same.treeBut ok.tree, fun stored member => by
      rw [same.nextId]
      exact ok.listed stored member⟩
  grown :=
    { entries := same.entry
      fresh := fun entry => .inl (same.symm.entry entry)
      live := same.live
      dirs := same.dirNode
      kinds := fun dir _ => same.symm.dirNode dir
      steady := by
        intro ino id resolved dir
        rw [← resolved]
        exact resolve_congr fun _ _ => same.live_iff
      nextId := same.nextId.ge }

/-- A new node without children. -/
theorem insert
    {forest : Forest}
    (ok : forest.Ok)
    {node : OvlNode}
    (bare : ∀ name, node.getChild name = none) :
    Sound forest ⟨(forest.nodes.insert node).2, forest.inodes⟩ where
  ok :=
    ⟨ok.tree.insert bare, fun stored member =>
      Nat.lt_succ_of_lt (ok.listed stored member)⟩
  grown :=
    { entries := by
        rintro parent name child ⟨found, stored, entry⟩
        refine NodeArena.entry_insert.mpr (.inr ⟨?_, found, stored, entry⟩)
        exact Nat.ne_of_lt (ok.tree.bounded ⟨found, stored⟩)
      fresh := by
        intro parent name child entry
        rcases NodeArena.entry_insert.mp entry with ⟨-, found⟩ | ⟨-, entry⟩
        · rw [bare] at found
          cases found
        · exact .inl entry
      live := fun live => NodeArena.live_insert.mpr (.inr live)
      dirs := by
        rintro id ⟨found, stored, isDir⟩
        refine ⟨found, ?_, isDir⟩
        rw [NodeArena.get?_insert,
          if_neg (Nat.ne_of_lt (ok.tree.bounded ⟨found, stored⟩))]
        exact stored
      kinds := by
        rintro id ⟨found, stored, isDir⟩ old
        rw [NodeArena.get?_insert, if_neg (Nat.ne_of_lt old)] at stored
        exact ⟨found, stored, isDir⟩
      steady := fun resolved _ =>
        (resolve_insert ok node _).trans resolved
      nextId := Nat.le_succ _ }

/-- A new node that points to a directory becomes a child of it. -/
theorem attach
    {start now : Forest}
    (sound : Sound start now)
    {parent child : NodeId}
    {name : Name}
    {node : OvlNode}
    (stored : now.nodes.get? child = some node)
    (points : node.parent = some parent)
    (label : node.name = name)
    (bare : ∀ query, node.getChild query = none)
    (new : start.nodes.nextId ≤ child)
    (absent : ∀ other, ¬ start.nodes.Entry parent name other) :
    Sound start
      ⟨now.nodes.modify parent (·.insertChild name child), now.inodes⟩ where
  ok := by
    refine ⟨sound.ok.tree.attach stored points label ?_, ?_⟩
    · rintro query below ⟨found, foundStored, entry⟩
      rw [stored] at foundStored
      cases foundStored
      rw [bare] at entry
      cases entry
    · exact sound.ok.listed
  grown :=
    { entries := by
        intro above query below entry
        refine NodeArena.TreeBut.entry_attach.mpr
          (.inr ⟨?_, sound.grown.entries entry⟩)
        rintro ⟨rfl, rfl⟩
        exact absent below entry
      fresh := by
        intro above query below entry
        rcases NodeArena.TreeBut.entry_attach.mp entry with
          ⟨-, -, -, rfl⟩ | ⟨-, older⟩
        · exact .inr ⟨NodeArena.live_modify.mpr ⟨node, stored⟩, new⟩
        · rcases sound.grown.fresh older with oldest | ⟨live, isNew⟩
          · exact .inl oldest
          · exact .inr ⟨NodeArena.live_modify.mpr live, isNew⟩
      live := fun live =>
        NodeArena.live_modify.mpr (sound.grown.live live)
      dirs := by
        intro id dir
        exact dirNode_insertChild.mpr (sound.grown.dirs dir)
      kinds := fun dir =>
        sound.grown.kinds (dirNode_insertChild.mp dir)
      steady := by
        intro ino id resolved dir
        rw [← sound.grown.steady resolved dir]
        exact resolve_modify ..
      nextId := sound.grown.nextId }

end Sound

/-! ## The inode table -/

theorem resolve_eq_some
    {forest : Forest}
    {ino : UInt64}
    {id : NodeId} :
    forest.resolve ino = some id ↔
      (ino = rootIno ∧ id = rootId) ∨
      (ino ≠ rootIno ∧ ∃ key entry,
        forest.inodes.fuseMap.get? ino = some key ∧
        forest.inodes.table.get? key = some entry ∧
        entry.nodes.find? forest.nodes.containsKey = some id) := by
  unfold resolve Daemon.lookupNodeId
  by_cases isRoot : ino = rootIno
  · simp [isRoot, eq_comm]
  · simp only [isRoot, ↓reduceIte, false_and, ne_eq, not_false_eq_true,
      true_and, false_or]
    cases listed : forest.inodes.fuseToIno ino with
    | none =>
        simp only [reduceCtorEq, false_iff, not_exists, not_and]
        intro key entry number stored _
        rw [InodeTable.fuseToIno, number, Option.bind_some, stored] at listed
        cases listed
    | some entry =>
        obtain ⟨key, number, stored⟩ := Option.bind_eq_some_iff.mp listed
        constructor
        · intro found
          exact ⟨key, entry, number, stored, found⟩
        · rintro ⟨key', entry', number', stored', found⟩
          rw [number] at number'
          cases number'
          rw [stored] at stored'
          cases stored'
          exact found

/-- A resolved number other than the root's leads to a live node. -/
theorem live_of_resolve
    {forest : Forest}
    (ok : forest.Ok)
    {ino : UInt64}
    {id : NodeId}
    (resolved : forest.resolve ino = some id) :
    forest.nodes.Live id := by
  rcases resolve_eq_some.mp resolved with
    ⟨-, rfl⟩ | ⟨-, key, entry, -, -, found⟩
  · exact ok.tree.live_root
  · exact NodeArena.containsKey_iff.mp (List.find?_some found)

/--
Registering a node keeps every number's node, except that a number of a node
that is no directory may then lead to the registered node or to another node
that is no directory.
-/
theorem resolve_register
    {nodes : NodeArena}
    {inodes inodes' : InodeTable}
    {order : HashOrder}
    {nodeId : NodeId}
    {stIno stDev : UInt64}
    {mode : Mode}
    {number : UInt64}
    (registered :
      inodes.register order nodes nodeId stIno stDev mode =
        some (number, inodes'))
    {ino : UInt64}
    {id : NodeId}
    (resolved : resolve ⟨nodes, inodes⟩ ino = some id) :
    resolve ⟨nodes, inodes'⟩ ino = some id ∨
      (¬ nodes.DirNode id ∧
        ∀ later, resolve ⟨nodes, inodes'⟩ ino = some later →
          later = nodeId ∨ ¬ nodes.DirNode later) := by
  obtain ⟨others, numbers, changed, changedStored, members⟩ :=
    InodeTable.register_effect registered
  rcases resolve_eq_some.mp resolved with
    ⟨rfl, rfl⟩ | ⟨notRoot, key, entry, numbered, stored, found⟩
  · exact .inl (resolve_eq_some.mpr (.inl ⟨rfl, rfl⟩))
  · have stillNumbered := numbers ino key numbered
    by_cases same : key = ⟨stIno, stDev⟩
    · subst same
      have live : nodes.containsKey id = true := List.find?_some found
      have member : id ∈ entry.nodes := List.mem_of_find?_eq_some found
      rcases members with ⟨-, allDead⟩ | ⟨old, oldStored, kept⟩
      · have dead := allDead entry stored id member
        rw [live] at dead
        cases dead
      · simp only at stored
        rw [stored] at oldStored
        cases oldStored
        rcases kept with filtered | ⟨inserted, noDir⟩
        · refine .inl (resolve_eq_some.mpr (.inr
            ⟨notRoot, _, changed, stillNumbered, changedStored, ?_⟩))
          rw [filtered]
          simp only [List.find?_filter]
          rw [← found]
          exact List.find?_congr fun query _ => by simp
        · refine .inr ⟨?_, ?_⟩
          · rintro ⟨node, nodeStored, isDir⟩
            rw [noDir id member node nodeStored] at isDir
            cases isDir
          · intro later laterResolved
            rcases resolve_eq_some.mp laterResolved with
              ⟨isRoot, -⟩ | ⟨-, key', entry', numbered', stored', found'⟩
            · exact (notRoot isRoot).elim
            · simp only at numbered' stored'
              rw [stillNumbered] at numbered'
              cases numbered'
              rw [changedStored] at stored'
              cases stored'
              have laterMember := List.mem_of_find?_eq_some found'
              rw [inserted, HashOrder.mem_insert] at laterMember
              rcases laterMember with isNew | isOld
              · exact .inl isNew
              · refine .inr ?_
                rintro ⟨node, nodeStored, isDir⟩
                rw [noDir later (List.mem_filter.mp isOld).1 node nodeStored]
                  at isDir
                cases isDir
    · refine .inl (resolve_eq_some.mpr (.inr
        ⟨notRoot, key, entry, stillNumbered, ?_, found⟩))
      exact (others key same).trans stored

/-- Registering a node of the arena. -/
theorem Sound.register
    {start now : Forest}
    (sound : Sound start now)
    {inodes' : InodeTable}
    {order : HashOrder}
    {nodeId : NodeId}
    {stIno stDev : UInt64}
    {mode : Mode}
    {number : UInt64}
    (old : nodeId < now.nodes.nextId)
    (registered :
      now.inodes.register order now.nodes nodeId stIno stDev mode =
        some (number, inodes')) :
    Sound start ⟨now.nodes, inodes'⟩ := by
  refine sound.trans ⟨⟨sound.ok.tree, ?_⟩, ?_⟩
  · obtain ⟨others, -, changed, changedStored, members⟩ :=
      InodeTable.register_effect registered
    intro key entry id stored member
    by_cases same : key = ⟨stIno, stDev⟩
    · subst same
      simp only at stored
      rw [changedStored] at stored
      cases stored
      rcases members with ⟨alone, -⟩ | ⟨entry, entryStored, kept⟩
      · rw [alone, List.mem_singleton] at member
        exact member ▸ old
      · have listed :
            ∀ query ∈ entry.nodes.filter now.nodes.containsKey,
              query < now.nodes.nextId :=
          fun query among =>
            sound.ok.listed entryStored (List.mem_filter.mp among).1
        rcases kept with filtered | ⟨inserted, -⟩
        · rw [filtered] at member
          exact listed id member
        · rw [inserted, HashOrder.mem_insert] at member
          rcases member with rfl | member
          · exact old
          · exact listed id member
    · simp only at stored
      rw [others key same] at stored
      exact sound.ok.listed stored member
  · refine { Extends.refl now with steady := ?_ }
    intro ino id resolved dir
    rcases resolve_register registered resolved with kept | ⟨noDir, -⟩
    · exact kept
    · exact (noDir dir).elim

/-- The nodes of a number do not depend on its count. -/
theorem resolve_incLookup
    (nodes : NodeArena)
    (inodes : InodeTable)
    (key : InodeKey)
    (ino : UInt64) :
    resolve ⟨nodes, inodes.incLookup key⟩ ino =
      resolve ⟨nodes, inodes⟩ ino := by
  have sameNodes :
      ((inodes.incLookup key).fuseToIno ino).map OvlIno.nodes =
        (inodes.fuseToIno ino).map OvlIno.nodes := by
    unfold InodeTable.fuseToIno InodeTable.incLookup
    cases inodes.fuseMap.get? ino with
    | none =>
        rfl
    | some query =>
        simp only [Option.bind_some, FMap.get?_modify]
        split
        · next same =>
            subst same
            cases inodes.table.get? query <;> rfl
        · rfl
  have listed :
      ∀ table : InodeTable,
        resolve ⟨nodes, table⟩ ino =
          if ino = rootIno then some rootId
          else ((table.fuseToIno ino).map OvlIno.nodes).bind
            (·.find? nodes.containsKey) := by
    intro table
    unfold resolve Daemon.lookupNodeId
    cases table.fuseToIno ino <;> rfl
  rw [listed, listed, sameNodes]

/-- Counting a lookup. -/
theorem Sound.incLookup
    {start now : Forest}
    (sound : Sound start now)
    (key : InodeKey) :
    Sound start ⟨now.nodes, now.inodes.incLookup key⟩ := by
  refine sound.trans ⟨⟨sound.ok.tree, ?_⟩, ?_⟩
  · intro query entry id stored member
    change (now.inodes.incLookup key).table.get? query = some entry at stored
    unfold InodeTable.incLookup at stored
    rw [FMap.get?_modify] at stored
    split at stored
    · next same =>
        subst same
        obtain ⟨old, oldStored, rfl⟩ := Option.map_eq_some_iff.mp stored
        exact sound.ok.listed oldStored member
    · exact sound.ok.listed stored member
  · refine { Extends.refl now with steady := fun resolved _ => ?_ }
    exact (resolve_incLookup ..).trans resolved

end Forest

end FuseOverlay
