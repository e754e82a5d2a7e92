import Mathlib.Data.List.Perm.Subperm
import FuseOverlay.Tree

namespace FuseOverlay

/-!
# Paths in the tree

In an arena whose children and parent pointers agree, the nodes reached from
the root are live, each is reached by one path only, and `computePath` renders
that path: the walk up the parent pointers undoes the walk down.
-/

namespace NodeArena

/-- The names of `path` lead from the root to the node. -/
inductive Walk (arena : NodeArena) : Path → NodeId → Prop where
  | root : Walk arena [] rootId
  | step
      {path : Path}
      {parent child : NodeId}
      {name : Name} :
      Walk arena path parent →
      arena.Entry parent name child →
      Walk arena (path ++ [name]) child

/-- The parent pointers lead from the node to the root in `depth` steps. -/
inductive ParentChain (arena : NodeArena) : NodeId → Nat → Prop where
  | root
      {node : OvlNode} :
      arena.get? rootId = some node →
      node.parent = none →
      ParentChain arena rootId 0
  | step
      {id parent : NodeId}
      {node : OvlNode}
      {depth : Nat} :
      arena.get? id = some node →
      node.parent = some parent →
      ParentChain arena parent depth →
      ParentChain arena id (depth + 1)

/-- The root has no parent, and the children below it point back. -/
structure LinkedTree (arena : NodeArena) : Prop where
  root : ∃ node, arena.get? rootId = some node ∧ node.parent = none
  linked :
    ∀ {path parent name child},
      arena.Walk path parent → arena.Entry parent name child →
      ∃ node, arena.get? child = some node ∧ node.parent = some parent ∧
        node.name = name

/--
The loop of `compute_path` ends: at a node without parent, or at an identifier
that was given out and is gone.
-/
inductive Ascends (arena : NodeArena) : NodeId → List Name → Prop where
  | top
      {id : NodeId}
      {node : OvlNode} :
      arena.get? id = some node →
      node.parent = none →
      Ascends arena id []
  | gone
      {id : NodeId} :
      arena.get? id = none →
      id < arena.nextId →
      Ascends arena id []
  | step
      {id parent : NodeId}
      {node : OvlNode}
      {parts : List Name} :
      arena.get? id = some node →
      node.parent = some parent →
      Ascends arena parent parts →
      Ascends arena id (node.name :: parts)

namespace Ascends

variable {arena : NodeArena} {id : NodeId} {parts : List Name}

theorem unique
    (ascends : arena.Ascends id parts)
    {others : List Name}
    (again : arena.Ascends id others) :
    parts = others := by
  induction ascends generalizing others with
  | top stored noParent =>
      cases again with
      | top _ _ =>
          rfl
      | gone absent _ =>
          rfl
      | step storedAgain isParent _ =>
          rw [stored] at storedAgain
          cases storedAgain
          rw [noParent] at isParent
          cases isParent
  | gone absent _ =>
      cases again with
      | top _ _ =>
          rfl
      | gone _ _ =>
          rfl
      | step stored _ _ =>
          rw [absent] at stored
          cases stored
  | step stored isParent _ inductionHypothesis =>
      cases again with
      | top storedAgain noParent =>
          rw [stored] at storedAgain
          cases storedAgain
          rw [noParent] at isParent
          cases isParent
      | gone absent _ =>
          rw [absent] at stored
          cases stored
      | step storedAgain isParentAgain above =>
          rw [stored] at storedAgain
          cases storedAgain
          rw [isParent] at isParentAgain
          cases isParentAgain
          rw [inductionHypothesis above]

/-- The nodes that the loop passes: none of them twice. -/
theorem distinct_nodes
    (ascends : arena.Ascends id parts) :
    ∃ ids : List NodeId, ids.length = parts.length ∧ ids.Nodup ∧
      ∀ query ∈ ids, arena.Live query ∧
        ∃ rest, arena.Ascends query rest ∧
          rest.length ≤ parts.length := by
  induction ascends with
  | top _ _ =>
      exact ⟨[], rfl, List.nodup_nil, by simp⟩
  | gone _ _ =>
      exact ⟨[], rfl, List.nodup_nil, by simp⟩
  | @step id parent node parts stored isParent above inductionHypothesis =>
      obtain ⟨ids, length, nodup, members⟩ := inductionHypothesis
      have whole := Ascends.step stored isParent above
      refine ⟨id :: ids, by simp [length], ?_, ?_⟩
      · refine List.nodup_cons.mpr ⟨fun member => ?_, nodup⟩
        -- a node further up has a shorter path
        obtain ⟨-, rest, again, short⟩ := members id member
        rw [← whole.unique again, List.length_cons] at short
        exact Nat.not_succ_le_self _ short
      · intro query member
        rcases List.mem_cons.mp member with rfl | member
        · exact ⟨⟨node, stored⟩, _, whole, le_rfl⟩
        · obtain ⟨live, rest, again, short⟩ := members query member
          exact ⟨live, rest, again, short.trans (by simp)⟩

theorem length_le_size
    (ascends : arena.Ascends id parts) :
    parts.length ≤ arena.map.size := by
  obtain ⟨ids, length, nodup, members⟩ := ascends.distinct_nodes
  rw [← length]
  exact FMap.length_le_size nodup fun member among => (members member among).1

theorem collectParts_eq
    (ascends : arena.Ascends id parts)
    {fuel : Nat}
    (enough : parts.length ≤ fuel) :
    collectParts arena fuel id = parts := by
  induction ascends generalizing fuel with
  | top stored noParent =>
      cases fuel with
      | zero =>
          rfl
      | succ fuel =>
          simp [collectParts, stored, noParent]
  | gone absent _ =>
      cases fuel with
      | zero =>
          rfl
      | succ fuel =>
          simp [collectParts, absent]
  | step stored isParent _ inductionHypothesis =>
      cases fuel with
      | zero =>
          simp at enough
      | succ fuel =>
          have above := inductionHypothesis (Nat.le_of_succ_le_succ enough)
          simp [collectParts, stored, isParent, above]

theorem nodeParts_eq
    (ascends : arena.Ascends id parts) :
    nodeParts arena id = parts.reverse := by
  unfold nodeParts
  rw [ascends.collectParts_eq ascends.length_le_size]

end Ascends

namespace Walk

variable {arena : NodeArena}

/-- A walk ends at the root or at somebody's child. -/
theorem root_or_child
    {path : Path}
    {id : NodeId}
    (walk : arena.Walk path id) :
    id = rootId ∨ ¬ arena.Orphan id := by
  cases walk with
  | root =>
      exact .inl rfl
  | step _ entry =>
      exact .inr fun orphan => orphan _ _ entry

/-- Children of a node reached from the root are live. -/
theorem live_child
    (tree : arena.Tree)
    {path : Path}
    {parent child : NodeId}
    {name : Name}
    (walk : arena.Walk path parent)
    (entry : arena.Entry parent name child) :
    arena.Live child := by
  by_contra dead
  obtain ⟨notRoot, orphan⟩ := tree.whole entry dead
  rcases walk.root_or_child with isRoot | isChild
  · exact notRoot isRoot
  · exact isChild orphan

theorem live
    (tree : arena.Tree)
    {path : Path}
    {id : NodeId}
    (walk : arena.Walk path id) :
    arena.Live id := by
  cases walk with
  | root =>
      exact tree.live_root
  | step before entry =>
      exact before.live_child tree entry

/-- Two walks to one node follow the same names. -/
theorem unique
    (tree : arena.Tree)
    {first second : Path}
    {id : NodeId}
    (firstWalk : arena.Walk first id)
    (secondWalk : arena.Walk second id) :
    first = second := by
  have rootOrphan := tree.orphan_root (by simp)
  induction firstWalk generalizing second with
  | root =>
      cases secondWalk with
      | root =>
          rfl
      | step _ entry =>
          exact (rootOrphan _ _ entry).elim
  | step before entry inductionHypothesis =>
      cases secondWalk with
      | root =>
          exact (rootOrphan _ _ entry).elim
      | step otherBefore otherEntry =>
          obtain ⟨rfl, rfl⟩ :=
            tree.entry_inj entry otherEntry (before.live_child tree entry)
              (by simp)
          rw [inductionHypothesis otherBefore]

/-- The parent pointers lead back to the root. -/
theorem parentChain
    (tree : arena.Tree)
    {path : Path}
    {id : NodeId}
    (walk : arena.Walk path id) :
    arena.ParentChain id path.length := by
  induction walk with
  | root =>
      obtain ⟨node, stored, noParent, -⟩ := tree.root
      exact .root stored noParent
  | step before entry inductionHypothesis =>
      obtain ⟨node, stored⟩ := before.live_child tree entry
      obtain ⟨parent, -⟩ := tree.linked entry stored (by simp)
      rw [List.length_append]
      exact .step stored parent inductionHypothesis

end Walk

theorem Tree.linkedTree
    {arena : NodeArena}
    (tree : arena.Tree) :
    arena.LinkedTree where
  root := by
    obtain ⟨node, stored, noParent, -⟩ := tree.root
    exact ⟨node, stored, noParent⟩
  linked := by
    intro path parent name child walk entry
    obtain ⟨node, stored⟩ := walk.live_child tree entry
    exact ⟨node, stored, tree.linked entry stored (by simp)⟩

namespace Walk

variable {arena : NodeArena}

/-- The loop of `compute_path` goes the walk back. -/
theorem ascends
    (linked : arena.LinkedTree)
    {path : Path}
    {id : NodeId}
    (walk : arena.Walk path id) :
    arena.Ascends id path.reverse := by
  induction walk with
  | root =>
      obtain ⟨node, stored, noParent⟩ := linked.root
      exact .top stored noParent
  | step before entry inductionHypothesis =>
      obtain ⟨node, stored, isParent, rfl⟩ := linked.linked before entry
      rw [List.reverse_append]
      exact .step stored isParent inductionHypothesis

/-- The components of a node's path are the names of the walk to it. -/
theorem nodeParts_eq
    (linked : arena.LinkedTree)
    {path : Path}
    {id : NodeId}
    (walk : arena.Walk path id) :
    nodeParts arena id = path := by
  rw [(walk.ascends linked).nodeParts_eq, List.reverse_reverse]

/-- `compute_path` renders the names of the walk. -/
theorem computePath_eq
    (linked : arena.LinkedTree)
    {path : Path}
    {id : NodeId}
    (walk : arena.Walk path id) :
    computePath arena id = renderPath path := by
  have parts := walk.nodeParts_eq linked
  cases walk with
  | root =>
      obtain ⟨node, stored, noParent⟩ := linked.root
      simp [computePath, stored, noParent, renderPath]
  | step before entry =>
      obtain ⟨node, stored, isParent, -⟩ := linked.linked before entry
      simp only [computePath, stored, isParent, parts]
      rw [renderPath]
      simp

end Walk

end NodeArena

end FuseOverlay
