import FuseOverlay.Node

namespace FuseOverlay

/-!
# The tree of nodes

Nodes refer to their children by name and to their parent by a pointer.  `Tree`
says that the two agree at every live node.  Nodes that hang below no other
node are allowed, and only such a node may keep an entry of a dead child, so
everything below the root is live.  `TreeBut` leaves one node out of the
agreement, for the moment between hiding it and taking it out of its parent.
-/

namespace OvlNode

@[simp] theorem isDir_insertChild
    (node : OvlNode)
    (name : Name)
    (child : NodeId) :
    (node.insertChild name child).isDir = node.isDir := by
  cases shape : node.dirState <;> simp [insertChild, isDir, shape]

@[simp] theorem isDir_removeChild
    (node : OvlNode)
    (name : Name) :
    (node.removeChild name).isDir = node.isDir := by
  cases shape : node.dirState <;> simp [removeChild, isDir, shape]

@[simp] theorem isDir_clearChildren
    (node : OvlNode) :
    node.clearChildren.isDir = node.isDir := by
  cases shape : node.dirState <;> simp [clearChildren, isDir, shape]

theorem insertChild_of_not_dir
    {node : OvlNode}
    (noDir : node.isDir = false)
    (name : Name)
    (child : NodeId) :
    node.insertChild name child = node := by
  cases shape : node.dirState with
  | notADir =>
      simp [insertChild, shape]
  | dir children whiteouts loaded =>
      simp [isDir, shape] at noDir

theorem getChild_insertChild
    (node : OvlNode)
    (name query : Name)
    (child : NodeId) :
    (node.insertChild name child).getChild query =
      if node.isDir ∧ query = name then some child
      else node.getChild query := by
  cases shape : node.dirState with
  | notADir =>
      simp [insertChild, getChild, isDir, shape]
  | dir children whiteouts loaded =>
      simp only [insertChild, getChild, isDir, shape, true_and]
      exact FMap.get?_set ..

theorem getChild_removeChild
    (node : OvlNode)
    (name query : Name) :
    (node.removeChild name).getChild query =
      if query = name then none else node.getChild query := by
  cases shape : node.dirState with
  | notADir =>
      simp [removeChild, getChild, shape]
  | dir children whiteouts loaded =>
      simp only [removeChild, getChild, shape]
      exact FMap.get?_remove ..

@[simp] theorem getChild_clearChildren
    (node : OvlNode)
    (query : Name) :
    node.clearChildren.getChild query = none := by
  cases shape : node.dirState <;>
    simp [clearChildren, getChild, shape]

@[simp] theorem parent_insertChild
    (node : OvlNode)
    (name : Name)
    (child : NodeId) :
    (node.insertChild name child).parent = node.parent := by
  cases shape : node.dirState <;> simp [insertChild, shape]

@[simp] theorem name_insertChild
    (node : OvlNode)
    (name : Name)
    (child : NodeId) :
    (node.insertChild name child).name = node.name := by
  cases shape : node.dirState <;> simp [insertChild, shape]

@[simp] theorem parent_removeChild
    (node : OvlNode)
    (name : Name) :
    (node.removeChild name).parent = node.parent := by
  cases shape : node.dirState <;> simp [removeChild, shape]

@[simp] theorem name_removeChild
    (node : OvlNode)
    (name : Name) :
    (node.removeChild name).name = node.name := by
  cases shape : node.dirState <;> simp [removeChild, shape]

@[simp] theorem parent_clearChildren
    (node : OvlNode) :
    node.clearChildren.parent = node.parent := by
  cases shape : node.dirState <;> simp [clearChildren, shape]

@[simp] theorem name_clearChildren
    (node : OvlNode) :
    node.clearChildren.name = node.name := by
  cases shape : node.dirState <;> simp [clearChildren, shape]

/-- What the tree and the inode table see of a node. -/
def shape (node : OvlNode) :
    Option NodeId × Name × Option (FMap Name NodeId) × Bool × UInt64 ×
      UInt64 :=
  (node.parent, node.name, node.children, node.hidden, node.tmpIno,
    node.tmpDev)

theorem getChild_eq
    (node : OvlNode)
    (name : Name) :
    node.getChild name = node.children.bind (·.get? name) := by
  cases shape : node.dirState <;> simp [getChild, children, shape]

theorem isDir_eq
    (node : OvlNode) :
    node.isDir = node.children.isSome := by
  cases shape : node.dirState <;> simp [isDir, children, shape]

theorem getChild_of_shape
    {first second : OvlNode}
    (same : first.shape = second.shape)
    (name : Name) :
    first.getChild name = second.getChild name := by
  simp only [shape, Prod.mk.injEq] at same
  rw [getChild_eq, getChild_eq, same.2.2.1]

theorem isDir_of_shape
    {first second : OvlNode}
    (same : first.shape = second.shape) :
    first.isDir = second.isDir := by
  simp only [shape, Prod.mk.injEq] at same
  rw [isDir_eq, isDir_eq, same.2.2.1]

@[simp] theorem shape_markLoaded
    (node : OvlNode) :
    node.markLoaded.shape = node.shape := by
  cases kind : node.dirState <;>
    simp [markLoaded, shape, children, kind]

@[simp] theorem shape_markUnloaded
    (node : OvlNode) :
    node.markUnloaded.shape = node.shape := by
  cases kind : node.dirState <;>
    simp [markUnloaded, shape, children, kind]

@[simp] theorem shape_insertWhiteout
    (node : OvlNode)
    (name : Name) :
    (node.insertWhiteout name).shape = node.shape := by
  cases kind : node.dirState <;>
    simp [insertWhiteout, shape, children, kind]

@[simp] theorem hidden_insertChild
    (node : OvlNode)
    (name : Name)
    (child : NodeId) :
    (node.insertChild name child).hidden = node.hidden := by
  cases kind : node.dirState <;> simp [insertChild, kind]

@[simp] theorem hidden_removeChild
    (node : OvlNode)
    (name : Name) :
    (node.removeChild name).hidden = node.hidden := by
  cases kind : node.dirState <;> simp [removeChild, kind]

@[simp] theorem hidden_markUnloaded
    (node : OvlNode) :
    node.markUnloaded.hidden = node.hidden := by
  cases kind : node.dirState <;> simp [markUnloaded, kind]

@[simp] theorem hidden_markLoaded
    (node : OvlNode) :
    node.markLoaded.hidden = node.hidden := by
  cases kind : node.dirState <;> simp [markLoaded, kind]

@[simp] theorem hidden_insertWhiteout
    (node : OvlNode)
    (name : Name) :
    (node.insertWhiteout name).hidden = node.hidden := by
  cases kind : node.dirState <;> simp [insertWhiteout, kind]

@[simp] theorem hidden_clearChildren
    (node : OvlNode) :
    node.clearChildren.hidden = node.hidden := by
  cases kind : node.dirState <;> simp [clearChildren, kind]

theorem isWhiteout_insertWhiteout
    {node : OvlNode}
    (isDir : node.isDir = true)
    (name query : Name) :
    (node.insertWhiteout name).isWhiteout query =
      (decide (query = name) || node.isWhiteout query) := by
  cases shape : node.dirState with
  | notADir =>
      simp [OvlNode.isDir, shape] at isDir
  | dir children whiteouts loaded =>
      simp [insertWhiteout, isWhiteout, shape]

theorem isWhiteout_insertChild
    (node : OvlNode)
    (name query : Name)
    (child : NodeId) :
    (node.insertChild name child).isWhiteout query =
      (decide (query ≠ name ∨ node.isDir = false)
        && node.isWhiteout query) := by
  cases shape : node.dirState with
  | notADir =>
      simp [insertChild, isWhiteout, shape]
  | dir children whiteouts loaded =>
      simp [insertChild, isWhiteout, OvlNode.isDir, shape]

@[simp] theorem isWhiteout_removeChild
    (node : OvlNode)
    (name query : Name) :
    (node.removeChild name).isWhiteout query = node.isWhiteout query := by
  cases kind : node.dirState <;>
    simp [removeChild, isWhiteout, kind]

@[simp] theorem isWhiteout_clearChildren
    (node : OvlNode)
    (name : Name) :
    node.clearChildren.isWhiteout name = false := by
  cases kind : node.dirState <;>
    simp [clearChildren, isWhiteout, kind]

@[simp] theorem isWhiteout_markLoaded
    (node : OvlNode)
    (name : Name) :
    node.markLoaded.isWhiteout name = node.isWhiteout name := by
  cases kind : node.dirState <;>
    simp [markLoaded, isWhiteout, kind]

@[simp] theorem isWhiteout_markUnloaded
    (node : OvlNode)
    (name : Name) :
    node.markUnloaded.isWhiteout name = node.isWhiteout name := by
  cases kind : node.dirState <;>
    simp [markUnloaded, isWhiteout, kind]

/-- Removing a name that is not there keeps the shape. -/
theorem shape_removeChild
    {node : OvlNode}
    {name : Name}
    (absent : node.getChild name = none) :
    (node.removeChild name).shape = node.shape := by
  cases kind : node.dirState with
  | notADir =>
      simp [removeChild, kind]
  | dir known whiteouts loaded =>
      rw [getChild, kind] at absent
      have kept : known.remove name = known := FMap.remove_of_absent absent
      simp [removeChild, shape, children, kind, kept]

/-- Clearing a node without children keeps its shape. -/
theorem shape_clearChildren
    {node : OvlNode}
    (childless : ∀ name, node.getChild name = none) :
    node.clearChildren.shape = node.shape := by
  cases kind : node.dirState with
  | notADir =>
      simp [clearChildren, kind]
  | dir known whiteouts loaded =>
      have empty : known = ∅ := by
        refine FMap.eq_empty_of_get? fun name => ?_
        have nothing := childless name
        rw [getChild, kind] at nothing
        exact nothing
      simp [clearChildren, shape, children, kind, empty]

end OvlNode

namespace NodeArena

/-- `name` leads from the live node `parent` to `child`. -/
def Entry
    (arena : NodeArena)
    (parent : NodeId)
    (name : Name)
    (child : NodeId) : Prop :=
  ∃ node, arena.get? parent = some node ∧ node.getChild name = some child

/-- The arena holds the node. -/
def Live
    (arena : NodeArena)
    (id : NodeId) : Prop :=
  ∃ node, arena.get? id = some node

/-- The arena holds the node as a directory. -/
def DirNode
    (arena : NodeArena)
    (id : NodeId) : Prop :=
  ∃ node, arena.get? id = some node ∧ node.isDir = true

/-- No live node has the node among its children. -/
def Orphan
    (arena : NodeArena)
    (id : NodeId) : Prop :=
  ∀ parent name, ¬ arena.Entry parent name id

/-- Children and parent pointers agree, except at the node `loose`. -/
structure TreeBut
    (loose : Option NodeId)
    (arena : NodeArena) : Prop where
  root :
    ∃ node, arena.get? rootId = some node ∧ node.parent = none ∧
      node.isDir = true
  linked :
    ∀ {parent name child node},
      arena.Entry parent name child → arena.get? child = some node →
      loose ≠ some child →
      node.parent = some parent ∧ node.name = name
  whole :
    ∀ {parent name child},
      arena.Entry parent name child → ¬ arena.Live child →
      parent ≠ rootId ∧ arena.Orphan parent
  bounded : ∀ {id}, arena.Live id → id < arena.nextId
  entryBounded :
    ∀ {parent name child}, arena.Entry parent name child →
      child < arena.nextId

/-- Children and parent pointers agree at every live node. -/
abbrev Tree (arena : NodeArena) : Prop :=
  arena.TreeBut none

/-! ## Entries after a change of the arena -/

theorem Entry.unique
    {arena : NodeArena}
    {parent : NodeId}
    {name : Name}
    {first second : NodeId}
    (firstEntry : arena.Entry parent name first)
    (secondEntry : arena.Entry parent name second) :
    first = second := by
  obtain ⟨node, stored, found⟩ := firstEntry
  obtain ⟨node', stored', found'⟩ := secondEntry
  rw [stored] at stored'
  cases stored'
  rw [found] at found'
  exact Option.some.inj found'

theorem Entry.dirNode
    {arena : NodeArena}
    {parent child : NodeId}
    {name : Name}
    (entry : arena.Entry parent name child) :
    arena.DirNode parent := by
  obtain ⟨node, stored, found⟩ := entry
  refine ⟨node, stored, ?_⟩
  rw [OvlNode.getChild_eq] at found
  rw [OvlNode.isDir_eq]
  cases children : node.children with
  | none =>
      rw [children] at found
      cases found
  | some map =>
      rfl

theorem entry_modify
    {arena : NodeArena}
    {id parent child : NodeId}
    {name : Name}
    {change : OvlNode → OvlNode} :
    (arena.modify id change).Entry parent name child ↔
      (parent = id ∧ ∃ node, arena.get? id = some node ∧
        (change node).getChild name = some child) ∨
      (parent ≠ id ∧ arena.Entry parent name child) := by
  unfold Entry
  rw [get?_modify]
  by_cases same : parent = id
  · subst same
    simp
  · simp [same]

theorem live_modify
    {arena : NodeArena}
    {id query : NodeId}
    {change : OvlNode → OvlNode} :
    (arena.modify id change).Live query ↔ arena.Live query := by
  unfold Live
  rw [get?_modify]
  by_cases same : query = id
  · subst same
    simp
  · simp [same]

theorem entry_remove
    {arena : NodeArena}
    {id parent child : NodeId}
    {name : Name} :
    (arena.remove id).Entry parent name child ↔
      parent ≠ id ∧ arena.Entry parent name child := by
  unfold Entry
  rw [get?_remove]
  by_cases same : parent = id <;> simp [same]

theorem live_remove
    {arena : NodeArena}
    {id query : NodeId} :
    (arena.remove id).Live query ↔ query ≠ id ∧ arena.Live query := by
  unfold Live
  rw [get?_remove]
  by_cases same : query = id <;> simp [same]

theorem entry_insert
    {arena : NodeArena}
    {parent child : NodeId}
    {name : Name}
    {node : OvlNode} :
    (arena.insert node).2.Entry parent name child ↔
      (parent = arena.nextId ∧ node.getChild name = some child) ∨
      (parent ≠ arena.nextId ∧ arena.Entry parent name child) := by
  unfold Entry
  rw [get?_insert]
  by_cases same : parent = arena.nextId <;> simp [same]

theorem live_insert
    {arena : NodeArena}
    {query : NodeId}
    {node : OvlNode} :
    (arena.insert node).2.Live query ↔
      query = arena.nextId ∨ arena.Live query := by
  unfold Live
  rw [get?_insert]
  by_cases same : query = arena.nextId <;> simp [same]

/-! ## Changes that the tree does not see -/

/-- A change that keeps the children of every node keeps the entries. -/
theorem entry_modify_of_children
    {arena : NodeArena}
    {id above below : NodeId}
    {label : Name}
    {change : OvlNode → OvlNode}
    (sameChildren :
      ∀ node name, (change node).getChild name = node.getChild name) :
    (arena.modify id change).Entry above label below ↔
      arena.Entry above label below := by
  rw [entry_modify]
  constructor
  · rintro (⟨rfl, node, stored, entry⟩ | ⟨-, entry⟩)
    · exact ⟨node, stored, sameChildren node label ▸ entry⟩
    · exact entry
  · rintro ⟨node, stored, entry⟩
    by_cases same : above = id
    · refine .inl ⟨same, node, same ▸ stored, ?_⟩
      rw [sameChildren]
      exact entry
    · exact .inr ⟨same, node, stored, entry⟩

/-- Two arenas with the same tree. -/
structure SameShape
    (first second : NodeArena) : Prop where
  shapes :
    ∀ id, (second.get? id).map OvlNode.shape =
      (first.get? id).map OvlNode.shape
  nextId : second.nextId = first.nextId

namespace SameShape

theorem refl
    (arena : NodeArena) :
    SameShape arena arena :=
  ⟨fun _ => rfl, rfl⟩

theorem trans
    {first second third : NodeArena}
    (left : SameShape first second)
    (right : SameShape second third) :
    SameShape first third :=
  ⟨fun id => (right.shapes id).trans (left.shapes id),
    right.nextId.trans left.nextId⟩

theorem symm
    {first second : NodeArena}
    (same : SameShape first second) :
    SameShape second first :=
  ⟨fun id => (same.shapes id).symm, same.nextId.symm⟩

/-- A change of one node that keeps its shape. -/
theorem modify
    (arena : NodeArena)
    (id : NodeId)
    {change : OvlNode → OvlNode}
    (kept :
      ∀ node, arena.get? id = some node → (change node).shape = node.shape) :
    SameShape arena (arena.modify id change) := by
  refine ⟨fun query => ?_, rfl⟩
  rw [get?_modify]
  by_cases same : query = id
  · subst same
    cases stored : arena.get? query with
    | none =>
        simp
    | some node =>
        simp [kept node stored]
  · simp [same]

variable {first second : NodeArena}

theorem get?_of_get?
    (same : SameShape first second)
    {id : NodeId}
    {node : OvlNode}
    (stored : first.get? id = some node) :
    ∃ node', second.get? id = some node' ∧ node'.shape = node.shape := by
  have shapes := same.shapes id
  rw [stored] at shapes
  cases later : second.get? id with
  | none =>
      rw [later] at shapes
      cases shapes
  | some node' =>
      rw [later] at shapes
      exact ⟨node', rfl, Option.some.inj shapes⟩

theorem entry
    (same : SameShape first second)
    {parent child : NodeId}
    {name : Name}
    (entry : first.Entry parent name child) :
    second.Entry parent name child := by
  obtain ⟨node, stored, found⟩ := entry
  obtain ⟨node', stored', shape⟩ := same.get?_of_get? stored
  exact ⟨node', stored', (OvlNode.getChild_of_shape shape name).trans found⟩

theorem live
    (same : SameShape first second)
    {id : NodeId}
    (live : first.Live id) :
    second.Live id := by
  obtain ⟨node, stored⟩ := live
  obtain ⟨node', stored', -⟩ := same.get?_of_get? stored
  exact ⟨node', stored'⟩

theorem live_iff
    (same : SameShape first second)
    {id : NodeId} :
    second.Live id ↔ first.Live id :=
  ⟨same.symm.live, same.live⟩

theorem dirNode
    (same : SameShape first second)
    {id : NodeId}
    (dir : first.DirNode id) :
    second.DirNode id := by
  obtain ⟨node, stored, isDir⟩ := dir
  obtain ⟨node', stored', shape⟩ := same.get?_of_get? stored
  exact ⟨node', stored', (OvlNode.isDir_of_shape shape).trans isDir⟩

theorem treeBut
    {loose : Option NodeId}
    (same : SameShape first second)
    (tree : first.TreeBut loose) :
    second.TreeBut loose where
  root := by
    obtain ⟨node, stored, parent, isDir⟩ := tree.root
    obtain ⟨node', stored', shape⟩ := same.get?_of_get? stored
    refine ⟨node', stored', ?_, ?_⟩
    · exact (congrArg Prod.fst shape).trans parent
    · exact (OvlNode.isDir_of_shape shape).trans isDir
  linked := by
    intro parent name child node entry stored tight
    obtain ⟨node', stored', shape⟩ := same.symm.get?_of_get? stored
    have linked := tree.linked (same.symm.entry entry) stored' tight
    simp only [OvlNode.shape, Prod.mk.injEq] at shape
    exact ⟨shape.1 ▸ linked.1, shape.2.1 ▸ linked.2⟩
  whole := by
    intro parent name child entry dead
    obtain ⟨notRoot, orphan⟩ :=
      tree.whole (same.symm.entry entry) fun live => dead (same.live live)
    exact ⟨notRoot, fun q m above => orphan q m (same.symm.entry above)⟩
  bounded := by
    intro id live
    rw [same.nextId]
    exact tree.bounded (same.symm.live live)
  entryBounded := by
    intro parent name child entry
    rw [same.nextId]
    exact tree.entryBounded (same.symm.entry entry)

end SameShape

/-! ## Changes of the tree -/

namespace TreeBut

variable {arena : NodeArena} {loose : Option NodeId}

theorem live_root
    (tree : arena.TreeBut loose) :
    arena.Live rootId := by
  obtain ⟨node, stored, -⟩ := tree.root
  exact ⟨node, stored⟩

/-- The node that the next insertion gets is not there yet. -/
theorem fresh
    (tree : arena.TreeBut loose) :
    ¬ arena.Live arena.nextId := by
  intro live
  exact Nat.lt_irrefl _ (tree.bounded live)

theorem orphan_nextId
    (tree : arena.TreeBut loose) :
    arena.Orphan arena.nextId := by
  intro parent name entry
  exact Nat.lt_irrefl _ (tree.entryBounded entry)

/-- A live node that is somebody's child has one parent and one name. -/
theorem entry_inj
    (tree : arena.TreeBut loose)
    {first second child : NodeId}
    {firstName secondName : Name}
    (firstEntry : arena.Entry first firstName child)
    (secondEntry : arena.Entry second secondName child)
    (live : arena.Live child)
    (tight : loose ≠ some child) :
    first = second ∧ firstName = secondName := by
  obtain ⟨node, stored⟩ := live
  obtain ⟨firstParent, firstLabel⟩ := tree.linked firstEntry stored tight
  obtain ⟨secondParent, secondLabel⟩ := tree.linked secondEntry stored tight
  rw [firstParent] at secondParent
  exact ⟨Option.some.inj secondParent, firstLabel.symm.trans secondLabel⟩

/-- The root is nobody's child. -/
theorem orphan_root
    (tree : arena.TreeBut loose)
    (tight : loose ≠ some rootId) :
    arena.Orphan rootId := by
  intro parent name entry
  obtain ⟨node, stored, noParent, -⟩ := tree.root
  have linked := tree.linked entry stored tight
  rw [noParent] at linked
  cases linked.1

/-- A node that is somebody's child has live children only. -/
theorem live_of_entries
    (tree : arena.TreeBut loose)
    {above middle below : NodeId}
    {middleName belowName : Name}
    (upper : arena.Entry above middleName middle)
    (lower : arena.Entry middle belowName below) :
    arena.Live below := by
  by_contra dead
  exact (tree.whole lower dead).2 above middleName upper

/-- A new node without children. -/
theorem insert
    (tree : arena.TreeBut loose)
    {node : OvlNode}
    (bare : ∀ name, node.getChild name = none) :
    (arena.insert node).2.TreeBut loose := by
  have kept :
      ∀ {parent name child},
        (arena.insert node).2.Entry parent name child →
          arena.Entry parent name child := by
    intro parent name child entry
    rcases entry_insert.mp entry with ⟨-, found⟩ | ⟨-, entry⟩
    · rw [bare] at found
      cases found
    · exact entry
  refine ⟨?_, ?_, ?_, ?_, ?_⟩
  · obtain ⟨root, stored, rest⟩ := tree.root
    refine ⟨root, ?_, rest⟩
    rw [get?_insert, if_neg]
    · exact stored
    · exact Nat.ne_of_lt (tree.bounded ⟨root, stored⟩)
  · intro parent name child found entry stored tight
    have older := kept entry
    rw [get?_insert, if_neg (Nat.ne_of_lt (tree.entryBounded older))]
      at stored
    exact tree.linked older stored tight
  · intro parent name child entry dead
    obtain ⟨notRoot, orphan⟩ :=
      tree.whole (kept entry) fun live => dead (live_insert.mpr (.inr live))
    exact ⟨notRoot, fun q m above => orphan q m (kept above)⟩
  · intro id live
    rcases live_insert.mp live with rfl | live
    · exact Nat.lt_succ_self _
    · exact Nat.lt_succ_of_lt (tree.bounded live)
  · intro parent name child entry
    exact Nat.lt_succ_of_lt (tree.entryBounded (kept entry))

/-- A node loses some of its children. -/
theorem shrink
    (tree : arena.TreeBut loose)
    {id : NodeId}
    {change : OvlNode → OvlNode}
    (sameParent : ∀ node, (change node).parent = node.parent)
    (sameName : ∀ node, (change node).name = node.name)
    (sameKind : ∀ node, (change node).isDir = node.isDir)
    (fewer :
      ∀ node name child, (change node).getChild name = some child →
        node.getChild name = some child) :
    (arena.modify id change).TreeBut loose := by
  have kept :
      ∀ {parent name child},
        (arena.modify id change).Entry parent name child →
          arena.Entry parent name child := by
    intro parent name child entry
    rcases entry_modify.mp entry with ⟨rfl, node, stored, found⟩ | ⟨-, entry⟩
    · exact ⟨node, stored, fewer node name child found⟩
    · exact entry
  refine ⟨?_, ?_, ?_, ?_, ?_⟩
  · obtain ⟨root, stored, noParent, isDir⟩ := tree.root
    rw [get?_modify]
    by_cases same : rootId = id
    · subst same
      refine ⟨change root, ?_, ?_, ?_⟩
      · simp [stored]
      · rw [sameParent, noParent]
      · rw [sameKind, isDir]
    · exact ⟨root, by simp [same, stored], noParent, isDir⟩
  · intro parent name child node entry stored tight
    rw [get?_modify] at stored
    by_cases same : child = id
    · subst same
      simp only [↓reduceIte, Option.map_eq_some_iff] at stored
      obtain ⟨old, oldStored, rfl⟩ := stored
      rw [sameParent, sameName]
      exact tree.linked (kept entry) oldStored tight
    · rw [if_neg same] at stored
      exact tree.linked (kept entry) stored tight
  · intro parent name child entry dead
    obtain ⟨notRoot, orphan⟩ :=
      tree.whole (kept entry) fun live => dead (live_modify.mpr live)
    exact ⟨notRoot, fun q m above => orphan q m (kept above)⟩
  · intro id' live
    exact tree.bounded (live_modify.mp live)
  · intro parent name child entry
    exact tree.entryBounded (kept entry)

theorem detach
    (tree : arena.TreeBut loose)
    (id : NodeId)
    (name : Name) :
    (arena.modify id (·.removeChild name)).TreeBut loose := by
  refine tree.shrink (by simp) (by simp) (by simp) ?_
  intro node query child found
  rw [OvlNode.getChild_removeChild] at found
  split at found
  · cases found
  · exact found

theorem clear
    (tree : arena.TreeBut loose)
    (id : NodeId) :
    (arena.modify id OvlNode.clearChildren).TreeBut loose := by
  refine tree.shrink (by simp) (by simp) (by simp) ?_
  intro node query child found
  simp at found

theorem entry_detach
    {id parent child : NodeId}
    {name query : Name} :
    (arena.modify id (·.removeChild name)).Entry parent query child ↔
      ¬ (parent = id ∧ query = name) ∧ arena.Entry parent query child := by
  rw [entry_modify]
  constructor
  · rintro (⟨rfl, node, stored, found⟩ | ⟨apart, entry⟩)
    · rw [OvlNode.getChild_removeChild] at found
      split at found
      · cases found
      · next different =>
          exact ⟨fun both => different both.2, node, stored, found⟩
    · exact ⟨fun both => apart both.1, entry⟩
  · rintro ⟨apart, node, stored, found⟩
    by_cases same : parent = id
    · subst same
      refine .inl ⟨rfl, node, stored, ?_⟩
      rw [OvlNode.getChild_removeChild, if_neg]
      · exact found
      · exact fun sameName => apart ⟨rfl, sameName⟩
    · exact .inr ⟨same, node, stored, found⟩

/-- The entries after a node gains one child. -/
theorem entry_attach
    {id child parent query : NodeId}
    {name queryName : Name} :
    (arena.modify id (·.insertChild name child)).Entry parent queryName
        query ↔
      (parent = id ∧ arena.DirNode id ∧ queryName = name ∧ query = child) ∨
      (¬ (parent = id ∧ queryName = name) ∧
        arena.Entry parent queryName query) := by
  rw [entry_modify]
  constructor
  · rintro (⟨rfl, node, stored, found⟩ | ⟨apart, entry⟩)
    · rw [OvlNode.getChild_insertChild] at found
      split at found
      · next new =>
          exact .inl ⟨rfl, ⟨node, stored, new.1⟩, new.2,
            (Option.some.inj found).symm⟩
      · next old =>
          have entry : arena.Entry parent queryName query :=
            ⟨node, stored, found⟩
          refine .inr ⟨fun both => old ⟨?_, both.2⟩, entry⟩
          obtain ⟨node', stored', isDir⟩ := entry.dirNode
          rw [stored] at stored'
          cases stored'
          exact isDir
    · exact .inr ⟨fun both => apart both.1, entry⟩
  · rintro (⟨rfl, ⟨node, stored, isDir⟩, rfl, rfl⟩ |
      ⟨apart, node, stored, found⟩)
    · refine .inl ⟨rfl, node, stored, ?_⟩
      rw [OvlNode.getChild_insertChild, if_pos ⟨isDir, rfl⟩]
    · by_cases same : parent = id
      · subst same
        refine .inl ⟨rfl, node, stored, ?_⟩
        rw [OvlNode.getChild_insertChild, if_neg]
        · exact found
        · exact fun both => apart ⟨rfl, both.2⟩
      · exact .inr ⟨same, node, stored, found⟩

/-- A live node that points to `id` under `name` becomes its child. -/
theorem attach
    (tree : arena.TreeBut loose)
    {id child : NodeId}
    {name : Name}
    {node : OvlNode}
    (stored : arena.get? child = some node)
    (parent : node.parent = some id)
    (label : node.name = name)
    (livesBelow :
      ∀ {query below}, arena.Entry child query below → arena.Live below) :
    (arena.modify id (·.insertChild name child)).TreeBut loose := by
  refine ⟨?_, ?_, ?_, ?_, ?_⟩
  · obtain ⟨root, rootStored, noParent, isDir⟩ := tree.root
    rw [get?_modify]
    by_cases same : rootId = id
    · subst same
      refine ⟨root.insertChild name child, ?_, ?_, ?_⟩
      · simp [rootStored]
      · simp [noParent]
      · simp [isDir]
    · exact ⟨root, by simp [same, rootStored], noParent, isDir⟩
  · intro above query below found entry foundStored tight
    have sameLinks :
        ∃ old, arena.get? below = some old ∧ old.parent = found.parent ∧
          old.name = found.name := by
      rw [get?_modify] at foundStored
      split at foundStored
      · next same =>
          subst same
          simp only [Option.map_eq_some_iff] at foundStored
          obtain ⟨old, oldStored, rfl⟩ := foundStored
          exact ⟨old, oldStored, by simp, by simp⟩
      · exact ⟨found, foundStored, rfl, rfl⟩
    obtain ⟨old, oldStored, oldParent, oldName⟩ := sameLinks
    rcases entry_attach.mp entry with ⟨rfl, -, rfl, rfl⟩ | ⟨-, entry⟩
    · rw [stored] at oldStored
      cases oldStored
      exact ⟨oldParent ▸ parent, oldName ▸ label⟩
    · have linked := tree.linked entry oldStored tight
      exact ⟨oldParent ▸ linked.1, oldName ▸ linked.2⟩
  · intro above query below entry dead
    rcases entry_attach.mp entry with ⟨rfl, -, rfl, rfl⟩ | ⟨-, older⟩
    · exact (dead (live_modify.mpr ⟨node, stored⟩)).elim
    · have deadBefore : ¬ arena.Live below :=
        fun live => dead (live_modify.mpr live)
      obtain ⟨notRoot, orphan⟩ := tree.whole older deadBefore
      refine ⟨notRoot, fun q m outer => ?_⟩
      rcases entry_attach.mp outer with ⟨rfl, -, rfl, rfl⟩ | ⟨-, outer⟩
      · exact deadBefore (livesBelow older)
      · exact orphan q m outer
  · intro query live
    exact tree.bounded (live_modify.mp live)
  · intro above query below entry
    rcases entry_attach.mp entry with ⟨rfl, -, rfl, rfl⟩ | ⟨-, entry⟩
    · exact tree.bounded ⟨node, stored⟩
    · exact tree.entryBounded entry

/-- A node leaves the arena; whoever keeps an entry of it is an orphan. -/
theorem remove
    (tree : arena.TreeBut loose)
    {id : NodeId}
    (notRoot : id ≠ rootId)
    (forgotten :
      ∀ {parent name}, arena.Entry parent name id →
        parent ≠ rootId ∧ arena.Orphan parent) :
    (arena.remove id).TreeBut loose := by
  refine ⟨?_, ?_, ?_, ?_, ?_⟩
  · obtain ⟨root, stored, rest⟩ := tree.root
    refine ⟨root, ?_, rest⟩
    rw [get?_remove, if_neg (Ne.symm notRoot)]
    exact stored
  · intro parent name child node entry stored tight
    rw [get?_remove] at stored
    split at stored
    · cases stored
    · exact tree.linked (entry_remove.mp entry).2 stored tight
  · intro parent name child entry dead
    have older := (entry_remove.mp entry).2
    have missing : parent ≠ rootId ∧ arena.Orphan parent := by
      by_cases same : child = id
      · subst same
        exact forgotten older
      · exact tree.whole older fun live => dead (live_remove.mpr ⟨same, live⟩)
    exact ⟨missing.1, fun q m above =>
      missing.2 q m (entry_remove.mp above).2⟩
  · intro query live
    exact tree.bounded (live_remove.mp live).2
  · intro parent name child entry
    exact tree.entryBounded (entry_remove.mp entry).2

/-- A node other than the root gets another parent pointer or name. -/
theorem reparent
    (tree : arena.TreeBut loose)
    {id : NodeId}
    {change : OvlNode → OvlNode}
    {loose' : Option NodeId}
    (notRoot : id ≠ rootId)
    (sameChildren :
      ∀ node name, (change node).getChild name = node.getChild name)
    (covered :
      ∀ {child}, loose' ≠ some child → arena.Orphan child ∨
        (child ≠ id ∧ loose ≠ some child)) :
    (arena.modify id change).TreeBut loose' := by
  have kept :
      ∀ {parent name child},
        (arena.modify id change).Entry parent name child →
          arena.Entry parent name child := by
    intro parent name child entry
    rcases entry_modify.mp entry with ⟨rfl, node, stored, found⟩ | ⟨-, entry⟩
    · exact ⟨node, stored, sameChildren node name ▸ found⟩
    · exact entry
  refine ⟨?_, ?_, ?_, ?_, ?_⟩
  · obtain ⟨root, stored, rest⟩ := tree.root
    refine ⟨root, ?_, rest⟩
    rw [get?_modify, if_neg (Ne.symm notRoot)]
    exact stored
  · intro parent name child node entry stored tight
    rcases covered tight with orphan | ⟨apart, tightBefore⟩
    · exact (orphan parent name (kept entry)).elim
    · rw [get?_modify, if_neg apart] at stored
      exact tree.linked (kept entry) stored tightBefore
  · intro parent name child entry dead
    obtain ⟨away, orphan⟩ :=
      tree.whole (kept entry) fun live => dead (live_modify.mpr live)
    exact ⟨away, fun q m above => orphan q m (kept above)⟩
  · intro query live
    exact tree.bounded (live_modify.mp live)
  · intro parent name child entry
    exact tree.entryBounded (kept entry)

/-- Nothing is loose once the loose node is an orphan. -/
theorem tighten
    (tree : arena.TreeBut loose)
    (orphan : ∀ {id}, loose = some id → arena.Orphan id) :
    arena.Tree where
  root := tree.root
  linked := by
    intro parent name child node entry stored _
    refine tree.linked entry stored fun same => ?_
    exact orphan same parent name entry
  whole := tree.whole
  bounded := tree.bounded
  entryBounded := tree.entryBounded

end TreeBut

end NodeArena

end FuseOverlay
