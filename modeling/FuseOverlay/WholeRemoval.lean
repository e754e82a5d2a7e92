import FuseOverlay.WholeRequests

namespace FuseOverlay

/-!
# Removals that keep the tree whole

A node that leaves the tree leaves the arena.  Nothing is left behind as long
as it has no children: `rmdir` tests that itself, and `unlink` is for nodes
that are no directories.
-/

open Act (Keeps Holds)

namespace NodeArena

/-- The entries after a child has been dropped. -/
theorem entry_drop
    {arena : NodeArena}
    {pnode id above below : NodeId}
    {name label : Name} :
    ((arena.modify pnode (·.removeChild name)).remove id).Entry above label
        below ↔
      above ≠ id ∧ ¬ (above = pnode ∧ label = name) ∧
        arena.Entry above label below := by
  rw [entry_remove, TreeBut.entry_detach]

/-- Dropping a child without children leaves the others where they are. -/
theorem Rooted.drop
    {arena : NodeArena}
    {pnode id : NodeId}
    {name : Name}
    (rooted : arena.Rooted)
    (entry : arena.Entry pnode name id)
    (childless : ∀ label below, ¬ arena.Entry id label below) :
    ((arena.modify pnode (·.removeChild name)).remove id).Rooted := by
  intro other live
  obtain ⟨apart, earlier⟩ := live_remove.mp live
  obtain ⟨path, walk⟩ := rooted other (live_modify.mp earlier)
  have kept :
      ∀ {above label below}, arena.Entry above label below → ¬ False →
        ¬ below = id →
        ((arena.modify pnode (·.removeChild name)).remove id).Entry above
          label below := by
    intro above label below older _ stays
    refine entry_drop.mpr ⟨?_, ?_, older⟩
    · intro same
      subst same
      exact childless label below older
    · intro same
      obtain ⟨rfl, rfl⟩ := same
      exact stays (older.unique entry)
  have nothingMoved :
      ∀ {child : NodeId}, False →
        ∃ path, ((arena.modify pnode (·.removeChild name)).remove id).Walk path
          child :=
    fun impossible => impossible.elim
  refine walk.carry kept nothingMoved ?_ apart
  intro above label below same
  subst same
  exact childless label below

end NodeArena

namespace Forest

/-- The tree is all there is, and only the node may be hidden. -/
structure WholeBut
    (id : NodeId)
    (forest : Forest) : Prop where
  rooted : forest.nodes.Rooted
  shown :
    ∀ other node, forest.nodes.get? other = some node → other ≠ id →
      node.hidden = false
  keyed : Keyed forest.nodes forest.inodes
  table : forest.inodes.Consistent

theorem Whole.but
    {forest : Forest}
    (whole : forest.Whole)
    (id : NodeId) :
    WholeBut id forest where
  rooted := whole.rooted
  shown := fun other node stored _ => whole.shown other node stored
  keyed := whole.keyed
  table := whole.table

/-- Without the node the forest is whole. -/
theorem WholeBut.drop
    {forest : Forest}
    {pnode id : NodeId}
    {name : Name}
    {inodes : InodeTable}
    (but : WholeBut id forest)
    (entry : forest.nodes.Entry pnode name id)
    (childless : Daemon.Childless id forest)
    (narrows : forest.inodes.Narrows inodes)
    (table : inodes.Consistent)
    (ok :
      Ok ⟨(forest.nodes.modify pnode (·.removeChild name)).remove id,
        inodes⟩) :
    Whole ⟨(forest.nodes.modify pnode (·.removeChild name)).remove id,
      inodes⟩ where
  ok := ok
  rooted := but.rooted.drop entry childless
  shown := by
    intro other node stored
    change ((forest.nodes.modify pnode _).remove id).get? other = _ at stored
    rw [NodeArena.get?_remove] at stored
    split at stored
    · cases stored
    · next apart =>
        rw [NodeArena.get?_modify] at stored
        split at stored
        · next same =>
            subst same
            obtain ⟨old, oldStored, rfl⟩ := Option.map_eq_some_iff.mp stored
            rw [OvlNode.hidden_removeChild]
            exact but.shown other old oldStored apart
        · exact but.shown other node stored apart
  keyed := by
    have detached :=
      but.keyed.modify pnode (OvlNode.key_removeChild · name)
    exact (detached.remove id).narrows narrows
  table := table

end Forest

namespace Daemon

open Syscall Whiteout

variable {env : Env}

/-! ## The node to remove -/

/-- A node in a directory, without children of its own. -/
structure Doomed
    (parent : UInt64)
    (pnode : NodeId)
    (name : Name)
    (id : NodeId)
    (sys : Sys) : Prop where
  placed : Placed parent pnode name id sys
  childless : Childless id sys.forest

theorem Calm.doomed
    {α : Type}
    {act : Daemon α}
    {parent : UInt64}
    {pnode id : NodeId}
    {name : Name}
    (calm : Calm act) :
    Keeps (Doomed parent pnode name id) act := by
  intro sys doomed
  obtain ⟨same, -⟩ := calm sys.forest sys ⟨.refl _, rfl⟩
  exact ⟨calm.placed sys doomed.placed, fun label below entry =>
    doomed.childless label below (same.symm.entry entry)⟩

/-- What is no directory has no children. -/
theorem childless_of_not_dir
    {id : NodeId}
    {forest : Forest}
    (noDir : ¬ forest.nodes.DirNode id) :
    Childless id forest :=
  fun _ _ entry => noDir entry.dirNode

/-- A child is listed, live and not hidden. -/
theorem child_shown
    {id below : NodeId}
    {label : Name}
    {sys : Sys}
    (whole : TreeWhole sys)
    (entry : sys.nodes.Entry id label below) :
    ∃ children child,
      (sys.nodes.get? id).bind OvlNode.children = some children ∧
        (label, below) ∈ children.toList ∧
        sys.nodes.get? below = some child ∧ child.hidden = false := by
  obtain ⟨child, live⟩ := whole.live_child entry
  obtain ⟨node, stored, isChild⟩ := entry
  rw [OvlNode.getChild_eq] at isChild
  obtain ⟨children, isChildren, listed⟩ := Option.bind_eq_some_iff.mp isChild
  refine ⟨children, child, ?_, FMap.mem_toList_iff.mpr listed, live,
    whole.shown below child live⟩
  rw [stored]
  exact isChildren

/-- An empty directory has no children: nothing in the tree is hidden. -/
theorem childless_of_isEmptyNode
    {id : NodeId}
    {sys : Sys}
    (whole : TreeWhole sys)
    (empty : isEmptyNode sys.nodes id = true) :
    Childless id sys.forest := by
  intro label below entry
  obtain ⟨children, child, isChildren, listed, live, shown⟩ :=
    child_shown whole entry
  unfold isEmptyNode at empty
  rw [isChildren] at empty
  have gone := List.all_eq_true.mp empty (label, below) listed
  simp only [live, Option.map_some, Option.getD_some, shown] at gone
  cases gone

theorem doomed_checkEmpty
    {parent : UInt64}
    {pnode id : NodeId}
    {name : Name} :
    Holds
      (fun sys => Placed parent pnode name id sys ∧ sys.nodes.DirNode id)
      (checkEmpty env id)
      fun outcome sys => TreeWhole sys ∧
        (outcome = .ok () → Doomed parent pnode name id sys) := by
  have loads :
      Holds
        (fun sys => Placed parent pnode name id sys ∧ sys.nodes.DirNode id)
        (reloadDir env id) fun _ => Placed parent pnode name id := by
    intro sys holds
    have whole := @whole_reloadDir env id sys
      ⟨holds.1.within.whole, holds.2⟩
    exact (still_reloadDir id).placed holds.1 whole.1
  refine Holds.bind loads (fun _ => ?_)
    fun _ _ placed => ⟨placed.within.whole, fun same => by cases same⟩
  refine Holds.getsBind fun empty => ?_
  intro sys holds
  obtain ⟨placed, isEmpty⟩ := holds
  cases empty with
  | false =>
      exact ⟨placed.within.whole, fun same => by cases same⟩
  | true =>
      exact ⟨placed.within.whole, fun _ => ⟨placed,
        childless_of_isEmptyNode placed.within.whole isEmpty⟩⟩

/-! ## Taking it out -/

/-- The node is hidden, but still in its directory. -/
structure Hidden
    (pnode : NodeId)
    (name : Name)
    (id : NodeId)
    (sys : Sys) : Prop where
  but : sys.forest.WholeBut id
  entry : sys.nodes.Entry pnode name id
  live : sys.nodes.Live id
  childless : Childless id sys.forest

theorem Doomed.hidden
    {parent : UInt64}
    {pnode id : NodeId}
    {name : Name}
    {sys : Sys}
    (doomed : Doomed parent pnode name id sys) :
    Hidden pnode name id sys where
  but := doomed.placed.within.whole.but id
  entry := doomed.placed.entry
  live := doomed.placed.within.whole.live_child doomed.placed.entry
  childless := doomed.childless

/-- A change of the node that keeps its children and its key. -/
theorem Hidden.change
    {pnode id : NodeId}
    {name : Name}
    {sys : Sys}
    (hidden : Hidden pnode name id sys)
    {change : OvlNode → OvlNode}
    (sameChildren :
      ∀ node label, (change node).getChild label = node.getChild label)
    (sameKey : ∀ node, (change node).key = node.key) :
    Hidden pnode name id
      { sys with nodes := sys.nodes.modify id change } := by
  have sameEntries :
      ∀ {above label below},
        (sys.nodes.modify id change).Entry above label below ↔
          sys.nodes.Entry above label below :=
    NodeArena.entry_modify_of_children sameChildren
  refine ⟨⟨?_, ?_, ?_, hidden.but.table⟩, sameEntries.mpr hidden.entry,
    NodeArena.live_modify.mpr hidden.live, ?_⟩
  · intro other live
    obtain ⟨path, walk⟩ :=
      hidden.but.rooted other (NodeArena.live_modify.mp live)
    exact ⟨path, walk.mono sameEntries.mpr⟩
  · intro other node stored apart
    change (sys.nodes.modify id change).get? other = some node at stored
    rw [NodeArena.get?_modify, if_neg apart] at stored
    exact hidden.but.shown other node stored apart
  · exact hidden.but.keyed.modify id sameKey
  · exact fun label below entry =>
      hidden.childless label below (sameEntries.mp entry)

/-- A change that the tree does not see. -/
theorem Hidden.sameShape
    {pnode id : NodeId}
    {name : Name}
    {sys : Sys}
    {nodes : NodeArena}
    (hidden : Hidden pnode name id sys)
    (same : NodeArena.SameShape sys.nodes nodes) :
    Hidden pnode name id { sys with nodes := nodes } := by
  refine ⟨⟨same.rooted hidden.but.rooted, ?_,
    hidden.but.keyed.sameShape same, hidden.but.table⟩,
    same.entry hidden.entry, same.live hidden.live, ?_⟩
  · intro other node stored apart
    obtain ⟨old, oldStored, sameShape⟩ := same.symm.get?_of_get? stored
    rw [← hidden.but.shown other old oldStored apart]
    exact (congrArg (·.2.2.2.1) sameShape).symm
  · exact fun label below entry =>
      hidden.childless label below (same.symm.entry entry)

theorem hidden_hideNode
    {parent : UInt64}
    {pnode id : NodeId}
    {name : Name}
    {unlinkSrc : Bool} :
    Holds (Doomed parent pnode name id) (hideNode env id unlinkSrc)
      fun outcome sys =>
        (∃ errno, outcome = .error errno ∧ TreeWhole sys) ∨
          outcome = .ok () ∧ Hidden pnode name id sys := by
  have early :
      ∀ errno sys, Doomed parent pnode name id sys →
        (∃ errno', (Except.error errno : Except Errno Unit) = .error errno' ∧
          TreeWhole sys) ∨
        (Except.error errno : Except Errno Unit) = .ok () ∧
          Hidden pnode name id sys :=
    fun errno sys doomed => .inl ⟨errno, rfl, doomed.placed.within.whole⟩
  refine Holds.bind (Calm.check _ _).doomed (fun _ => ?_) early
  refine Holds.bind (Calm.lift _).doomed (fun wd => ?_) early
  refine Holds.bind (Calm.runIf ?_).doomed (fun _ => ?_) early
  · refine .bind (.nodePath id) fun path => ?_
    refine .bind (.node id) fun found => ?_
    refine .bind (.gets _) fun whited => ?_
    exact .bind (.gets _) fun parentPath => .lift _
  · refine node_bind (fun found => ?_) fun sys doomed => early _ sys doomed
    intro sys holds
    have hidden := @Hidden.change pnode id name sys holds.1.hidden
      (hiddenAs wd) (fun _ _ => rfl) fun _ => rfl
    refine .inr ?_
    cases found.parent with
    | none =>
        exact ⟨rfl, hidden⟩
    | some parentId =>
        exact ⟨rfl, hidden.sameShape (.modify _ parentId (by simp))⟩

/-- Removing a live node takes it out of the arena. -/
theorem forest_removeNode
    {sys : Sys}
    {id : NodeId}
    (live : sys.nodes.Live id) :
    (removeNode id sys).2.forest = ⟨sys.nodes.remove id, sys.inodes⟩ := by
  have drops :
      ∀ (node : OvlNode) (now : Forest),
        Keeps (fun sys => sys.forest = now) (dropNode node) := by
    intro node now
    unfold dropNode
    cases node.hiddenPath with
    | none =>
        exact Keeps.pure ()
    | some wd =>
        have unlinks :
            ∀ isDir, Keeps (fun sys => sys.forest = now) (do
              let _ ← (unlinkat ⟨.workdir, []⟩ wd isDir).attempt :
                Daemon Unit) :=
          fun isDir => Keeps.bind (keeps_lift (· = now) _) fun _ =>
            Keeps.pure ()
        exact Keeps.bind (Keeps.runIf (unlinks false)) fun _ =>
          Keeps.runIf (unlinks true)
  obtain ⟨node, stored⟩ := live
  have read : getNode id sys = (.ok (some node), sys) := by
    rw [← stored]
    rfl
  unfold removeNode
  rw [Act.bind_ok read]
  exact drops node _ { sys with nodes := sys.nodes.remove id } rfl

theorem treeWhole_removeFromTree
    {pnode id : NodeId}
    {name : Name} :
    Holds (Hidden pnode name id) (removeFromTree pnode name)
      fun _ sys => TreeOk sys → TreeWhole sys := by
  intro sys hidden
  obtain ⟨parent, stored, isChild⟩ := hidden.entry
  have read : getNode pnode sys = (.ok (some parent), sys) := by
    rw [← stored]
    rfl
  obtain ⟨removed, removedStored⟩ :=
    (@NodeArena.live_modify sys.nodes pnode id (·.removeChild name)).mpr
      hidden.live
  unfold removeFromTree
  rw [Act.bind_ok read, Option.bind_some, isChild]
  refine (?_ : Holds (fun now => now = sys) _
    fun _ now => TreeOk now → TreeWhole now) sys rfl
  refine Holds.modifyBind
    (fun now => now =
      { sys with nodes := sys.nodes.modify pnode (·.removeChild name) })
    (fun now same => by rw [same]) ?_
  refine Holds.getsBind fun found => ?_
  intro now holds
  obtain ⟨rfl, same⟩ := holds
  rw [removedStored] at same
  subst same
  have drops := @forest_removeNode
    { sys with
      nodes := sys.nodes.modify pnode (·.removeChild name)
      inodes :=
        sys.inodes.removeNodeId ⟨removed.tmpIno, removed.tmpDev⟩ id }
    id ⟨removed, removedStored⟩
  intro ok
  have final : Forest.Ok _ := ok
  refine Eq.mpr (congrArg Forest.Whole drops) ?_
  exact hidden.but.drop hidden.entry hidden.childless
    (sys.inodes.narrows_removeNodeId _ _)
    (hidden.but.table.removeNodeId _ _)
    (Eq.mp (congrArg Forest.Ok drops) final)

/-- From the node without children to the end of the request. -/
theorem treeWhole_removeDoomed
    {parent : UInt64}
    {pnode id : NodeId}
    {name : Name} :
    Holds (Doomed parent pnode name id) (do
      getNodeUp env id
      let pnodeId ← Act.orFail (← resolveIno parent) .ENOENT
      getNodeUp env pnodeId
      hideNode env id true
      removeFromTree pnodeId name
      pure .ok : Daemon Reply)
      fun _ sys => TreeOk sys → TreeWhole sys := by
  have early :
      ∀ (errno : Errno) sys, Doomed parent pnode name id sys →
        TreeOk sys → TreeWhole sys :=
    fun _ _ doomed _ => doomed.placed.within.whole
  refine Holds.bind (calm_getNodeUp id).doomed (fun _ => ?_) early
  refine Holds.getsBind fun resolved => ?_
  intro sys holds
  obtain ⟨doomed, same⟩ := holds
  have isParent : resolved = some pnode :=
    same.symm.trans doomed.placed.within.resolved
  subst isParent
  have rest :
      Holds (Doomed parent pnode name id) (do
        getNodeUp env pnode
        hideNode env id true
        removeFromTree pnode name
        pure .ok : Daemon Reply)
        fun _ sys => TreeOk sys → TreeWhole sys := by
    refine Holds.bind (calm_getNodeUp pnode).doomed (fun _ => ?_) early
    refine Holds.bind hidden_hideNode (fun _ => ?_) ?_
    · intro now holds
      obtain ⟨errno, failed, -⟩ | ⟨-, hidden⟩ := holds
      · cases failed
      · exact Holds.bind treeWhole_removeFromTree (fun _ => Keeps.pure _)
          (fun _ _ whole => whole) now hidden
    · intro errno now holds _
      obtain ⟨-, -, whole⟩ | ⟨failed, -⟩ := holds
      · exact whole
      · cases failed
  exact rest sys doomed

theorem treeWhole_removePlaced
    {parent : UInt64}
    {pnode id : NodeId}
    {name : Name}
    {isDir : Bool} :
    Holds
      (fun sys => Placed parent pnode name id sys ∧
        (sys.nodes.DirNode id ↔ isDir = true))
      (do
        Act.runIf isDir (checkEmpty env id)
        getNodeUp env id
        let pnodeId ← Act.orFail (← resolveIno parent) .ENOENT
        getNodeUp env pnodeId
        hideNode env id true
        removeFromTree pnodeId name
        pure .ok : Daemon Reply)
      fun _ sys => TreeOk sys → TreeWhole sys := by
  have empties :
      Holds
        (fun sys => Placed parent pnode name id sys ∧
          (sys.nodes.DirNode id ↔ isDir = true))
        (Act.runIf isDir (checkEmpty env id))
        fun outcome sys => TreeWhole sys ∧
          (outcome = .ok () → Doomed parent pnode name id sys) := by
    intro sys holds
    obtain ⟨placed, kind⟩ := holds
    cases isDir with
    | true =>
        exact doomed_checkEmpty sys ⟨placed, kind.mpr rfl⟩
    | false =>
        refine ⟨placed.within.whole, fun _ => ⟨placed, ?_⟩⟩
        exact childless_of_not_dir fun dir => by cases kind.mp dir
  refine Holds.bind empties (fun _ => ?_) fun _ _ holds _ => holds.1
  exact fun sys holds => treeWhole_removeDoomed sys (holds.2 rfl)

/--
A removal keeps the tree whole: `unlink` of something that is no directory, or
`rmdir` of a directory.
-/
theorem treeWhole_doRm
    {parent : UInt64}
    {name : Name}
    {isDir : Bool}
    {sys : Sys}
    (heads : Heads parent sys)
    (kind :
      ∀ id later, doLookupFile env parent name sys = (.ok (some id), later) →
        (later.nodes.DirNode id ↔ isDir = true)) :
    TreeWhole (doRm env parent name isDir sys).2 := by
  have ok := @treeOk_doRm env parent name isDir sys heads.whole.ok
  have looked := @placed_doLookupFile env parent name sys heads
  revert ok
  unfold doRm
  rcases run : doLookupFile env parent name sys with ⟨outcome, later⟩
  rw [run] at looked
  obtain ⟨whole, places⟩ := looked
  cases outcome with
  | error errno =>
      rw [Act.bind_error run]
      exact fun _ => whole
  | ok found =>
      rw [Act.bind_ok run]
      cases found with
      | none =>
          exact fun _ => whole
      | some id =>
          obtain ⟨pnode, placed⟩ := places id rfl
          have live : later.nodes.containsKey id = true :=
            NodeArena.containsKey_iff.mpr (whole.live_child placed.entry)
          have found := presentOr_apply id .ENOENT later
          rw [if_pos live] at found
          rw [Act.bind_ok found]
          exact treeWhole_removePlaced later ⟨placed, kind id later run⟩

end Daemon

end FuseOverlay
