import FuseOverlay.TreeRequests

namespace FuseOverlay

/-!
# Removing nodes

`do_rm` hides the node that it looked up, which clears the parent pointer of
the node, and then takes the name out of the directory that the parent's inode
number stands for.  The tree is right again because that directory is the only
one that can hold the hidden node.
-/

open Act (Keeps Holds)

namespace Daemon

open Syscall Whiteout

variable {env : Env}

/-! ## The node that a lookup found -/

/-- A node of the tree that only the parent's directory can hold. -/
structure Found
    (parent : UInt64)
    (name : Name)
    (id : NodeId)
    (sys : Sys) : Prop where
  ok : TreeOk sys
  live : sys.nodes.Live id
  notRoot : id ≠ rootId
  held :
    ∀ {pnode above label}, sys.forest.resolve parent = some pnode →
      sys.nodes.Entry above label id → above = pnode ∧ label = name

theorem LookedUp.found
    {start : Forest}
    {sys : Sys}
    {parent : UInt64}
    {name : Name}
    {id : NodeId}
    (ok : start.Ok)
    (looked : LookedUp start parent name (.ok (some id)) sys.forest)
    (live : sys.nodes.Live id) :
    Found parent name id sys := by
  have sound := looked.sound ok
  refine ⟨sound.ok, live, ?_, ?_⟩
  · rintro rfl
    generalize outcomeShape : Except.ok (some rootId) = outcome at looked
    generalize sys.forest = now at looked sound
    cases looked with
    | nothing empty _ =>
        exact empty rootId outcomeShape.symm
    | cached _ entry =>
        cases outcomeShape
        exact ok.tree.orphan_root (by simp) _ _ entry
    | adopted _ adopted =>
        cases outcomeShape
        have rootBound := ok.tree.bounded ok.tree.live_root
        exact Nat.not_lt_of_le adopted.fresh rootBound
  · intro pnode above label resolved entry
    have live' : sys.forest.nodes.Live id := live
    have entry' : sys.forest.nodes.Entry above label id := entry
    generalize outcomeShape : Except.ok (some id) = outcome at looked
    generalize sys.forest = now at looked sound resolved live' entry'
    cases looked with
    | nothing empty _ =>
        exact (empty id outcomeShape.symm).elim
    | cached parentResolved stored =>
        cases outcomeShape
        rw [parentResolved] at resolved
        cases resolved
        exact ok.tree.entry_inj entry' stored live' (by simp)
    | @adopted parentId _ _ parentResolved adopted =>
        cases outcomeShape
        by_cases dir : start.nodes.DirNode parentId
        · rw [sound.grown.steady parentResolved dir] at resolved
          cases resolved
          exact sound.ok.tree.entry_inj entry' (adopted.attached dir) live'
            (by simp)
        · exact (adopted.detached dir _ _ entry').elim

/-- What a lookup leaves: a right tree and, if it found a node, its place. -/
theorem found_doLookupFile
    (parent : UInt64)
    (name : Name) :
    Holds TreeOk (doLookupFile env parent name) fun outcome sys =>
      TreeOk sys ∧ ∀ id, outcome = .ok (some id) → sys.nodes.Live id →
        Found parent name id sys := by
  intro sys ok
  have looked := @lookedUp_doLookupFile env sys.forest ok parent name sys rfl
  refine ⟨(looked.sound ok).ok, fun id outcome live => ?_⟩
  rw [outcome] at looked
  exact looked.found ok live

theorem Still.found
    {α : Type}
    {act : Daemon α}
    {parent : UInt64}
    {name : Name}
    {id : NodeId}
    (still : Still act) :
    Keeps (Found parent name id) act := by
  intro sys holds
  obtain ⟨sound, steady⟩ := still sys.forest sys (.refl holds.ok)
  refine ⟨sound.ok, sound.grown.live holds.live, holds.notRoot, ?_⟩
  intro pnode above label resolved entry
  rw [steady] at resolved
  rcases sound.grown.fresh entry with older | ⟨-, new⟩
  · exact holds.held resolved older
  · exact (Nat.not_lt_of_le new (holds.ok.tree.bounded holds.live)).elim

/-! ## Hiding -/

/-- Only one directory can hold the node, and only under one name. -/
structure Sole
    (pnode : NodeId)
    (name : Name)
    (id : NodeId)
    (sys : Sys) : Prop where
  ok : TreeOk sys
  notRoot : id ≠ rootId
  held :
    ∀ {above label}, sys.nodes.Entry above label id →
      above = pnode ∧ label = name

theorem Calm.sole
    {α : Type}
    {act : Daemon α}
    {pnode id : NodeId}
    {name : Name}
    (calm : Calm act) :
    Keeps (Sole pnode name id) act := by
  intro sys holds
  obtain ⟨same, -⟩ := calm sys.forest sys ⟨.refl _, rfl⟩
  exact ⟨calm.treeOk sys holds.ok, holds.notRoot,
    fun entry => holds.held (same.symm.entry entry)⟩

/-- The node is hidden: the tree agrees but for it. -/
structure Loosened
    (pnode : NodeId)
    (name : Name)
    (id : NodeId)
    (sys : Sys) : Prop where
  tree : sys.nodes.TreeBut (some id)
  listed :
    ∀ {key entry node}, sys.inodes.table.get? key = some entry →
      node ∈ entry.nodes → node < sys.nodes.nextId
  notRoot : id ≠ rootId
  held :
    ∀ {above label}, sys.nodes.Entry above label id →
      above = pnode ∧ label = name

theorem Sole.hiddenAs
    {pnode id : NodeId}
    {name : Name}
    {sys : Sys}
    (sole : Sole pnode name id sys)
    (wd : Name) :
    Loosened pnode name id
      { sys with nodes := sys.nodes.modify id (hiddenAs wd) } where
  tree := by
    have tree : sys.nodes.TreeBut none := sole.ok.tree
    refine tree.reparent sole.notRoot (fun _ _ => rfl) fun {child} apart => ?_
    exact .inr ⟨fun same => apart (same ▸ rfl), by simp⟩
  listed := sole.ok.listed
  notRoot := sole.notRoot
  held := by
    intro above label entry
    have sameEntries :
        (sys.nodes.modify id (Daemon.hiddenAs wd)).Entry above label id ↔
          sys.nodes.Entry above label id :=
      NodeArena.entry_modify_of_children fun _ _ => rfl
    exact sole.held (sameEntries.mp entry)

/-- A change that the tree does not see. -/
theorem Loosened.sameShape
    {pnode id : NodeId}
    {name : Name}
    {sys : Sys}
    {nodes : NodeArena}
    (holds : Loosened pnode name id sys)
    (same : NodeArena.SameShape sys.nodes nodes) :
    Loosened pnode name id { sys with nodes := nodes } where
  tree := same.treeBut holds.tree
  listed := fun stored member => by
    have bound := holds.listed stored member
    rw [← same.nextId] at bound
    exact bound
  notRoot := holds.notRoot
  held := fun entry => holds.held (same.symm.entry entry)

/-- `hide_node` fails and leaves the tree alone, or hides the node. -/
theorem loosened_hideNode
    {pnode id : NodeId}
    {name : Name}
    {unlinkSrc : Bool} :
    Holds (Sole pnode name id) (hideNode env id unlinkSrc)
      fun outcome sys =>
        (∃ errno, outcome = .error errno ∧ TreeOk sys) ∨
          outcome = .ok () ∧ Loosened pnode name id sys := by
  have early :
      ∀ errno sys, Sole pnode name id sys →
        (∃ errno', (Except.error errno : Except Errno Unit) = .error errno' ∧
          TreeOk sys) ∨
        (Except.error errno : Except Errno Unit) = .ok () ∧
          Loosened pnode name id sys :=
    fun errno sys holds => .inl ⟨errno, rfl, holds.ok⟩
  refine Holds.bind (Calm.check _ _).sole (fun _ => ?_) early
  refine Holds.bind (Calm.lift _).sole (fun wd => ?_) early
  refine Holds.bind (Calm.runIf ?_).sole (fun _ => ?_) early
  · refine .bind (.nodePath id) fun path => ?_
    refine .bind (.node id) fun found => ?_
    refine .bind (.gets _) fun whited => ?_
    exact .bind (.gets _) fun parentPath => .lift _
  · refine node_bind (fun found => ?_) fun sys holds => early _ sys holds
    rintro sys ⟨sole, -⟩
    have hidden := sole.hiddenAs wd
    refine .inr ?_
    cases found.parent with
    | none =>
        exact ⟨rfl, hidden⟩
    | some parentId =>
        exact ⟨rfl, hidden.sameShape (.modify _ parentId (by simp))⟩

/-! ## Taking a node out of the tree -/

theorem treeOk_removeNodeId
    {sys : Sys}
    (ok : TreeOk sys)
    (key : InodeKey)
    (id : NodeId) :
    TreeOk { sys with inodes := sys.inodes.removeNodeId key id } :=
  treeOk_of_narrows ok (sys.inodes.narrows_removeNodeId key id)

theorem calm_dropNode
    (node : OvlNode) :
    Calm (dropNode node) := by
  unfold dropNode
  cases node.hiddenPath with
  | none =>
      exact .pure ()
  | some name =>
      refine .bind (.runIf ?_) fun _ => .runIf ?_
      · exact .bind (.lift _) fun _ => .pure ()
      · exact .bind (.lift _) fun _ => .pure ()

/-- A node that nobody holds leaves the arena. -/
theorem treeOk_removeNode
    {id : NodeId} :
    Holds
      (fun sys => TreeOk sys ∧ id ≠ rootId ∧
        ∀ {above label}, sys.nodes.Entry above label id →
          above ≠ rootId ∧ sys.nodes.Orphan above)
      (removeNode id)
      fun _ => TreeOk := by
  refine Holds.getsBind fun found => ?_
  cases found with
  | none =>
      exact Holds.pure fun _ holds => holds.1.1
  | some node =>
      refine Holds.modifyBind _ ?_ (calm_dropNode node).treeOk
      rintro sys ⟨⟨ok, notRoot, forgotten⟩, -⟩
      exact ⟨ok.tree.remove notRoot forgotten, ok.listed⟩

/-- The tree is right once the parent's directory has lost the name. -/
theorem Loosened.detach
    {pnode id : NodeId}
    {name : Name}
    {sys : Sys}
    (holds : Loosened pnode name id sys) :
    TreeOk { sys with nodes := sys.nodes.modify pnode (·.removeChild name) } :=
    by
  refine ⟨(holds.tree.detach pnode name).tighten ?_, holds.listed⟩
  rintro same ⟨⟩ above label entry
  obtain ⟨apart, older⟩ := NodeArena.TreeBut.entry_detach.mp entry
  exact apart (holds.held older)

/-- Whatever the name led to hangs nowhere else. -/
theorem Loosened.only
    {pnode id removed above : NodeId}
    {name label : Name}
    {sys : Sys}
    (holds : Loosened pnode name id sys)
    (entry : sys.nodes.Entry pnode name removed)
    (live : sys.nodes.Live removed)
    (other : sys.nodes.Entry above label removed) :
    above = pnode ∧ label = name := by
  by_cases same : id = removed
  · subst same
    exact holds.held other
  · exact holds.tree.entry_inj other entry live fun loose =>
      same (Option.some.inj loose)

theorem Loosened.removed_notRoot
    {pnode id removed : NodeId}
    {name : Name}
    {sys : Sys}
    (holds : Loosened pnode name id sys)
    (entry : sys.nodes.Entry pnode name removed) :
    removed ≠ rootId := by
  rintro rfl
  refine holds.tree.orphan_root (fun loose => ?_) pnode name entry
  exact holds.notRoot (Option.some.inj loose)

theorem treeOk_removeFromTree
    {pnode id : NodeId}
    {name : Name} :
    Holds (Loosened pnode name id) (removeFromTree pnode name)
      fun _ => TreeOk := by
  refine Holds.getsBind fun parent => ?_
  cases child : parent.bind (·.getChild name) with
  | none =>
      refine Holds.pure ?_
      rintro sys ⟨holds, stored⟩
      refine ⟨holds.tree.tighten ?_, holds.listed⟩
      rintro same ⟨⟩ above label entry
      obtain ⟨rfl, rfl⟩ := holds.held entry
      obtain ⟨node, nodeStored, isChild⟩ := entry
      rw [← stored, nodeStored, Option.bind_some, isChild] at child
      cases child
  | some removed =>
      rintro sys ⟨holds, stored⟩
      have entry : sys.nodes.Entry pnode name removed := by
        rw [← stored] at child
        exact Option.bind_eq_some_iff.mp child
      have detached := holds.detach
      have gone :
          ∀ {above label}, sys.nodes.Live removed →
            ¬ (sys.nodes.modify pnode (·.removeChild name)).Entry above label
              removed := by
        intro above label live other
        obtain ⟨apart, older⟩ := NodeArena.TreeBut.entry_detach.mp other
        exact apart (holds.only entry live older)
      refine (?_ : Holds (fun now => now = sys) _ fun _ => TreeOk) sys rfl
      refine Holds.modifyBind
        (fun now => now =
          { sys with nodes := sys.nodes.modify pnode (·.removeChild name) })
        (fun now same => by rw [same]) ?_
      refine Holds.getsBind fun found => ?_
      cases found with
      | none =>
          refine Holds.pure ?_
          rintro later ⟨rfl, -⟩
          exact detached
      | some node =>
          refine Holds.modifyBind _ ?_ treeOk_removeNode
          rintro later ⟨rfl, liveNow⟩
          refine ⟨treeOk_removeNodeId detached _ _,
            holds.removed_notRoot entry, fun other => ?_⟩
          have live : sys.nodes.Live removed :=
            NodeArena.live_modify.mp ⟨node, liveNow⟩
          exact (gone live other).elim

/-! ## The requests -/

theorem still_checkEmpty
    (id : NodeId) :
    Still (checkEmpty env id) := by
  refine .bind (still_reloadDir id) fun _ => ?_
  exact .bind (.of_calm (.gets _)) fun _ => .of_calm (.check _ _)

theorem treeOk_doRm
    (parent : UInt64)
    (name : Name)
    (isDir : Bool) :
    Keeps TreeOk (doRm env parent name isDir) := by
  refine Holds.bind (found_doLookupFile parent name) (fun found => ?_)
    fun _ _ holds => holds.1
  refine presentOr_bind (fun nodeId isFound => ?_) fun _ holds => holds.1
  have rest :
      Holds (Found parent name nodeId) (do
        Act.runIf isDir (checkEmpty env nodeId)
        getNodeUp env nodeId
        let pnodeId ← Act.orFail (← resolveIno parent) .ENOENT
        getNodeUp env pnodeId
        hideNode env nodeId true
        removeFromTree pnodeId name
        pure .ok : Daemon Reply)
        fun _ => TreeOk := by
    refine Holds.bind (still_checkEmpty nodeId).runIf.found (fun _ => ?_)
      fun _ _ holds => holds.ok
    refine Holds.bind (Still.of_calm (calm_getNodeUp nodeId)).found
      (fun _ => ?_) fun _ _ holds => holds.ok
    refine Holds.getsBind fun resolved => ?_
    cases resolved with
    | none =>
        exact fun _ holds => holds.1.ok
    | some pnodeId =>
        have sole :
            Holds (Sole pnodeId name nodeId) (do
              getNodeUp env pnodeId
              hideNode env nodeId true
              removeFromTree pnodeId name
              pure .ok : Daemon Reply)
              fun _ => TreeOk := by
          refine Holds.bind (calm_getNodeUp pnodeId).sole (fun _ => ?_)
            fun _ _ holds => holds.ok
          refine Holds.bind loosened_hideNode (fun _ => ?_) ?_
          · rintro sys (⟨errno, same, -⟩ | ⟨-, loosened⟩)
            · cases same
            · exact Holds.bind treeOk_removeFromTree
                (fun _ => Keeps.pure _) (fun _ _ ok => ok) sys loosened
          · rintro errno sys (⟨-, -, ok⟩ | ⟨same, -⟩)
            · exact ok
            · cases same
        exact fun sys holds =>
          sole sys ⟨holds.1.ok, holds.1.notRoot, holds.1.held holds.2⟩
  rintro sys ⟨⟨ok, holds⟩, live⟩
  exact rest sys (holds nodeId (congrArg _ isFound) live)

end Daemon

end FuseOverlay
