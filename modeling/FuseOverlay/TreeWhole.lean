import FuseOverlay.TreeInvariant

namespace FuseOverlay

/-!
# Nothing but the tree

A forest is whole when every live node is reached from the root, none of them
is hidden, and the inode table, which is consistent, lists a node under its own
key only.  Loading and looking up keep a forest whole as long as the directory
they work on is a directory: what they make hangs on it.
-/

open Act (Keeps Holds)

namespace NodeArena

/-- Every live node is reached from the root. -/
def Rooted (arena : NodeArena) : Prop :=
  ∀ id, arena.Live id → ∃ path, arena.Walk path id

/-- No live node is hidden. -/
def Shown (arena : NodeArena) : Prop :=
  ∀ id node, arena.get? id = some node → node.hidden = false

/-- The node is reached from the root past all nodes of `gone`. -/
inductive Past
    (arena : NodeArena)
    (gone : NodeId → Prop) :
    NodeId → Prop where
  | root :
      ¬ gone rootId →
      Past arena gone rootId
  | step
      {parent child : NodeId}
      {name : Name} :
      Past arena gone parent →
      arena.Entry parent name child →
      ¬ gone child →
      Past arena gone child

/-- Walks go where entries that stay lead. -/
theorem Past.walk
    {arena later : NodeArena}
    {gone : NodeId → Prop}
    (kept :
      ∀ {parent name child}, arena.Entry parent name child → ¬ gone child →
        later.Entry parent name child)
    {id : NodeId}
    (past : arena.Past gone id) :
    ∃ path, later.Walk path id := by
  induction past with
  | root _ =>
      exact ⟨[], .root⟩
  | step _ entry stays inductionHypothesis =>
      obtain ⟨path, walk⟩ := inductionHypothesis
      exact ⟨_, .step walk (kept entry stays)⟩

theorem Past.mono
    {arena later : NodeArena}
    {gone : NodeId → Prop}
    (kept :
      ∀ {parent name child}, arena.Entry parent name child → ¬ gone child →
        later.Entry parent name child)
    {id : NodeId}
    (past : arena.Past gone id) :
    later.Past gone id := by
  induction past with
  | root stays =>
      exact .root stays
  | step _ entry stays inductionHypothesis =>
      exact .step inductionHypothesis (kept entry stays) stays

/-- A walk passes live nodes only. -/
theorem Walk.past
    {arena : NodeArena}
    (tree : arena.Tree)
    {gone : NodeId → Prop}
    (dead : ∀ {id}, gone id → ¬ arena.Live id)
    {path : Path}
    {id : NodeId}
    (walk : arena.Walk path id) :
    arena.Past gone id := by
  induction walk with
  | root =>
      exact .root fun isGone => dead isGone tree.live_root
  | step before entry inductionHypothesis =>
      refine .step inductionHypothesis entry fun isGone => ?_
      exact dead isGone (before.live_child tree entry)

theorem Walk.mono
    {arena later : NodeArena}
    (kept :
      ∀ {parent name child}, arena.Entry parent name child →
        later.Entry parent name child)
    {path : Path}
    {id : NodeId}
    (walk : arena.Walk path id) :
    later.Walk path id := by
  induction walk with
  | root =>
      exact .root
  | step _ entry inductionHypothesis =>
      exact .step inductionHypothesis (kept entry)

/--
What is reached stays reached when some nodes are moved to places that are
reached and others without children are lost.
-/
theorem Walk.carry
    {arena later : NodeArena}
    {moved lost : NodeId → Prop}
    (kept :
      ∀ {parent name child}, arena.Entry parent name child → ¬ moved child →
        ¬ lost child → later.Entry parent name child)
    (placed : ∀ {child}, moved child → ∃ path, later.Walk path child)
    (childless : ∀ {id name child}, lost id → ¬ arena.Entry id name child)
    {path : Path}
    {id : NodeId}
    (walk : arena.Walk path id)
    (stays : ¬ lost id) :
    ∃ path, later.Walk path id := by
  induction walk with
  | root =>
      exact ⟨[], .root⟩
  | @step path parent child name before entry inductionHypothesis =>
      obtain ⟨above, reached⟩ :=
        inductionHypothesis fun isLost => childless isLost entry
      by_cases isMoved : moved child
      · exact placed isMoved
      · exact ⟨_, .step reached (kept entry isMoved stays)⟩

theorem Rooted.grow
    {arena later : NodeArena}
    (rooted : arena.Rooted)
    (kept :
      ∀ {parent name child}, arena.Entry parent name child →
        later.Entry parent name child)
    (added :
      ∀ {id}, later.Live id → arena.Live id ∨
        ∃ parent name, arena.Live parent ∧ later.Entry parent name id) :
    later.Rooted := by
  intro id live
  rcases added live with older | ⟨parent, name, parentLive, entry⟩
  · obtain ⟨path, walk⟩ := rooted _ older
    exact ⟨path, walk.mono kept⟩
  · obtain ⟨path, walk⟩ := rooted _ parentLive
    exact ⟨_, .step (walk.mono kept) entry⟩

theorem SameShape.rooted
    {first second : NodeArena}
    (same : SameShape first second)
    (rooted : first.Rooted) :
    second.Rooted :=
  rooted.grow same.entry fun live => .inl (same.symm.live live)

theorem SameShape.shown
    {first second : NodeArena}
    (same : SameShape first second)
    (shown : first.Shown) :
    second.Shown := by
  intro id node stored
  obtain ⟨old, oldStored, sameShape⟩ := same.symm.get?_of_get? stored
  rw [← shown _ _ oldStored]
  exact (congrArg (·.2.2.2.1) sameShape).symm

end NodeArena

namespace OvlNode

/-- The key a node is registered under. -/
def key (node : OvlNode) : InodeKey :=
  ⟨node.tmpIno, node.tmpDev⟩

@[simp] theorem key_insertChild
    (node : OvlNode)
    (name : Name)
    (child : NodeId) :
    (node.insertChild name child).key = node.key := by
  cases kind : node.dirState <;> simp [insertChild, key, kind]

@[simp] theorem key_removeChild
    (node : OvlNode)
    (name : Name) :
    (node.removeChild name).key = node.key := by
  cases kind : node.dirState <;> simp [removeChild, key, kind]

@[simp] theorem key_markUnloaded
    (node : OvlNode) :
    node.markUnloaded.key = node.key := by
  cases kind : node.dirState <;> simp [markUnloaded, key, kind]

end OvlNode

/-- A change of one node that does not hide it. -/
theorem NodeArena.Shown.modify
    {arena : NodeArena}
    (shown : arena.Shown)
    (id : NodeId)
    {change : OvlNode → OvlNode}
    (sameHidden : ∀ node, (change node).hidden = node.hidden) :
    (arena.modify id change).Shown := by
  intro query node stored
  rw [NodeArena.get?_modify] at stored
  split at stored
  · obtain ⟨old, oldStored, rfl⟩ := Option.map_eq_some_iff.mp stored
    rw [sameHidden]
    exact shown _ _ oldStored
  · exact shown _ _ stored

namespace Forest

/-- A live node is listed under its own key only. -/
def Keyed
    (nodes : NodeArena)
    (inodes : InodeTable) : Prop :=
  ∀ key entry id node, inodes.table.get? key = some entry →
    id ∈ entry.nodes → nodes.get? id = some node → node.key = key

/-- The live nodes are the tree. -/
structure Whole (forest : Forest) : Prop where
  ok : forest.Ok
  rooted : forest.nodes.Rooted
  shown : forest.nodes.Shown
  keyed : Keyed forest.nodes forest.inodes
  table : forest.inodes.Consistent

namespace Keyed

variable {nodes : NodeArena} {inodes : InodeTable}

/-- Fewer nodes are listed, and those that are keep their keys. -/
theorem shrink
    (keyed : Keyed nodes inodes)
    {nodes' : NodeArena}
    {inodes' : InodeTable}
    (listed :
      ∀ {key entry id}, inodes'.table.get? key = some entry →
        id ∈ entry.nodes → nodes'.Live id →
        ∃ old, inodes.table.get? key = some old ∧ id ∈ old.nodes)
    (keys :
      ∀ {id node}, nodes'.get? id = some node →
        (∃ key entry, inodes'.table.get? key = some entry ∧
          id ∈ entry.nodes) →
        ∃ old, nodes.get? id = some old ∧ old.key = node.key) :
    Keyed nodes' inodes' := by
  intro key entry id node stored member live
  obtain ⟨old, oldStored, oldMember⟩ := listed stored member ⟨node, live⟩
  obtain ⟨oldNode, oldLive, sameKey⟩ := keys live ⟨key, entry, stored, member⟩
  rw [← sameKey]
  exact keyed _ _ _ _ oldStored oldMember oldLive

theorem sameShape
    (keyed : Keyed nodes inodes)
    {nodes' : NodeArena}
    (same : NodeArena.SameShape nodes nodes') :
    Keyed nodes' inodes := by
  refine keyed.shrink (fun stored member _ => ⟨_, stored, member⟩) ?_
  intro id node stored _
  obtain ⟨old, oldStored, sameShape⟩ := same.symm.get?_of_get? stored
  refine ⟨old, oldStored, ?_⟩
  unfold OvlNode.key
  rw [show old.tmpIno = node.tmpIno from congrArg (·.2.2.2.2.1) sameShape,
    show old.tmpDev = node.tmpDev from congrArg (·.2.2.2.2.2) sameShape]

/-- A change of one node that keeps its key. -/
theorem modify
    (keyed : Keyed nodes inodes)
    (id : NodeId)
    {change : OvlNode → OvlNode}
    (sameKey : ∀ node, (change node).key = node.key) :
    Keyed (nodes.modify id change) inodes := by
  refine keyed.shrink (fun stored member _ => ⟨_, stored, member⟩) ?_
  intro query node stored _
  rw [NodeArena.get?_modify] at stored
  split at stored
  · next same =>
      subst same
      obtain ⟨old, oldStored, rfl⟩ := Option.map_eq_some_iff.mp stored
      exact ⟨old, oldStored, (sameKey old).symm⟩
  · exact ⟨node, stored, rfl⟩

/-- A node that is not listed yet. -/
theorem insert
    (keyed : Keyed nodes inodes)
    (listed :
      ∀ {key entry id}, inodes.table.get? key = some entry →
        id ∈ entry.nodes → id < nodes.nextId)
    (child : OvlNode) :
    Keyed (nodes.insert child).2 inodes := by
  refine keyed.shrink (fun stored member _ => ⟨_, stored, member⟩) ?_
  rintro id node stored ⟨key, entry, known, member⟩
  rw [NodeArena.get?_insert, if_neg (Nat.ne_of_lt (listed known member))]
    at stored
  exact ⟨node, stored, rfl⟩

theorem remove
    (keyed : Keyed nodes inodes)
    (id : NodeId) :
    Keyed (nodes.remove id) inodes := by
  refine keyed.shrink (fun stored member _ => ⟨_, stored, member⟩) ?_
  intro query node stored _
  rw [NodeArena.get?_remove] at stored
  split at stored
  · cases stored
  · exact ⟨node, stored, rfl⟩

/-- A node is registered under its own key. -/
theorem register
    (keyed : Keyed nodes inodes)
    {inodes' : InodeTable}
    {order : HashOrder}
    {arena : NodeArena}
    {nodeId : NodeId}
    {ino dev : UInt64}
    {mode : Mode}
    {number : UInt64}
    (registered :
      inodes.register order arena nodeId ino dev mode =
        some (number, inodes'))
    (own :
      ∀ node, nodes.get? nodeId = some node → node.key = ⟨ino, dev⟩) :
    Keyed nodes inodes' := by
  obtain ⟨others, -, changed, changedStored, members⟩ :=
    InodeTable.register_effect registered
  intro key entry id node stored member live
  by_cases same : key = ⟨ino, dev⟩
  · subst same
    rw [changedStored] at stored
    cases stored
    have source :
        id = nodeId ∨ ∃ old, inodes.table.get? ⟨ino, dev⟩ = some old ∧
          id ∈ old.nodes := by
      rcases members with ⟨alone, -⟩ | ⟨old, oldStored, kept⟩
      · rw [alone] at member
        exact .inl (List.mem_singleton.mp member)
      · rcases kept with filtered | ⟨inserted, -⟩
        · rw [filtered] at member
          exact .inr ⟨old, oldStored, (List.mem_filter.mp member).1⟩
        · rw [inserted, HashOrder.mem_insert] at member
          rcases member with isNew | isOld
          · exact .inl isNew
          · exact .inr ⟨old, oldStored, (List.mem_filter.mp isOld).1⟩
    rcases source with rfl | ⟨old, oldStored, isOld⟩
    · exact own node live
    · exact keyed _ _ _ _ oldStored isOld live
  · rw [others key same] at stored
    exact keyed _ _ _ _ stored member live

theorem narrows
    (keyed : Keyed nodes inodes)
    {inodes' : InodeTable}
    (narrows : inodes.Narrows inodes') :
    Keyed nodes inodes' := by
  intro key entry id node stored member live
  obtain ⟨old, oldStored, fewer⟩ := narrows _ _ stored
  exact keyed _ _ _ _ oldStored (fewer id member) live

end Keyed

/-- A change that the tree does not see. -/
theorem Whole.sameShape
    {forest : Forest}
    (whole : forest.Whole)
    {nodes : NodeArena}
    (same : NodeArena.SameShape forest.nodes nodes) :
    Whole ⟨nodes, forest.inodes⟩ where
  ok := (Sound.sameShape whole.ok same).ok
  rooted := same.rooted whole.rooted
  shown := same.shown whole.shown
  keyed := whole.keyed.sameShape same
  table := whole.table

/-- All children are live. -/
theorem Whole.live_child
    {forest : Forest}
    (whole : forest.Whole)
    {parent child : NodeId}
    {name : Name}
    (entry : forest.nodes.Entry parent name child) :
    forest.nodes.Live child := by
  obtain ⟨node, stored, -⟩ := id entry
  obtain ⟨path, walk⟩ := whole.rooted parent ⟨node, stored⟩
  exact walk.live_child whole.ok.tree entry

end Forest

namespace Daemon

open Syscall Whiteout

variable {env : Env}

/-! ## New nodes -/

/-- The tree is all there is, and the node is one of its directories. -/
def WholeAt
    (dir : NodeId)
    (sys : Sys) : Prop :=
  sys.forest.Whole ∧ sys.nodes.DirNode dir

theorem CalmFrom.whole
    {start : Forest}
    {sys : Sys}
    (calm : CalmFrom start sys)
    (whole : start.Whole) :
    sys.forest.Whole := by
  obtain ⟨same, sameTable⟩ := calm
  unfold Sys.forest
  rw [sameTable]
  exact whole.sameShape same

theorem Calm.whole
    {α : Type}
    {act : Daemon α}
    (calm : Calm act) :
    Keeps (fun sys => sys.forest.Whole) act :=
  fun sys whole => (calm sys.forest sys ⟨.refl _, rfl⟩).whole whole

theorem CalmFrom.wholeAt
    {start sys : Sys}
    {dir : NodeId}
    (calm : CalmFrom start.forest sys)
    (holds : WholeAt dir start) :
    WholeAt dir sys :=
  ⟨calm.whole holds.1, calm.1.dirNode holds.2⟩

theorem Calm.wholeAt
    {α : Type}
    {act : Daemon α}
    {dir : NodeId}
    (calm : Calm act) :
    Keeps (WholeAt dir) act :=
  fun sys holds => (calm sys.forest sys ⟨.refl _, rfl⟩).wholeAt holds

/-- A new node that is not in its directory yet; the rest is whole. -/
structure Pending
    (parent : NodeId)
    (name : Name)
    (key : InodeKey)
    (id : NodeId)
    (sys : Sys) : Prop where
  ok : TreeOk sys
  stored :
    ∃ node, sys.nodes.get? id = some node ∧ Candidate parent name node ∧
      node.key = key
  rooted :
    ∀ {other}, sys.nodes.Live other → other ≠ id →
      ∃ path, sys.nodes.Walk path other
  shown : sys.nodes.Shown
  keyed : Forest.Keyed sys.nodes sys.inodes
  table : sys.inodes.Consistent
  isDir : sys.nodes.DirNode parent
  apart : parent ≠ id
  absent : Absent parent name sys.forest

theorem pending_insertNode
    {parent : NodeId}
    {name : Name}
    {child : OvlNode}
    (candidate : Candidate parent name child) :
    Holds
      (fun sys => WholeAt parent sys ∧ Absent parent name sys.forest)
      (insertNode child)
      fun outcome sys =>
        ∃ id, outcome = .ok id ∧ Pending parent name child.key id sys := by
  rintro sys ⟨⟨whole, isDir⟩, absent⟩
  have bare := candidate.2.2.1
  have inserted := Forest.Sound.insert whole.ok bare
  have parentLive : sys.nodes.Live parent := by
    obtain ⟨node, stored, -⟩ := isDir
    exact ⟨node, stored⟩
  have sameEntries :
      ∀ {above label below},
        (sys.nodes.insert child).2.Entry above label below →
          sys.nodes.Entry above label below := by
    intro above label below entry
    rcases NodeArena.entry_insert.mp entry with ⟨-, isChild⟩ | ⟨-, older⟩
    · rw [bare] at isChild
      cases isChild
    · exact older
  refine ⟨sys.nodes.nextId, rfl, ?_⟩
  exact {
    ok := inserted.ok
    stored := ⟨child, (NodeArena.get?_insert ..).trans (if_pos rfl),
      candidate, rfl⟩
    rooted := by
      intro other live apart
      rcases NodeArena.live_insert.mp live with isNew | older
      · exact (apart isNew).elim
      · obtain ⟨path, walk⟩ := whole.rooted _ older
        exact ⟨path, walk.mono inserted.grown.entries⟩
    shown := by
      intro id node stored
      change (sys.nodes.insert child).2.get? id = some node at stored
      rw [NodeArena.get?_insert] at stored
      split at stored
      · cases stored
        exact candidate.2.2.2
      · exact whole.shown _ _ stored
    keyed := whole.keyed.insert whole.ok.listed child
    table := whole.table
    isDir := inserted.grown.dirs isDir
    apart := Nat.ne_of_lt (whole.ok.tree.bounded parentLive)
    absent := fun below entry => absent below (sameEntries entry) }

/-- The table may list the node under its key. -/
theorem pending_register
    {parent id : NodeId}
    {name : Name}
    {key : InodeKey}
    (mode : Mode) :
    Keeps (Pending parent name key id)
      (register env id key.ino key.dev mode) := by
  intro sys pending
  obtain ⟨node, stored, candidate, isKey⟩ := pending.stored
  have kept := @treeOkWith_register env id key.ino key.dev mode sys
    ⟨pending.ok, node, stored⟩
  unfold register at kept ⊢
  split at kept
  · exact pending
  · next number inodes registered =>
      refine { pending with
        ok := kept.1
        keyed := ?_
        table := (pending.table.register registered).1 }
      refine pending.keyed.register registered fun found foundStored => ?_
      rw [stored] at foundStored
      cases foundStored
      exact isKey

theorem pending_incLookup
    {parent id : NodeId}
    {name : Name}
    {key : InodeKey} :
    Keeps (Pending parent name key id) (incLookup key) := by
  intro sys pending
  exact { pending with
    ok := treeOk_incLookup key sys pending.ok
    keyed := pending.keyed.narrows (sys.inodes.narrows_incLookup key)
    table := pending.table.incLookup key }

/-- The node goes into its directory. -/
theorem whole_insertChild
    {parent id : NodeId}
    {name : Name}
    {key : InodeKey} :
    Holds (Pending parent name key id)
      (modifyNode parent fun node => node.insertChild name id)
      fun _ => WholeAt parent := by
  intro sys pending
  obtain ⟨node, stored, candidate, -⟩ := pending.stored
  have ok := @treeOk_insertChild parent id name sys
    ⟨pending.ok, node, stored, candidate⟩
  have kept :
      ∀ {above label below}, sys.nodes.Entry above label below →
        (sys.nodes.modify parent (·.insertChild name id)).Entry above label
          below := by
    intro above label below entry
    refine NodeArena.TreeBut.entry_attach.mpr (.inr ⟨?_, entry⟩)
    rintro ⟨rfl, rfl⟩
    exact pending.absent below entry
  have attached :
      (sys.nodes.modify parent (·.insertChild name id)).Entry parent name
        id :=
    NodeArena.TreeBut.entry_attach.mpr (.inl ⟨rfl, pending.isDir, rfl, rfl⟩)
  have parentLive : sys.nodes.Live parent := by
    obtain ⟨parentNode, parentStored, -⟩ := pending.isDir
    exact ⟨parentNode, parentStored⟩
  obtain ⟨parentPath, parentWalk⟩ := pending.rooted parentLive pending.apart
  refine ⟨⟨ok, ?_, ?_, ?_, pending.table⟩, ?_⟩
  · intro other live
    by_cases isNew : other = id
    · subst isNew
      exact ⟨_, .step (parentWalk.mono kept) attached⟩
    · obtain ⟨path, walk⟩ :=
        pending.rooted (NodeArena.live_modify.mp live) isNew
      exact ⟨path, walk.mono kept⟩
  · exact pending.shown.modify parent (by simp)
  · exact pending.keyed.modify parent (by simp)
  · exact (Forest.dirNode_insertChild).mpr pending.isDir

/-! ## Loading -/

theorem whole_insertChildNode
    {parent : NodeId}
    {name : Name}
    {child : OvlNode}
    (candidate : Candidate parent name child) :
    Holds
      (fun sys => WholeAt parent sys ∧ Absent parent name sys.forest)
      (insertChildNode parent child)
      fun _ => WholeAt parent := by
  obtain ⟨-, rfl, -, -⟩ := id candidate
  refine Holds.bind (pending_insertNode candidate) (fun childId => ?_) ?_
  · rintro sys ⟨id, same, pending⟩
    cases same
    exact Holds.bind whole_insertChild (fun _ => Keeps.pure childId)
      (fun _ _ holds => holds) sys pending
  · rintro errno sys ⟨id, same, -⟩
    cases same

/-- A calm action keeps that a name is free. -/
theorem Calm.wholeFree
    {α : Type}
    {act : Daemon α}
    {parent : NodeId}
    {name : Name}
    (calm : Calm act) :
    Keeps (fun sys => WholeAt parent sys ∧ Absent parent name sys.forest)
      act := by
  rintro sys ⟨whole, absent⟩
  obtain ⟨same, -⟩ := calm sys.forest sys ⟨.refl _, rfl⟩
  exact ⟨calm.wholeAt sys whole, fun child entry =>
    absent child (same.symm.entry entry)⟩

theorem whole_loadNewEntry
    (parentId : NodeId)
    (path : Path)
    (layerIdx : Nat)
    (entry : DirEntry) :
    Holds
      (fun sys => WholeAt parentId sys ∧
        Absent parentId entry.name sys.forest)
      (loadNewEntry env parentId path layerIdx entry)
      fun _ => WholeAt parentId := by
  have whiteout :
      ∀ name,
        Holds
          (fun sys => WholeAt parentId sys ∧
            Absent parentId entry.name sys.forest)
          (modifyNode parentId fun parent => parent.insertWhiteout name)
          fun _ => WholeAt parentId :=
    fun name sys holds =>
      (mild_insertWhiteout parentId name sys.forest sys
        ⟨.refl _, rfl⟩).wholeAt holds.1
  refine Holds.bind (Calm.lift _).wholeFree (fun whited => ?_)
    fun _ _ holds => holds.1
  split
  · exact whiteout entry.name
  · split
    · refine Holds.bind (Keeps.gets _) (fun parent => ?_)
        fun _ _ holds => holds.1
      unfold Act.runIf
      split
      · exact whiteout _
      · exact Holds.pure fun _ holds => holds.1
    · refine Holds.bind (Calm.lift _).wholeFree (fun device => ?_)
        fun _ _ holds => holds.1
      split
      · exact whiteout entry.name
      · refine Holds.bind (Calm.lift _).wholeFree (fun found => ?_)
          fun _ _ holds => holds.1
        refine Holds.bind (whole_insertChildNode
          ⟨rfl, rfl, bare_of_dirState rfl, rfl⟩) (fun _ => Keeps.pure _)
          fun _ _ holds => holds

theorem whole_loadEntry
    (parentId : NodeId)
    (path : Path)
    (layerIdx : Nat)
    (entry : DirEntry) :
    Keeps (WholeAt parentId)
      (loadEntry env parentId path layerIdx entry) := by
  unfold loadEntry
  split
  · exact Keeps.pure _
  · refine Holds.getsBind fun parent => ?_
    cases found : parent.bind (·.getChild entry.name) with
    | some existingId =>
        exact fun sys holds =>
          (calm_setLastLayer existingId layerIdx).wholeAt sys holds.1
    | none =>
        simp only
        split
        · exact Holds.pure fun _ holds => holds.1
        · rintro sys ⟨holds, rfl⟩
          refine whole_loadNewEntry parentId path layerIdx entry sys
            ⟨holds, ?_⟩
          rintro child ⟨node, stored, isChild⟩
          change sys.nodes.get? parentId = some node at stored
          rw [stored, Option.bind_some, isChild] at found
          cases found

theorem whole_loadLayer
    (parentId : NodeId)
    (path : Path)
    (lastLayerStop : Option Nat)
    (layerIdx : Nat) :
    Keeps (WholeAt parentId)
      (loadLayer env parentId path lastLayerStop layerIdx) := by
  refine Keeps.bind (Calm.lift _).wholeAt fun found => ?_
  split
  · split
    · refine Keeps.map (Keeps.bind (Calm.lift _).wholeAt fun stream => ?_)
      cases stream with
      | error errno =>
          exact Keeps.pure _
      | ok entries =>
          refine Keeps.bind (Keeps.each (fun entry =>
            whole_loadEntry parentId path layerIdx entry) entries) fun _ => ?_
          exact Keeps.bind (Calm.lift _).wholeAt fun cut => Keeps.pure _
    · exact Keeps.pure none
  all_goals exact Keeps.pure _

theorem whole_loadLayers
    (parentId : NodeId)
    (path : Path)
    (lastLayerStop : Option Nat)
    (layers : List Nat) :
    Keeps (WholeAt parentId)
      (loadLayers env parentId path lastLayerStop layers) := by
  induction layers with
  | nil =>
      exact Keeps.pure ()
  | cons layerIdx rest inductionHypothesis =>
      refine Keeps.bind
        (whole_loadLayer parentId path lastLayerStop layerIdx) fun next => ?_
      split
      · exact inductionHypothesis
      · exact Keeps.pure ()

theorem whole_loadDirImpl
    (parentId : NodeId)
    (path : Path)
    (lastLayerStop : Option Nat) :
    Keeps (WholeAt parentId)
      (loadDirImpl env parentId path lastLayerStop) :=
  Keeps.bind (whole_loadLayers parentId path lastLayerStop _) fun _ =>
    (Calm.modifyNode parentId (by simp) (by simp)).wholeAt

theorem whole_reloadDir
    (nodeId : NodeId) :
    Keeps (WholeAt nodeId) (reloadDir env nodeId) := by
  refine Keeps.bind (Keeps.gets _) fun found => ?_
  cases found with
  | none =>
      exact Keeps.pure true
  | some node =>
      simp only
      split
      · exact Keeps.pure true
      · refine Keeps.bind (Keeps.gets _) fun path => ?_
        exact Keeps.bind (whole_loadDirImpl nodeId path _) fun _ =>
          Keeps.pure true

/-- A whole forest with its root, which is a directory. -/
theorem wholeAt_root
    {sys : Sys}
    (whole : sys.forest.Whole) :
    WholeAt rootId sys := by
  obtain ⟨node, stored, -, isDir⟩ := whole.ok.tree.root
  exact ⟨whole, node, stored, isDir⟩

theorem whole_ensureRootLoaded :
    Keeps (fun sys => sys.forest.Whole) (ensureRootLoaded env) := by
  refine Keeps.bind (Keeps.gets _) fun root => ?_
  split
  · exact Keeps.pure ()
  · exact fun sys whole =>
      (whole_loadDirImpl rootId [] none sys (wholeAt_root whole)).1

/-! ## Lookup -/

/-- The table refuses no node with an error. -/
theorem pending_listNode
    {parent id : NodeId}
    {name : Name}
    {key : InodeKey}
    (test : Bool)
    (mode : Mode) :
    Holds (Pending parent name key id)
      (Act.runIf test do
        let _ ← register env id key.ino key.dev mode)
      fun outcome sys => outcome = .ok () ∧ Pending parent name key id sys := by
  intro sys pending
  have kept := @pending_register env parent id name key mode sys pending
  cases test with
  | false =>
      exact ⟨rfl, pending⟩
  | true =>
      have returns :
          ∃ number,
            register env id key.ino key.dev mode sys =
              (.ok number, (register env id key.ino key.dev mode sys).2) := by
        unfold register
        split
        · exact ⟨none, rfl⟩
        · next number _ _ => exact ⟨some number, rfl⟩
      obtain ⟨number, returned⟩ := returns
      unfold Act.runIf
      rw [if_pos rfl, Act.bind_ok returned]
      exact ⟨rfl, kept⟩

theorem whole_adoptChild
    {parentId : NodeId}
    {name : Name}
    {child : OvlNode}
    (candidate : Candidate parentId name child) :
    Holds
      (fun sys => WholeAt parentId sys ∧ Absent parentId name sys.forest)
      (adoptChild env parentId child)
      fun _ => WholeAt parentId := by
  obtain ⟨-, rfl, -, -⟩ := id candidate
  have rest :
      ∀ childId,
        Holds (Pending parentId child.name child.key childId)
          (do
            Act.runIf (child.tmpIno ≠ 0) do
              let _ ← register env childId child.tmpIno child.tmpDev
                child.mode
            modifyNode parentId (·.insertChild child.name childId)
            pure (some childId) : Daemon (Option NodeId))
          fun _ => WholeAt parentId := by
    intro childId
    have listed := @pending_listNode env parentId childId child.name
      child.key (child.tmpIno ≠ 0) child.mode
    refine Holds.bind listed (fun _ => ?_) ?_
    · rintro later ⟨-, pending⟩
      exact Holds.bind whole_insertChild (fun _ => Keeps.pure _)
        (fun _ _ holds => holds) later pending
    · rintro errno later ⟨same, -⟩
      cases same
  refine Holds.bind (pending_insertNode candidate) (fun childId => ?_) ?_
  · rintro sys ⟨id, same, pending⟩
    cases same
    exact rest childId sys pending
  · rintro errno sys ⟨id, same, -⟩
    cases same

theorem whole_doLazyLookup
    {parentId : NodeId}
    {name : Name} :
    Holds
      (fun sys => WholeAt parentId sys ∧ Absent parentId name sys.forest)
      (doLazyLookup env parentId name)
      fun _ => WholeAt parentId := by
  refine Holds.bind (Keeps.gets _) (fun found => ?_) fun _ _ holds => holds.1
  cases found with
  | none =>
      exact Holds.pure fun _ holds => holds.1
  | some parent =>
      refine Holds.bind (Keeps.gets _) (fun parentPath => ?_)
        fun _ _ holds => holds.1
      rintro sys ⟨holds, absent⟩
      have searched :=
        @lazy_lazyLayers env sys.forest parentId parentPath name
          parent.lastLayerIdx (layerIndices env) none (by simp) sys
          ⟨.refl _, rfl⟩
      rw [Act.bind_apply]
      rcases run : lazyLayers env parentId parentPath name
          parent.lastLayerIdx (layerIndices env) none sys with
        ⟨outcome, later⟩
      rw [run] at searched
      obtain ⟨calm, candidate⟩ := searched
      cases outcome with
      | error errno =>
          exact calm.wholeAt holds
      | ok child =>
          cases child with
          | none =>
              exact calm.wholeAt holds
          | some child =>
              refine whole_adoptChild (candidate child rfl) later
                ⟨calm.wholeAt holds, fun query entry => ?_⟩
              exact absent query (calm.1.symm.entry entry)

/-- The tree is all there is, and the number stands for a directory. -/
structure Heads
    (parent : UInt64)
    (sys : Sys) : Prop where
  whole : sys.forest.Whole
  isDir :
    ∀ dir, sys.forest.resolve parent = some dir → sys.nodes.DirNode dir

theorem Calm.heads
    {α : Type}
    {act : Daemon α}
    {parent : UInt64}
    (calm : Calm act) :
    Keeps (Heads parent) act := by
  intro sys heads
  obtain ⟨-, sameNumbers⟩ :=
    Still.of_calm calm sys.forest sys (.refl heads.whole.ok)
  obtain ⟨same, -⟩ := calm sys.forest sys ⟨.refl _, rfl⟩
  refine ⟨calm.whole sys heads.whole, fun dir resolved => ?_⟩
  rw [sameNumbers] at resolved
  exact same.dirNode (heads.isDir dir resolved)

theorem whole_doLookupFile
    (parent : UInt64)
    (name : Name) :
    Holds (Heads parent) (doLookupFile env parent name)
      fun _ sys => sys.forest.Whole := by
  refine Holds.getsBind fun resolved => ?_
  cases resolved with
  | none =>
      exact Holds.pure fun _ holds => holds.1.whole
  | some parentId =>
      refine Holds.getsBind fun found => ?_
      cases found with
      | none =>
          exact Holds.pure fun _ holds => holds.1.1.whole
      | some parent =>
          rintro sys ⟨⟨heads, resolved⟩, stored⟩
          simp only
          cases isChild : parent.getChild name with
          | some childId =>
              exact heads.whole
          | none =>
              simp only
              split
              · exact heads.whole
              · refine (whole_doLazyLookup sys
                  ⟨⟨heads.whole, heads.isDir parentId resolved⟩, ?_⟩).1
                rintro child ⟨node, nodeStored, nodeChild⟩
                change sys.nodes.get? parentId = some node at nodeStored
                rw [stored] at nodeStored
                cases nodeStored
                rw [isChild] at nodeChild
                cases nodeChild

/-- The number stands for the directory, and the tree is all there is. -/
structure Within
    (parent : UInt64)
    (dir : NodeId)
    (sys : Sys) : Prop where
  whole : sys.forest.Whole
  resolved : sys.forest.resolve parent = some dir
  isDir : sys.nodes.DirNode dir

theorem Within.heads
    {parent : UInt64}
    {dir : NodeId}
    {sys : Sys}
    (within : Within parent dir sys) :
    Heads parent sys := by
  refine ⟨within.whole, fun other resolved => ?_⟩
  rw [within.resolved] at resolved
  cases resolved
  exact within.isDir

theorem Still.within
    {α : Type}
    {act : Daemon α}
    {parent : UInt64}
    {dir : NodeId}
    (still : Still act)
    (whole : Keeps (fun sys => sys.forest.Whole) act) :
    Keeps (Within parent dir) act := by
  intro sys within
  obtain ⟨sound, -⟩ := still sys.forest sys (.refl within.whole.ok)
  exact ⟨whole sys within.whole,
    sound.grown.steady within.resolved within.isDir,
    sound.grown.dirs within.isDir⟩

theorem Calm.within
    {α : Type}
    {act : Daemon α}
    {parent : UInt64}
    {dir : NodeId}
    (calm : Calm act) :
    Keeps (Within parent dir) act :=
  (Still.of_calm calm).within calm.whole

/-- A directory's number keeps its meaning in lookups elsewhere. -/
theorem within_doLookupFile
    {ino : UInt64}
    {dir : NodeId}
    (parent : UInt64)
    (name : Name) :
    Holds (fun sys => Within ino dir sys ∧ Heads parent sys)
      (doLookupFile env parent name) fun _ => Within ino dir := by
  rintro sys ⟨within, heads⟩
  have looked :=
    @lookedUp_doLookupFile env sys.forest heads.whole.ok parent name sys rfl
  have grown := (looked.sound heads.whole.ok).grown
  exact ⟨whole_doLookupFile parent name sys heads,
    grown.steady within.resolved within.isDir, grown.dirs within.isDir⟩

end Daemon

end FuseOverlay
