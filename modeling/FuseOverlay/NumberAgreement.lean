import FuseOverlay.Sample
import FuseOverlay.WholeRename

namespace FuseOverlay

/-!
# Numbers and names lead to the same node

`lookup` replies the number of the child's key, and `lookup_node_id` returns
the first live node of that number.  In a whole forest that node is in the
tree, and it is the child itself if no other live node has the child's key.
`REFRESH_DIR` breaks this: it drops a directory's children without removing
them, so that their numbers still lead to nodes outside the tree.
-/

open Act (Keeps Holds)

namespace NodeArena

/--
The node is the child of its own parent under its own name, and so is every
node on the way up to the root.
-/
inductive Attached (arena : NodeArena) : NodeId → Prop where
  | root : Attached arena rootId
  | child
      {id parent : NodeId}
      {node : OvlNode} :
      arena.get? id = some node →
      node.parent = some parent →
      arena.Entry parent node.name id →
      Attached arena parent →
      Attached arena id

theorem Walk.attached
    {arena : NodeArena}
    (tree : arena.Tree)
    {path : Path}
    {id : NodeId}
    (walk : arena.Walk path id) :
    arena.Attached id := by
  induction walk with
  | root =>
      exact .root
  | step before entry inductionHypothesis =>
      obtain ⟨node, stored⟩ := before.live_child tree entry
      obtain ⟨points, label⟩ := tree.linked entry stored (by simp)
      exact .child stored points (label ▸ entry) inductionHypothesis

end NodeArena

namespace InodeTable

/-- A registered live node leaves a live node under its key. -/
theorem register_live
    {inodes inodes' : InodeTable}
    (consistent : inodes.Consistent)
    {order : HashOrder}
    {arena : NodeArena}
    {nodeId : NodeId}
    {ino dev : UInt64}
    {mode : Mode}
    {number : UInt64}
    (registered :
      inodes.register order arena nodeId ino dev mode =
        some (number, inodes'))
    (live : arena.Live nodeId) :
    ∃ entry, inodes'.table.get? ⟨ino, dev⟩ = some entry ∧
      entry.fuseIno = number ∧ ∃ id ∈ entry.nodes, arena.Live id := by
  obtain ⟨-, answered, -⟩ := consistent.register registered
  obtain ⟨entry, stored, isNumber⟩ := Option.map_eq_some_iff.mp answered
  refine ⟨entry, stored, isNumber, ?_⟩
  have alone :
      ∀ {table : InodeTable},
        table.registerNew nodeId ⟨ino, dev⟩ mode = some (number, inodes') →
        ∃ id ∈ entry.nodes, arena.Live id := by
    intro table added
    obtain ⟨-, -, found, foundStored, nodes⟩ := registerNew_effect added
    rw [stored] at foundStored
    cases foundStored
    refine ⟨nodeId, ?_, live⟩
    rw [nodes]
    exact List.mem_singleton.mpr rfl
  rcases register_cases registered with
    ⟨-, added⟩ | ⟨-, -, -, added⟩ |
    ⟨existing, changed, -, ⟨id, member, held⟩, -, members, -, rfl⟩
  · exact alone added
  · exact alone added
  · have isChanged : changed = entry := by
      rw [FMap.get?_set_self] at stored
      exact Option.some.inj stored
    subst isChanged
    have kept := List.mem_filter.mpr ⟨member, held⟩
    refine ⟨id, ?_, NodeArena.containsKey_iff.mp held⟩
    rcases members with filtered | ⟨inserted, -⟩
    · rw [filtered]
      exact kept
    · rw [inserted, HashOrder.mem_insert]
      exact .inr kept

end InodeTable

namespace Daemon

open Syscall Whiteout

variable {env : Env}

/-! ## What a lookup replies -/

/-- The reply is the number of the child's key, or the root's. -/
structure Named
    (parent : UInt64)
    (name : Name)
    (number : UInt64)
    (pnode child : NodeId)
    (node : OvlNode)
    (sys : Sys) : Prop where
  placed : Placed parent pnode name child sys
  stored : sys.nodes.get? child = some node
  numbered :
    (number = rootIno ∧ node.isDir = false) ∨
      ∃ entry, sys.inodes.table.get? node.key = some entry ∧
        entry.fuseIno = number ∧
        ∃ id ∈ entry.nodes, sys.nodes.Live id

/-- What the number of a key leads to. -/
theorem Named.resolves
    {parent number : UInt64}
    {name : Name}
    {pnode child : NodeId}
    {node : OvlNode}
    {sys : Sys}
    (named : Named parent name number pnode child node sys) :
    ∃ id, sys.forest.resolve number = some id ∧ sys.nodes.Attached id ∧
      (node.isDir = true →
        (∀ other found, sys.nodes.get? other = some found →
          found.key = node.key → other = child) → id = child) := by
  have whole := named.placed.within.whole
  have attached :
      ∀ {id}, sys.forest.resolve number = some id →
        sys.nodes.Attached id := by
    intro id resolved
    obtain ⟨path, walk⟩ :=
      whole.rooted id (Forest.live_of_resolve whole.ok resolved)
    exact walk.attached whole.ok.tree
  rcases named.numbered with ⟨rfl, noDir⟩ |
    ⟨entry, stored, rfl, listed, member, live⟩
  · refine ⟨rootId, rfl, attached rfl, fun isDir => ?_⟩
    rw [noDir] at isDir
    cases isDir
  · obtain ⟨notReserved, back⟩ := whole.table.numbered _ entry stored
    have found : (entry.nodes.find? sys.nodes.containsKey).isSome = true :=
      List.find?_isSome.mpr
        ⟨listed, member, NodeArena.containsKey_iff.mpr live⟩
    obtain ⟨id, isFirst⟩ := Option.isSome_iff_exists.mp found
    have notRoot : entry.fuseIno ≠ rootIno := by
      intro same
      rw [same] at notReserved
      exact absurd notReserved (by decide)
    have resolved : sys.forest.resolve entry.fuseIno = some id :=
      Forest.resolve_eq_some.mpr
        (.inr ⟨notRoot, node.key, entry, back, stored, isFirst⟩)
    refine ⟨id, resolved, attached resolved, fun _ alone => ?_⟩
    obtain ⟨other, otherStored⟩ :=
      Forest.live_of_resolve whole.ok resolved
    exact alone id other otherStored (whole.keyed _ _ _ _ stored
      (List.mem_of_find?_eq_some isFirst) otherStored)

/-- Counting a lookup moves nothing. -/
theorem placed_incLookup
    {parent : UInt64}
    {name : Name}
    {pnode child : NodeId}
    (key : InodeKey) :
    Keeps (Placed parent pnode name child) (incLookup key) := by
  intro sys placed
  refine ⟨⟨treeWhole_incLookup key sys placed.within.whole, ?_,
    placed.within.isDir⟩, placed.entry⟩
  rw [← placed.within.resolved]
  exact Forest.resolve_incLookup ..

/-- The child's entry of the table, with a live node. -/
structure Entered
    (parent : UInt64)
    (name : Name)
    (pnode child : NodeId)
    (key : InodeKey)
    (number : UInt64)
    (sys : Sys) : Prop where
  placed : Placed parent pnode name child sys
  stored : ∃ node, sys.nodes.get? child = some node ∧ node.key = key
  listed :
    ∃ entry, sys.inodes.table.get? key = some entry ∧
      entry.fuseIno = number ∧ ∃ id ∈ entry.nodes, sys.nodes.Live id

theorem Calm.entered
    {α : Type}
    {act : Daemon α}
    {parent number : UInt64}
    {name : Name}
    {pnode child : NodeId}
    {key : InodeKey}
    (calm : Calm act) :
    Keeps (Entered parent name pnode child key number) act := by
  intro sys entered
  obtain ⟨same, sameTable⟩ := calm sys.forest sys ⟨.refl _, rfl⟩
  obtain ⟨node, stored, isKey⟩ := entered.stored
  obtain ⟨later, laterStored, sameShape⟩ := same.get?_of_get? stored
  obtain ⟨entry, known, isNumber, id, member, live⟩ := entered.listed
  have table : (act sys).2.inodes = sys.inodes := sameTable
  refine ⟨calm.placed sys entered.placed, ⟨later, laterStored, ?_⟩, ?_⟩
  · rw [← isKey]
    simp only [OvlNode.shape, Prod.mk.injEq] at sameShape
    simp [OvlNode.key, sameShape]
  · rw [table]
    exact ⟨entry, known, isNumber, id, member, same.live live⟩

/-- The reply is the number of the entry that was counted. -/
theorem named_incLookup
    {parent number : UInt64}
    {name : Name}
    {pnode child : NodeId}
    {key : InodeKey} :
    Holds (Entered parent name pnode child key number) (incLookup key)
      fun _ sys => ∃ node, Named parent name number pnode child node sys := by
  intro sys entered
  obtain ⟨node, stored, rfl⟩ := entered.stored
  obtain ⟨entry, known, isNumber, listed⟩ := entered.listed
  refine ⟨node, placed_incLookup _ sys entered.placed, stored,
    .inr ⟨{ entry with lookups := entry.lookups + 1 }, ?_, isNumber, listed⟩⟩
  change (sys.inodes.incLookup node.key).table.get? node.key = _
  unfold InodeTable.incLookup
  rw [FMap.get?_modify, if_pos rfl, known]
  rfl

/-- What is known after a reply with an entry. -/
def RepliesNamed
    (parent : UInt64)
    (name : Name)
    (outcome : Except Errno Reply)
    (sys : Sys) : Prop :=
  ∀ st, outcome = .ok (.entry st) →
    ∃ pnode child node, Named parent name st.ino pnode child node sys

/-- The end of the fast path, from the entry that it found. -/
theorem named_fastReply
    {parent : UInt64}
    {name : Name}
    (pnode childId : NodeId)
    (key : InodeKey)
    (number : UInt64) :
    Holds (Entered parent name pnode childId key number)
      (do
        let path ← nodePath childId
        match ← (rplStatWithPath env childId path).attempt with
        | .error _ => pure none
        | .ok st => do
            incLookup key
            pure (some (.entry { st with ino := number })) :
              Daemon (Option Reply))
      fun outcome sys => ∀ reply, outcome = .ok (some reply) →
        RepliesNamed parent name (.ok reply) sys := by
  refine Holds.bind (Keeps.gets _) (fun path => ?_)
    fun _ _ _ _ same => by cases same
  refine Holds.bind
    (Calm.attempt (Calm.rplStatWithPath childId path)).entered
    (fun outcome => ?_) fun _ _ _ _ same => by cases same
  cases outcome with
  | error errno =>
      exact Holds.pure fun _ _ _ same => by cases same
  | ok st =>
      refine Holds.bind named_incLookup (fun _ => ?_)
        fun _ _ _ _ same => by cases same
      refine Holds.pure fun later holds reply same => ?_
      cases same
      intro replied same
      cases same
      obtain ⟨node, named⟩ := holds
      exact ⟨pnode, childId, node, named⟩

/-- The reply of the fast path. -/
theorem named_lookupFast
    (parent : UInt64)
    (name : Name) :
    Holds (Heads parent) (lookupFast env parent name)
      fun outcome sys => ∀ reply, outcome = .ok (some reply) →
        RepliesNamed parent name (.ok reply) sys := by
  have nothing :
      ∀ {pre : Sys → Prop},
        Holds pre (pure none : Daemon (Option Reply)) fun outcome sys =>
          ∀ reply, outcome = .ok (some reply) →
            RepliesNamed parent name (.ok reply) sys :=
    Holds.pure fun _ _ _ same => by cases same
  have failed :
      ∀ {pre : Sys → Prop} (errno : Errno) sys, pre sys →
        ∀ reply, (Except.error errno : Except Errno (Option Reply)) =
          .ok (some reply) → RepliesNamed parent name (.ok reply) sys :=
    fun _ _ _ _ same => by cases same
  refine Holds.getsBind fun resolved => ?_
  cases resolved with
  | none =>
      exact nothing
  | some parentId =>
      refine Holds.getsBind fun found => ?_
      cases found with
      | none =>
          exact nothing
      | some pnode =>
          refine Holds.bind (Keeps.check _ _) (fun _ => ?_) failed
          cases isChild : pnode.getChild name with
          | none =>
              exact nothing
          | some childId =>
              refine node_bind (fun child => ?_) (failed _)
              refine Holds.bind (Keeps.check _ _) (fun _ => ?_) failed
              refine Holds.getsBind fun known => ?_
              cases known with
              | none =>
                  exact nothing
              | some entry =>
                  simp only
                  split
                  · next member =>
                      refine Holds.imp (named_fastReply parentId childId
                        child.key entry.fuseIno) ?_ fun _ _ holds => holds
                      rintro sys ⟨⟨⟨⟨heads, resolved⟩, parentStored⟩, stored⟩,
                        known⟩
                      have isParent : sys.forest.resolve parent =
                        some parentId := resolved
                      exact ⟨⟨⟨heads.whole, isParent,
                        heads.isDir parentId isParent⟩, pnode, parentStored,
                        isChild⟩, ⟨child, stored, rfl⟩, entry, known, rfl,
                        childId, member, child, stored⟩
                  · exact nothing

theorem entered_register
    {parent : UInt64}
    {name : Name}
    {pnode child : NodeId}
    {node : OvlNode}
    (mode : Mode) :
    Holds
      (fun sys => Placed parent pnode name child sys ∧
        sys.nodes.get? child = some node)
      (register env child node.tmpIno node.tmpDev mode)
      fun outcome sys => ∀ number, outcome = .ok (some number) →
        Entered parent name pnode child node.key number sys := by
  intro sys holds
  obtain ⟨placed, stored⟩ := holds
  have whole := placed.within.whole
  have kept := @wholeKey_register env child node.key mode sys
    ⟨whole, node, stored, rfl⟩
  intro number returned
  unfold register at returned kept ⊢
  split at returned
  · cases returned
  · next fuseIno inodes registered =>
      cases returned
      have again : sys.inodes.register env.order sys.nodes child node.key.ino
          node.key.dev mode = some (number, inodes) := registered
      rw [again] at kept
      have sound := (Forest.Sound.refl whole.ok).register
        (whole.ok.tree.bounded ⟨node, stored⟩) registered
      refine ⟨⟨⟨kept.1, ?_, placed.within.isDir⟩, placed.entry⟩,
        ⟨node, stored, rfl⟩,
        InodeTable.register_live whole.table registered ⟨node, stored⟩⟩
      exact sound.grown.steady placed.within.resolved placed.within.isDir

theorem named_lookupIno
    {parent : UInt64}
    {name : Name}
    {pnode child : NodeId}
    {node : OvlNode}
    (mode : Mode) :
    Holds
      (fun sys => Placed parent pnode name child sys ∧
        sys.nodes.get? child = some node)
      (lookupIno env child node mode)
      fun outcome sys => ∀ number, outcome = .ok number →
        ∃ found, Named parent name number pnode child found sys := by
  unfold lookupIno
  split
  · refine Holds.bind (entered_register mode) (fun answer => ?_)
      fun _ _ _ _ same => by cases same
    refine Holds.orFailBind (fun number isAnswer => ?_)
      fun _ _ _ same => by cases same
    subst isAnswer
    refine Holds.imp (?_ : Holds (Entered parent name pnode child node.key
      number) _ _) (fun _ holds => holds number rfl) fun _ _ holds => holds
    refine Holds.bind named_incLookup (fun _ => ?_)
      fun _ _ _ _ same => by cases same
    refine Holds.pure fun sys holds answered same => ?_
    cases same
    exact holds
  · next unnumbered =>
      refine Holds.pure fun sys holds number same => ?_
      cases same
      refine ⟨node, holds.1, holds.2, .inl ⟨rfl, ?_⟩⟩
      simpa using fun isDir => unnumbered (.inr isDir)

/-- The slow path, from the child that it found. -/
theorem named_slowReply
    {parent : UInt64}
    {name : Name}
    (pnode child : NodeId) :
    Holds (Placed parent pnode name child)
      (do
        let before ← node child
        Act.runIf (!env.config.staticNlink && before.isDir) do
          let loaded ← reloadDir env child
          Act.check loaded Errno.EIO
        let st ← rplStat env child
        let found ← node child
        let fuseIno ← lookupIno env child found st.mode
        pure (.entry { st with ino := fuseIno }) : Daemon Reply)
      (RepliesNamed parent name) := by
  have failed :
      ∀ {pre : Sys → Prop} (errno : Errno) sys, pre sys →
        RepliesNamed parent name (.error errno) sys :=
    fun _ _ _ _ same => by cases same
  refine node_bind (fun before => ?_) (failed _)
  have loads :
      Holds
        (fun sys => Placed parent pnode name child sys ∧
          sys.nodes.get? child = some before)
        (Act.runIf (!env.config.staticNlink && before.isDir) do
          let loaded ← reloadDir env child
          Act.check loaded Errno.EIO)
        fun _ => Placed parent pnode name child := by
    unfold Act.runIf
    split
    · next wanted =>
        have isDir : before.isDir = true := by
          simp only [Bool.and_eq_true] at wanted
          exact wanted.2
        refine Holds.bind (?_ : Holds _ _ fun _ =>
          Placed parent pnode name child) (fun loaded => Keeps.check _ _)
          fun _ _ placed => placed
        intro sys holds
        have whole := @treeWhole_reloadDir env child before sys
          ⟨holds.1.within.whole, holds.2, isDir⟩
        exact (still_reloadDir child).placed holds.1 whole.1
    · exact Holds.pure fun _ holds => holds.1
  refine Holds.bind loads (fun _ => ?_) failed
  refine Holds.bind (Calm.rplStat child).placed (fun st => ?_) failed
  refine node_bind (fun found => ?_) (failed _)
  refine Holds.bind (named_lookupIno st.mode) (fun fuseIno => ?_)
    fun _ _ _ _ same => by cases same
  refine Holds.pure fun sys holds reply same => ?_
  cases same
  obtain ⟨later, named⟩ := holds fuseIno rfl
  exact ⟨pnode, child, later, named⟩

theorem named_lookupSlow
    (parent : UInt64)
    (name : Name) :
    Holds (Heads parent) (lookupSlow env parent name)
      (RepliesNamed parent name) := by
  refine Holds.bind (placed_doLookupFile parent name) (fun found => ?_)
    fun _ _ _ _ same => by cases same
  refine presentOr_bind (fun child isFound => ?_)
    fun _ _ _ same => by cases same
  subst isFound
  intro sys holds
  obtain ⟨pnode, placed⟩ := holds.1.2 child rfl
  exact named_slowReply pnode child sys placed

/-- Every reply of `lookup` with an entry names the child it found. -/
theorem named_lookup
    (parent : UInt64)
    (name : Name) :
    Holds (Heads parent) (lookup env parent name)
      (RepliesNamed parent name) := by
  have fast :
      Holds (Heads parent) (lookupFast env parent name)
        fun outcome sys => Heads parent sys ∧
          ∀ reply, outcome = .ok (some reply) →
            RepliesNamed parent name (.ok reply) sys :=
    fun sys heads =>
      ⟨keeps_lookupFast Calm.heads heads_incLookup parent name sys heads,
        named_lookupFast parent name sys heads⟩
  refine Holds.bind (Keeps.check _ _) (fun _ => ?_)
    fun _ _ _ _ same => by cases same
  refine Holds.bind fast (fun found => ?_) fun _ _ _ _ same => by cases same
  cases found with
  | some reply =>
      exact Holds.pure fun sys holds => holds.2 reply rfl
  | none =>
      exact fun sys holds => named_lookupSlow parent name sys holds.1

end Daemon

/-! ## Careful runs -/

namespace Sys

open Daemon

/-- The number, if it stands for a node, stands for a directory. -/
def HeadsDir
    (sys : Sys)
    (ino : UInt64) : Prop :=
  ∀ dir, sys.forest.resolve ino = some dir → sys.nodes.DirNode dir

/-- The parent of a new object is a directory, and a number is left. -/
def HasRoom
    (sys : Sys)
    (parent : UInt64) : Prop :=
  sys.HeadsDir parent ∧ sys.inodes.fuseMap.size < 2 ^ 64 - 2

/-- The destination of a plain rename does not lie below its source. -/
def MovesPast
    (sys : Sys)
    (parent : UInt64)
    (name : Name)
    (newparent : UInt64) : Prop :=
  sys.HeadsDir parent ∧ ∃ dparent,
    sys.forest.resolve newparent = some dparent ∧
      sys.nodes.DirNode dparent ∧
      ∀ sparent src, sys.forest.resolve parent = some sparent →
        sys.nodes.Entry sparent name src →
        sys.nodes.Past (· = src) dparent

/-- Both names of an exchange are cached, and neither lies below the other. -/
def SwapsPast
    (sys : Sys)
    (parent : UInt64)
    (name : Name)
    (newparent : UInt64)
    (newname : Name) : Prop :=
  ∃ sparent dparent sid did,
    sys.forest.resolve parent = some sparent ∧
      sys.nodes.Entry sparent name sid ∧
      sys.forest.resolve newparent = some dparent ∧
      sys.nodes.Entry dparent newname did ∧ sid ≠ did ∧
      sys.nodes.Past (· = did) sparent ∧ sys.nodes.Past (· = sid) dparent

/--
The request is one the kernel sends, a new object finds a number, and a refresh
drops no children.
-/
def Careful
    (env : Env)
    (sys : Sys) :
    Request → Prop
  | .lookup parent _ => sys.HeadsDir parent
  | .mknod _ parent _ _ _ => sys.HasRoom parent
  | .mkdir _ parent _ _ => sys.HasRoom parent
  | .symlink _ parent _ _ => sys.HasRoom parent
  | .create _ parent _ _ _ => sys.HasRoom parent
  | .link _ newparent _ => sys.HasRoom newparent
  | .unlink parent name =>
      sys.HeadsDir parent ∧ ∀ id later,
        doLookupFile env parent name sys = (.ok (some id), later) →
          ¬ later.nodes.DirNode id
  | .rmdir parent name =>
      sys.HeadsDir parent ∧ ∀ id later,
        doLookupFile env parent name sys = (.ok (some id), later) →
          later.nodes.DirNode id
  | .rename parent name newparent newname flags =>
      if flags &&& 2 = 0 then sys.MovesPast parent name newparent
      else sys.SwapsPast parent name newparent newname
  | .ioctl ino _ _ .refreshDir =>
      ∀ id, sys.forest.resolve ino = some id → Childless id sys.forest
  | _ => True

/-- Every request of the run is careful in the state it meets. -/
def CarefulRun
    (env : Env) :
    Sys → List Call → Prop
  | _, [] => True
  | sys, call :: rest =>
      Careful env (sys.begin call) call.request ∧
        CarefulRun env (sys.step env call).2 rest

theorem treeWhole_mount
    (env : Env)
    (disk : Disk) :
    TreeWhole (mount env disk) := by
  refine ⟨treeOk_mount env disk, ?_, ?_, ?_,
    InodeTable.new_consistent env.sameDevice⟩
  · rintro id ⟨node, found⟩
    rw [(@mount_stored env disk _ _ found).1]
    exact ⟨[], .root⟩
  · intro id node found
    rw [(@mount_stored env disk _ _ found).2]
    rfl
  · intro key entry id node found
    cases found

/-- A careful request keeps the tree whole. -/
theorem treeWhole_handle
    {env : Env}
    {sys : Sys}
    {request : Request}
    (whole : TreeWhole sys)
    (careful : Careful env sys request) :
    TreeWhole (handle env request sys).2 := by
  by_cases released : ∃ fh, request = .releasedir fh
  · obtain ⟨fh, rfl⟩ := released
    exact whole
  by_cases leaves : leavesTree request = true
  · exact (calm_handle leaves (not_exists.mp released)).treeWhole sys whole
  cases request with
  | lookup parent name =>
      exact treeWhole_lookup parent name sys ⟨whole, careful⟩
  | forget ino nlookup =>
      exact treeWhole_forget ino nlookup sys whole
  | getattr ino =>
      exact treeWhole_getattr ino sys whole
  | mknod caller parent name mode rdev =>
      exact treeWhole_mknod caller parent name mode rdev sys
        ⟨⟨whole, careful.1⟩, careful.2⟩
  | mkdir caller parent name mode =>
      exact treeWhole_mkdir caller parent name mode sys
        ⟨⟨whole, careful.1⟩, careful.2⟩
  | symlink caller parent name target =>
      exact treeWhole_symlink caller parent name target sys
        ⟨⟨whole, careful.1⟩, careful.2⟩
  | create caller parent name mode flags =>
      exact treeWhole_create caller parent name mode flags sys
        ⟨⟨whole, careful.1⟩, careful.2⟩
  | link ino newparent newname =>
      exact treeWhole_link ino newparent newname sys
        ⟨⟨whole, careful.1⟩, careful.2⟩
  | unlink parent name =>
      refine treeWhole_doRm ⟨whole, careful.1⟩ fun id later found => ?_
      simpa using careful.2 id later found
  | rmdir parent name =>
      refine treeWhole_doRm ⟨whole, careful.1⟩ fun id later found => ?_
      simpa using careful.2 id later found
  | rename parent name newparent newname flags =>
      by_cases plain : flags &&& 2 = 0
      · have moves : sys.MovesPast parent name newparent := by
          simpa only [Careful, plain, ↓reduceIte] using careful
        obtain ⟨heads, dparent, resolved, isDir, past⟩ := moves
        exact treeWhole_rename_plain plain sys
          ⟨⟨whole, heads⟩, ⟨whole, resolved, isDir⟩, past⟩
      · have swaps : sys.SwapsPast parent name newparent newname := by
          simpa only [Careful, plain, ↓reduceIte] using careful
        obtain ⟨sparent, dparent, sid, did, sresolved, sentry, dresolved,
          dentry, apart, spast, dpast⟩ := swaps
        exact treeWhole_rename_exchange plain sys
          ⟨⟨⟨whole, sresolved, sentry.dirNode⟩, sentry⟩,
            ⟨⟨whole, dresolved, dentry.dirNode⟩, dentry⟩, apart, spast,
            dpast⟩
  | opendir ino =>
      exact treeWhole_opendirOf ino sys whole
  | readdirplus fh offset fits =>
      exact treeWhole_readdirplus fh offset fits sys whole
  | ioctl ino fh compat command =>
      refine treeWhole_ioctl ino fh compat command sys ⟨whole, ?_⟩
      intro id isRefresh resolved
      subst isRefresh
      exact careful id resolved
  | _ =>
      exact (leaves rfl).elim

/-- A run of careful requests keeps the tree whole. -/
theorem CarefulRun.treeWhole
    {env : Env}
    {sys : Sys}
    {calls : List Call}
    (careful : CarefulRun env sys calls)
    (whole : TreeWhole sys) :
    TreeWhole (run env sys calls) := by
  induction calls generalizing sys with
  | nil =>
      exact whole
  | cons call rest inductionHypothesis =>
      exact inductionHypothesis careful.2
        (@treeWhole_handle env (sys.begin call) call.request whole careful.1)

/--
What is claimed of a reply: the number leads to a node of the tree, and to the
child itself if the child is a directory.
-/
def Agrees
    (sys : Sys)
    (parent : UInt64)
    (name : Name)
    (number : UInt64) : Prop :=
  ∃ pnode child node id,
    sys.forest.resolve parent = some pnode ∧
      sys.nodes.Entry pnode name child ∧
      sys.nodes.get? child = some node ∧
      sys.forest.resolve number = some id ∧ sys.nodes.Attached id ∧
      (node.isDir = true → id = child)

/-- No other live node has the inode number and device of the directory. -/
def LoneDir
    (sys : Sys)
    (parent : UInt64)
    (name : Name) : Prop :=
  ∀ pnode child node, sys.forest.resolve parent = some pnode →
    sys.nodes.Entry pnode name child → sys.nodes.get? child = some node →
    node.isDir = true →
    ∀ other found, sys.nodes.get? other = some found →
      found.key = node.key → other = child

/--
In every state of a careful run, a reply of `lookup` agrees with the name that
was looked up.
-/
theorem number_agrees_with_name
    {env : Env}
    {disk : Disk}
    {calls : List Call}
    {call : Call}
    {parent : UInt64}
    {name : Name}
    {st : Stat}
    (careful : CarefulRun env (mount env disk) calls)
    (asked : call.request = .lookup parent name)
    (heads : (run env (mount env disk) calls).HeadsDir parent)
    (replied :
      ((run env (mount env disk) calls).step env call).1 = .ok (.entry st))
    (lone :
      ((run env (mount env disk) calls).step env call).2.LoneDir parent
        name) :
    ((run env (mount env disk) calls).step env call).2.Agrees parent name
      st.ino := by
  have whole := careful.treeWhole (treeWhole_mount env disk)
  generalize run env (mount env disk) calls = sys at *
  have named := @named_lookup env parent name (sys.begin call)
    ⟨whole, heads⟩
  unfold step at replied lone ⊢
  rw [asked] at replied lone ⊢
  obtain ⟨pnode, child, node, isNamed⟩ := named st replied
  obtain ⟨id, resolved, attached, same⟩ := isNamed.resolves
  have within := isNamed.placed.within
  exact ⟨pnode, child, node, id, within.resolved, isNamed.placed.entry,
    isNamed.stored, resolved, attached, fun isDir =>
      same isDir (lone pnode child node within.resolved isNamed.placed.entry
        isNamed.stored isDir)⟩

end Sys

namespace Sample

/-- A directory on the upper layer. -/
def oneDir : Disk :=
  disk 0 [(⟨.layer 0, [ascii "d"]⟩, obj .dir [] 11)]

def lookupDir : Call :=
  call (.lookup 1 (ascii "d"))

/-- The `stat` that a lookup of the directory replies. -/
def dirStat : Stat :=
  ⟨11, 0, ⟨some .dir, 0o755⟩, 2, 0, 0, 0, 0, ⟨0, 0⟩, ⟨0, 0⟩⟩

/-- The directory is looked up. -/
def foundDir : Sys :=
  .run (env 0) (.mount (env 0) oneDir) [lookupDir]

/-- The directory is looked up, and then the root is refreshed. -/
def refreshedDir : Sys :=
  .run (env 0) (.mount (env 0) oneDir)
    [lookupDir, call (.ioctl 1 0 false .refreshDir)]

end Sample

namespace Sys

open Daemon Sample

/-- The root's number stands for the root. -/
theorem headsDir_root
    {sys : Sys}
    (ok : TreeOk sys) :
    sys.HeadsDir rootIno := by
  intro dir resolved
  cases resolved
  obtain ⟨node, stored, -, isDir⟩ := ok.tree.root
  exact ⟨node, stored, isDir⟩

theorem number_agrees_with_name_again :
    (foundDir.step (env 0) lookupDir).2.Agrees 1 (ascii "d") 11 := by
  have careful : CarefulRun (env 0) (mount (env 0) oneDir) [lookupDir] :=
    ⟨headsDir_root (treeOk_mount (env 0) oneDir), trivial⟩
  have heads : foundDir.HeadsDir 1 :=
    headsDir_root (careful.treeWhole (treeWhole_mount (env 0) oneDir)).ok
  have replied : (foundDir.step (env 0) lookupDir).1 =
      .ok (.entry dirStat) := by
    decide +kernel
  have lone : (foundDir.step (env 0) lookupDir).2.LoneDir 1
      (ascii "d") := by
    generalize reached : (foundDir.step (env 0) lookupDir).2 = sys
    have child :
        (sys.nodes.get? 1).bind (·.getChild (ascii "d")) = some 2 := by
      rw [← reached]
      decide +kernel
    have keys :
        sys.nodes.map.toList.all (fun entry =>
          entry.2.key ≠ ⟨11, 0⟩ || entry.1 = 2) = true := by
      rw [← reached]
      decide +kernel
    have key : (sys.nodes.get? 2).map OvlNode.key = some ⟨11, 0⟩ := by
      rw [← reached]
      decide +kernel
    intro pnode isChild node resolved entry stored _ other found live same
    cases resolved
    have isTwo : isChild = 2 := Option.some.inj
      ((Option.bind_eq_some_iff.mpr entry).symm.trans child)
    subst isTwo
    rw [stored] at key
    have listed := List.all_eq_true.mp keys (other, found)
      (FMap.mem_toList_iff.mpr live)
    rw [same, Option.some.inj key] at listed
    simpa using listed
  exact @number_agrees_with_name (env 0) oneDir [lookupDir] lookupDir 1
    (ascii "d") dirStat careful rfl heads replied lone

/-- After a refresh the number still leads to the node that was dropped. -/
theorem number_leads_to_dropped :
    (refreshedDir.step (env 0) lookupDir).1 = .ok (.entry dirStat) ∧
      ¬ (refreshedDir.step (env 0) lookupDir).2.Agrees 1 (ascii "d")
        dirStat.ino := by
  have replied : (refreshedDir.step (env 0) lookupDir).1 =
      .ok (.entry dirStat) := by
    decide +kernel
  refine ⟨replied, ?_⟩
  generalize reached : (refreshedDir.step (env 0) lookupDir).2 = sys
  have child :
      (sys.nodes.get? 1).bind (·.getChild (ascii "d")) = some 3 := by
    rw [← reached]
    decide +kernel
  have kind : (sys.nodes.get? 3).map OvlNode.isDir = some true := by
    rw [← reached]
    decide +kernel
  have leads : sys.forest.resolve dirStat.ino = some 2 := by
    rw [← reached]
    decide +kernel
  rintro ⟨pnode, isChild, node, id, resolved, entry, stored, numbered, -,
    same⟩
  cases resolved
  have isThree : isChild = 3 := Option.some.inj
    ((Option.bind_eq_some_iff.mpr entry).symm.trans child)
  subst isThree
  rw [stored] at kind
  rw [same (Option.some.inj kind)] at numbered
  exact absurd (numbered.symm.trans leads) (by decide)

end Sys

end FuseOverlay
