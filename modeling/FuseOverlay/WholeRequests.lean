import FuseOverlay.TreeWhole

namespace FuseOverlay

/-!
# Requests that keep the tree whole

Looking up, listing and forgetting leave the live nodes in the tree without a
condition on the state other than that parents are directories.  A new object
needs a number that is left, and a refresh must not drop children.
-/

open Act (Keeps Holds)

namespace Daemon

open Syscall Whiteout

variable {env : Env}

/-- The tree is all there is. -/
def TreeWhole (sys : Sys) : Prop :=
  sys.forest.Whole

theorem Calm.treeWhole
    {α : Type}
    {act : Daemon α}
    (calm : Calm act) :
    Keeps TreeWhole act :=
  calm.whole

theorem treeWhole_of_narrows
    {sys : Sys}
    {inodes : InodeTable}
    (whole : TreeWhole sys)
    (narrows : sys.inodes.Narrows inodes)
    (table : inodes.Consistent) :
    TreeWhole { sys with inodes := inodes } where
  ok := treeOk_of_narrows whole.ok narrows
  rooted := whole.rooted
  shown := whole.shown
  keyed := whole.keyed.narrows narrows
  table := table

theorem treeWhole_incLookup
    (key : InodeKey) :
    Keeps TreeWhole (incLookup key) :=
  fun sys whole => treeWhole_of_narrows whole
    (sys.inodes.narrows_incLookup key) (whole.table.incLookup key)

theorem treeWhole_forget
    (ino nlookup : UInt64) :
    Keeps TreeWhole (forget ino nlookup) := by
  refine Keeps.bind (Keeps.modify fun sys whole => ?_) fun _ => Keeps.pure _
  exact treeWhole_of_narrows whole (sys.inodes.narrows_forget ino nlookup)
    (whole.table.forget ino nlookup)

/-! ## Looking up -/

/-- The node is there and carries the key. -/
def WholeKey
    (id : NodeId)
    (key : InodeKey)
    (sys : Sys) : Prop :=
  TreeWhole sys ∧ ∃ node, sys.nodes.get? id = some node ∧ node.key = key

/-- A node is listed under its own key. -/
theorem wholeKey_register
    {id : NodeId}
    {key : InodeKey}
    (mode : Mode) :
    Keeps (WholeKey id key) (register env id key.ino key.dev mode) := by
  rintro sys ⟨whole, node, stored, isKey⟩
  have kept := @treeOkWith_register env id key.ino key.dev mode sys
    ⟨whole.ok, node, stored⟩
  unfold register at kept ⊢
  split at kept
  · exact ⟨whole, node, stored, isKey⟩
  · next number inodes registered =>
      refine ⟨⟨kept.1, whole.rooted, whole.shown, ?_,
        (whole.table.register registered).1⟩, node, stored, isKey⟩
      refine whole.keyed.register registered fun found foundStored => ?_
      change sys.nodes.get? id = some found at foundStored
      rw [stored] at foundStored
      cases foundStored
      exact isKey

theorem wholeKey_incLookup
    {id : NodeId}
    {key : InodeKey} :
    Keeps (WholeKey id key) (incLookup key) :=
  fun sys holds => ⟨treeWhole_incLookup key sys holds.1, holds.2⟩

theorem treeWhole_lookupIno
    (nodeId : NodeId)
    (found : OvlNode)
    (mode : Mode) :
    Holds (WholeKey nodeId found.key) (lookupIno env nodeId found mode)
      fun _ => TreeWhole := by
  unfold lookupIno
  split
  · have registers := @wholeKey_register env nodeId found.key mode
    refine Holds.bind registers (fun answer => ?_) fun _ _ holds => holds.1
    refine Holds.bind (Keeps.orFail answer _) (fun fuseIno => ?_)
      fun _ _ holds => holds.1
    refine Holds.bind wholeKey_incLookup (fun _ => ?_)
      fun _ _ holds => holds.1
    exact Holds.pure fun _ holds => holds.1
  · exact Holds.pure fun _ holds => holds.1

/-- Loading a node that is a directory. -/
theorem treeWhole_reloadDir
    {nodeId : NodeId}
    {found : OvlNode} :
    Holds
      (fun sys => TreeWhole sys ∧ sys.nodes.get? nodeId = some found ∧
        found.isDir = true)
      (reloadDir env nodeId) fun _ => WholeAt nodeId :=
  fun sys holds => whole_reloadDir nodeId sys
    ⟨holds.1, found, holds.2.1, holds.2.2⟩

theorem treeWhole_lookupSlow
    (parent : UInt64)
    (name : Name) :
    Holds (Heads parent) (lookupSlow env parent name)
      fun _ => TreeWhole := by
  refine Holds.bind (whole_doLookupFile parent name) (fun found => ?_)
    fun _ _ whole => whole
  refine presentOr_bind (fun nodeId _ => ?_) fun _ whole => whole
  refine node_bind (fun before => ?_) fun _ holds => holds.1
  refine Holds.bind (?_ : Holds _ _ fun _ => TreeWhole) (fun _ => ?_)
    fun _ _ whole => whole
  · unfold Act.runIf
    split
    · next wanted =>
        have isDir : before.isDir = true := by
          simp only [Bool.and_eq_true] at wanted
          exact wanted.2
        refine Holds.bind (?_ : Holds _ _ fun _ => TreeWhole)
          (fun loaded => Keeps.check _ _) fun _ _ whole => whole
        rintro sys ⟨⟨whole, -⟩, stored⟩
        exact (treeWhole_reloadDir sys ⟨whole, stored, isDir⟩).1
    · exact Holds.pure fun _ holds => holds.1.1
  · refine Holds.bind (Calm.rplStat nodeId).treeWhole (fun st => ?_)
      fun _ _ whole => whole
    refine node_bind (fun found => ?_) fun _ whole => whole
    refine Holds.bind (?_ : Holds _ _ fun _ => TreeWhole)
      (fun _ => Keeps.pure _) fun _ _ whole => whole
    rintro sys ⟨whole, stored⟩
    exact treeWhole_lookupIno nodeId found st.mode sys
      ⟨whole, found, stored, rfl⟩

theorem heads_incLookup
    {parent : UInt64}
    (key : InodeKey) :
    Keeps (Heads parent) (incLookup key) := by
  intro sys heads
  refine ⟨treeWhole_incLookup key sys heads.whole, fun dir resolved => ?_⟩
  refine heads.isDir dir ?_
  rw [← resolved]
  exact (Forest.resolve_incLookup ..).symm

theorem treeWhole_lookup
    (parent : UInt64)
    (name : Name) :
    Holds (Heads parent) (lookup env parent name)
      fun _ => TreeWhole := by
  refine Holds.bind (Keeps.check _ _) (fun _ => ?_)
    fun _ _ heads => heads.whole
  refine Holds.bind (keeps_lookupFast Calm.heads heads_incLookup parent name) (fun found => ?_)
    fun _ _ heads => heads.whole
  cases found with
  | some reply =>
      exact Holds.pure fun _ heads => heads.whole
  | none =>
      exact treeWhole_lookupSlow parent name

/-! ## The node under a name -/

/-- The node under the name, in the directory that the number stands for. -/
structure Placed
    (parent : UInt64)
    (pnode : NodeId)
    (name : Name)
    (id : NodeId)
    (sys : Sys) : Prop where
  within : Within parent pnode sys
  entry : sys.nodes.Entry pnode name id

theorem Still.placed
    {α : Type}
    {act : Daemon α}
    {parent : UInt64}
    {pnode id : NodeId}
    {name : Name}
    (still : Still act)
    {sys : Sys}
    (placed : Placed parent pnode name id sys)
    (whole : TreeWhole (act sys).2) :
    Placed parent pnode name id (act sys).2 := by
  have sound :=
    (still sys.forest sys (.refl placed.within.whole.ok)).1
  exact ⟨⟨whole, sound.grown.steady placed.within.resolved
    placed.within.isDir, sound.grown.dirs placed.within.isDir⟩,
    sound.grown.entries placed.entry⟩

theorem Calm.placed
    {α : Type}
    {act : Daemon α}
    {parent : UInt64}
    {pnode id : NodeId}
    {name : Name}
    (calm : Calm act) :
    Keeps (Placed parent pnode name id) act :=
  fun sys placed => (Still.of_calm calm).placed placed
    (calm.treeWhole sys placed.within.whole)

/-- What a lookup in a whole tree finds is in its directory. -/
theorem placed_doLookupFile
    (parent : UInt64)
    (name : Name) :
    Holds (Heads parent) (doLookupFile env parent name) fun outcome sys =>
      TreeWhole sys ∧ ∀ id, outcome = .ok (some id) →
        ∃ pnode, Placed parent pnode name id sys := by
  intro sys heads
  have whole := @whole_doLookupFile env parent name sys heads
  have looked : LookedUp sys.forest parent name
      (doLookupFile env parent name sys).1
      (doLookupFile env parent name sys).2.forest :=
    lookedUp_doLookupFile heads.whole.ok parent name sys rfl
  have sound := looked.sound heads.whole.ok
  refine ⟨whole, fun id found => ?_⟩
  rw [found] at looked
  have place :
      ∃ pnode, sys.forest.resolve parent = some pnode ∧
        (doLookupFile env parent name sys).2.forest.nodes.Entry pnode name
          id := by
    generalize outcomeShape : Except.ok (some id) = outcome at looked
    generalize (doLookupFile env parent name sys).2.forest = now at looked ⊢
    cases looked with
    | nothing empty _ =>
        exact (empty id outcomeShape.symm).elim
    | cached resolved entry =>
        cases outcomeShape
        exact ⟨_, resolved, entry⟩
    | adopted resolved adopted =>
        cases outcomeShape
        exact ⟨_, resolved, adopted.attached (heads.isDir _ resolved)⟩
  obtain ⟨pnode, resolved, entry⟩ := place
  have isDir := heads.isDir pnode resolved
  exact ⟨pnode, ⟨whole, sound.grown.steady resolved isDir,
    sound.grown.dirs isDir⟩, entry⟩

theorem treeWhole_getattr
    (ino : UInt64) :
    Keeps TreeWhole (getattr env ino) := by
  unfold getattr
  split
  · exact Keeps.bind whole_ensureRootLoaded fun _ =>
      (Calm.map (Calm.rplStat rootId)).treeWhole
  · refine Keeps.bind (calm_resolveNode ino).treeWhole fun nodeId => ?_
    exact (Calm.map (Calm.rplStat nodeId)).treeWhole

/-! ## Listing -/

theorem wholeAt_buildDirEntries
    (nodeId : NodeId) :
    Keeps (WholeAt nodeId) (buildDirEntries env nodeId) := by
  refine Keeps.bind (whole_reloadDir nodeId) fun _ => Calm.wholeAt ?_
  refine .bind (.gets _) fun found => ?_
  cases found with
  | none =>
      exact .pure []
  | some node =>
      refine .bind (.nodePath nodeId) fun dirPath => ?_
      refine .bind (calm_selfEntry _ nodeId node dirPath) fun self => ?_
      refine .bind (calm_parentEntry node self) fun parent => ?_
      exact .bind (calm_childEntries dirPath _) fun rest => .pure _

theorem treeWhole_opendirOf
    (ino : UInt64) :
    Keeps TreeWhole (opendirOf env ino) := by
  refine Keeps.bind (Keeps.runIf whole_ensureRootLoaded) fun _ => ?_
  refine Keeps.bind (Keeps.gets _) fun resolved => ?_
  refine Keeps.bind (Keeps.orFail _ _) fun nodeId => ?_
  refine Holds.getsBind fun found => ?_
  intro sys holds
  obtain ⟨whole, rfl⟩ := holds
  unfold Act.check
  cases stored : sys.nodes.get? nodeId with
  | none =>
      exact whole
  | some node =>
      cases isDir : node.isDir with
      | false =>
          simp only [Option.map_some, isDir, Option.getD_some]
          exact whole
      | true =>
          simp only [Option.map_some, isDir, Option.getD_some]
          have rest :
              Keeps (WholeAt nodeId) (do
                let _ ← reloadDir env nodeId
                let entries ← buildDirEntries env nodeId
                fun sys =>
                  (.ok (.opened sys.nextDh),
                    { sys with
                      openDirs := sys.openDirs.set sys.nextDh entries
                      nextDh := sys.nextDh + 1 }) : Daemon Reply) := by
            refine Keeps.bind (whole_reloadDir nodeId) fun _ => ?_
            refine Keeps.bind (wholeAt_buildDirEntries nodeId) fun _ => ?_
            exact fun _ holds => holds
          exact (rest sys ⟨whole, node, stored, isDir⟩).1

theorem treeWhole_plusIno
    (entry : HandleEntry) :
    Keeps TreeWhole (plusIno env entry) := by
  unfold plusIno
  cases entry.nodeId with
  | none =>
      exact Keeps.pure _
  | some nodeId =>
      refine Holds.getsBind fun found => ?_
      cases found with
      | none =>
          exact Holds.pure fun _ holds => holds.1
      | some node =>
          refine Holds.imp (?_ : Keeps (WholeKey nodeId node.key) _)
            (fun sys holds => ⟨holds.1, node, holds.2, rfl⟩)
            fun _ _ holds => holds.1
          have registers := @wholeKey_register env nodeId node.key node.mode
          refine Keeps.bind registers fun answer => ?_
          cases answer with
          | none =>
              exact Keeps.pure _
          | some fuseIno =>
              exact Keeps.bind wholeKey_incLookup fun _ => Keeps.pure _

theorem treeWhole_plusEntries
    (fits : Nat)
    (entries : List (HandleEntry × Nat)) :
    Keeps TreeWhole (plusEntries env fits entries) := by
  induction entries generalizing fits with
  | nil =>
      cases fits <;> exact Keeps.pure []
  | cons entry rest inductionHypothesis =>
      cases fits with
      | zero =>
          exact Keeps.bind (treeWhole_plusIno entry.1) fun _ => Keeps.pure []
      | succ fits =>
          refine Keeps.bind (treeWhole_plusIno entry.1) fun fuseIno => ?_
          exact Keeps.bind (inductionHypothesis fits) fun others =>
            Keeps.pure _

theorem treeWhole_readdirplus
    (fh offset fits : Nat) :
    Keeps TreeWhole (readdirplus env fh offset fits) :=
  Keeps.bind (calm_handleEntries fh offset).treeWhole fun entries =>
    Keeps.map (treeWhole_plusEntries fits entries)

/-! ## Refreshing -/

/-- The node has no children. -/
def Childless
    (id : NodeId)
    (forest : Forest) : Prop :=
  ∀ name child, ¬ forest.nodes.Entry id name child

/-- A refresh of a directory without children drops nothing. -/
theorem treeWhole_refreshDir
    (nodeId : NodeId) :
    Holds (fun sys => TreeWhole sys ∧ Childless nodeId sys.forest)
      (refreshDir env nodeId) fun _ => TreeWhole := by
  refine node_bind (fun found => ?_) fun _ holds => holds.1
  cases isDir : found.isDir with
  | false =>
      exact fun _ holds => holds.1.1
  | true =>
      have cleared :
          Holds
            (fun sys => (TreeWhole sys ∧ Childless nodeId sys.forest) ∧
              sys.nodes.get? nodeId = some found)
            (modifyNode nodeId OvlNode.clearChildren)
            fun _ => WholeAt nodeId := by
        intro sys holds
        obtain ⟨⟨whole, childless⟩, stored⟩ := holds
        have same : NodeArena.SameShape sys.nodes
            (sys.nodes.modify nodeId OvlNode.clearChildren) := by
          refine .modify _ _ fun node nodeStored => ?_
          refine OvlNode.shape_clearChildren fun name => ?_
          cases child : node.getChild name with
          | none =>
              rfl
          | some below =>
              exact (childless name below ⟨node, nodeStored, child⟩).elim
        exact ⟨whole.sameShape same, same.dirNode ⟨found, stored, isDir⟩⟩
      refine Holds.bind (Keeps.check _ _) (fun _ => ?_)
        fun _ _ holds => holds.1.1
      refine Holds.bind (Keeps.gets _) (fun path => ?_)
        fun _ _ holds => holds.1.1
      refine Holds.bind cleared (fun _ => ?_) fun _ _ holds => holds.1
      refine Holds.bind (whole_loadDirImpl nodeId path _) (fun _ => ?_)
        fun _ _ holds => holds.1
      exact Holds.pure fun _ holds => holds.1

/-- Resolving a number changes nothing. -/
theorem resolveNode_state
    (ino : UInt64)
    (sys : Sys) :
    (resolveNode ino sys).2 = sys ∧
      ∀ id, (resolveNode ino sys).1 = .ok id →
        sys.forest.resolve ino = some id := by
  have read : resolveIno ino sys = (.ok (sys.forest.resolve ino), sys) := rfl
  unfold resolveNode
  rw [Act.bind_ok read]
  cases sys.forest.resolve ino with
  | none =>
      exact ⟨rfl, fun _ returned => by cases returned⟩
  | some found =>
      rw [presentOr_apply]
      refine ⟨rfl, fun id returned => ?_⟩
      cases live : sys.nodes.containsKey found with
      | false =>
          rw [live] at returned
          cases returned
      | true =>
          rw [live] at returned
          cases returned
          rfl

theorem treeWhole_ioctl
    (ino : UInt64)
    (fh : Nat)
    (compat : Bool)
    (command : IoctlCommand) :
    Holds
      (fun sys => TreeWhole sys ∧ ∀ id, command = .refreshDir →
        sys.forest.resolve ino = some id → Childless id sys.forest)
      (ioctl env ino fh compat command) fun _ => TreeWhole := by
  refine Holds.bind (Keeps.check _ _) (fun _ => ?_) fun _ _ holds => holds.1
  refine Holds.bind (?_ : Holds _ (resolveNode ino) fun outcome sys =>
    TreeWhole sys ∧ ∀ id, outcome = .ok id → command = .refreshDir →
      Childless id sys.forest) (fun nodeId => ?_) fun _ _ holds => holds.1
  · intro sys holds
    obtain ⟨same, found⟩ := resolveNode_state ino sys
    rw [same]
    exact ⟨holds.1, fun id returned isRefresh =>
      holds.2 id isRefresh (found id returned)⟩
  · cases command with
    | refreshDir =>
        exact fun sys holds => treeWhole_refreshDir nodeId sys
          ⟨holds.1, holds.2 nodeId rfl rfl⟩
    | set =>
        exact fun sys holds =>
          (calm_ioctlFlags nodeId true fh).treeWhole sys holds.1
    | get =>
        exact fun sys holds =>
          (calm_ioctlFlags nodeId false fh).treeWhole sys holds.1
    | other =>
        exact fun _ holds => holds.1

/-! ## Creating -/

/-- A name is free in a directory, and a number is left. -/
structure Vacant
    (dir : NodeId)
    (name : Name)
    (sys : Sys) : Prop where
  wholeAt : WholeAt dir sys
  absent : Absent dir name sys.forest
  room : sys.inodes.fuseMap.size < 2 ^ 64 - 2

theorem CalmFrom.vacant
    {start sys : Sys}
    {dir : NodeId}
    {name : Name}
    (calm : CalmFrom start.forest sys)
    (vacant : Vacant dir name start) :
    Vacant dir name sys where
  wholeAt := calm.wholeAt vacant.wholeAt
  absent := fun child entry => vacant.absent child (calm.1.symm.entry entry)
  room := by
    have table : sys.inodes = start.inodes := calm.2
    rw [table]
    exact vacant.room

theorem Calm.vacant
    {α : Type}
    {act : Daemon α}
    {dir : NodeId}
    {name : Name}
    (calm : Calm act) :
    Keeps (Vacant dir name) act :=
  fun sys vacant => (calm sys.forest sys ⟨.refl _, rfl⟩).vacant vacant

theorem key_markLoaded
    (parentId : NodeId)
    (name : Name)
    (ino dev : UInt64)
    (mode : Mode)
    (isDir : Bool) :
    { OvlNode.new name 0 ino dev isDir with
      parent := some parentId
      mode := mode : OvlNode }.markLoaded.key = ⟨ino, dev⟩ := by
  cases isDir <;> rfl

/-- The new node gets a number and goes into its directory. -/
theorem whole_placeChild
    {dir childId : NodeId}
    {name : Name}
    {key : InodeKey}
    (mode : Mode) :
    Holds
      (fun sys => Pending dir name key childId sys ∧
        sys.inodes.fuseMap.size < 2 ^ 64 - 2)
      (do
        let fuseIno ←
          Act.orFail (← register env childId key.ino key.dev mode) .ENOMEM
        incLookup key
        let parent ← getNode dir
        Act.check parent.isSome .ENOMEM
        modifyNode dir fun parent => parent.insertChild name childId
        pure fuseIno : Daemon UInt64)
      fun _ => TreeWhole := by
  intro sys holds
  obtain ⟨pending, room⟩ := holds
  obtain ⟨number, inodes, registered⟩ :=
    pending.table.register_total room env.order sys.nodes childId key.ino
      key.dev mode
  have listed := @pending_register env dir childId name key mode sys pending
  have returned : register env childId key.ino key.dev mode sys =
      (.ok (some number), { sys with inodes := inodes }) := by
    unfold register
    rw [registered]
  rw [returned] at listed
  rw [Act.bind_ok returned]
  have attaches :
      Holds
        (fun later => Pending dir name key childId later)
        (do
          let parent ← getNode dir
          Act.check parent.isSome .ENOMEM
          modifyNode dir fun parent => parent.insertChild name childId
          pure number : Daemon UInt64)
        fun _ => TreeWhole := by
    refine Holds.getsBind fun parent => ?_
    intro later laterHolds
    obtain ⟨ready, rfl⟩ := laterHolds
    obtain ⟨node, stored, -⟩ := ready.isDir
    have placed :=
      Holds.bind whole_insertChild (fun _ => Keeps.pure number)
        (fun _ _ holds => holds) later ready
    simp only [stored, Option.isSome_some]
    exact placed.1
  exact attaches _ (pending_incLookup _ listed)

/-- A new node with a number goes into its directory. -/
theorem treeWhole_createAndRegisterChild
    (dir : NodeId)
    (name : Name)
    (st : Stat)
    (isDir : Bool) :
    Holds (Vacant dir name) (createAndRegisterChild env dir name st isDir)
      fun _ => TreeWhole := by
  have candidate :=
    candidate_markLoaded dir name st.ino st.dev st.mode isDir
  have inserts :
      Holds (Vacant dir name)
        (insertNode
          { OvlNode.new name 0 st.ino st.dev isDir with
            parent := some dir
            mode := st.mode : OvlNode }.markLoaded)
        fun outcome sys => ∃ id, outcome = .ok id ∧
          Pending dir name ⟨st.ino, st.dev⟩ id sys ∧
          sys.inodes.fuseMap.size < 2 ^ 64 - 2 := by
    intro sys vacant
    obtain ⟨id, returned, pending⟩ :=
      pending_insertNode candidate sys ⟨vacant.wholeAt, vacant.absent⟩
    rw [key_markLoaded] at pending
    exact ⟨id, returned, pending, vacant.room⟩
  refine Holds.bind inserts (fun childId => ?_) ?_
  · intro sys holds
    obtain ⟨id, same, pending, room⟩ := holds
    cases same
    exact whole_placeChild st.mode sys ⟨pending, room⟩
  · intro errno sys holds
    obtain ⟨id, same, -⟩ := holds
    cases same

/-- The parent is a directory, and a number is left. -/
def Roomy
    (parent : UInt64)
    (sys : Sys) : Prop :=
  Heads parent sys ∧ sys.inodes.fuseMap.size < 2 ^ 64 - 2

theorem Calm.roomy
    {α : Type}
    {act : Daemon α}
    {parent : UInt64}
    (calm : Calm act) :
    Keeps (Roomy parent) act := by
  intro sys holds
  obtain ⟨-, sameTable⟩ := calm sys.forest sys ⟨.refl _, rfl⟩
  have table : (act sys).2.inodes = sys.inodes := sameTable
  refine ⟨calm.heads sys holds.1, ?_⟩
  rw [table]
  exact holds.2

/-- The name is free in the directory that the number stands for. -/
def Free
    (parent : UInt64)
    (name : Name)
    (sys : Sys) : Prop :=
  TreeWhole sys ∧
    ∀ dir, sys.forest.resolve parent = some dir → Vacant dir name sys

theorem Calm.free
    {α : Type}
    {act : Daemon α}
    {parent : UInt64}
    {name : Name}
    (calm : Calm act) :
    Keeps (Free parent name) act := by
  intro sys holds
  obtain ⟨-, sameNumbers⟩ :=
    Still.of_calm calm sys.forest sys (.refl holds.1.ok)
  refine ⟨calm.treeWhole sys holds.1, fun dir resolved => ?_⟩
  rw [sameNumbers] at resolved
  exact calm.vacant sys (holds.2 dir resolved)

/-- A lookup that finds nothing leaves a directory without the name. -/
theorem absent_of_lookup
    {parent : UInt64}
    {name : Name}
    {sys later : Sys}
    {outcome : Except Errno (Option NodeId)}
    (heads : Heads parent sys)
    (run : doLookupFile env parent name sys = (outcome, later))
    (nothing : ∀ id, outcome ≠ .ok (some id)) :
    CalmFrom sys.forest later ∧
      ∀ dir, later.forest.resolve parent = some dir →
        sys.nodes.DirNode dir ∧ Absent dir name sys.forest := by
  have looked :=
    @lookedUp_doLookupFile env sys.forest heads.whole.ok parent name sys rfl
  rw [run] at looked
  have traced : LookedUp sys.forest parent name outcome later.forest := looked
  generalize shape : later.forest = now at traced ⊢
  cases traced with
  | cached _ _ =>
      exact (nothing _ rfl).elim
  | adopted _ _ =>
      exact (nothing _ rfl).elim
  | @nothing _ nodes _ same =>
      refine ⟨⟨?_, congrArg Forest.inodes shape⟩, fun dir resolved => ?_⟩
      · have sameNodes : later.nodes = nodes := congrArg Forest.nodes shape
        rw [sameNodes]
        exact same
      · have before : sys.forest.resolve parent = some dir := by
          rw [← resolved]
          exact Forest.resolve_congr fun _ _ => same.symm.live_iff
        refine ⟨heads.isDir dir before, fun child entry => ?_⟩
        rw [doLookupFile_cached before entry] at run
        cases run
        exact nothing child rfl

/-- A lookup finds a live node, or the name is free. -/
theorem free_doLookupFile
    (parent : UInt64)
    (name : Name) :
    Holds (Roomy parent) (doLookupFile env parent name) fun outcome sys =>
      TreeWhole sys ∧
        ((∃ id, outcome = .ok (some id) ∧ sys.nodes.Live id) ∨
          Free parent name sys) := by
  intro sys holds
  obtain ⟨heads, room⟩ := holds
  have whole := @whole_doLookupFile env parent name sys heads
  have looked := @placed_doLookupFile env parent name sys heads
  refine ⟨whole, ?_⟩
  rcases run : doLookupFile env parent name sys with ⟨outcome, later⟩
  rw [run] at whole looked
  by_cases found : ∃ id, outcome = .ok (some id)
  · obtain ⟨id, same⟩ := found
    obtain ⟨pnode, placed⟩ := looked.2 id same
    exact .inl ⟨id, same, placed.within.whole.live_child placed.entry⟩
  · obtain ⟨calm, absent⟩ := absent_of_lookup heads run fun id same =>
      found ⟨id, same⟩
    refine .inr ⟨whole, fun dir resolved => ?_⟩
    obtain ⟨isDir, free⟩ := absent dir resolved
    exact calm.vacant ⟨⟨heads.whole, isDir⟩, free, room⟩

/-- A name that leads to no live node is free. -/
theorem free_isPresent
    {parent : UInt64}
    {name : Name}
    (found : Option NodeId) :
    Holds
      (fun sys => TreeWhole sys ∧
        ((∃ id, (.ok found : Except Errno _) = .ok (some id) ∧
          sys.nodes.Live id) ∨ Free parent name sys))
      (isPresent found)
      fun outcome sys => TreeWhole sys ∧
        (outcome ≠ .ok true → Free parent name sys) := by
  intro sys holds
  obtain ⟨whole, ⟨id, same, live⟩ | free⟩ := holds
  · cases same
    refine ⟨whole, fun absent => (absent ?_).elim⟩
    exact congrArg Except.ok (NodeArena.containsKey_iff.mpr live)
  · have calm := (calm_isPresent found).free sys free
    exact ⟨calm.1, fun _ => calm⟩

theorem free_check
    {parent : UInt64}
    {name : Name}
    (present : Bool) :
    Holds
      (fun sys => TreeWhole sys ∧
        ((.ok present : Except Errno Bool) ≠ .ok true →
          Free parent name sys))
      (Act.check (!present) .EEXIST : Daemon Unit)
      fun outcome sys => TreeWhole sys ∧
        (outcome = .ok () → Free parent name sys) := by
  intro sys holds
  cases present with
  | true =>
      exact ⟨holds.1, fun same => by cases same⟩
  | false =>
      exact ⟨holds.1, fun _ => holds.2 (by simp)⟩

theorem free_checkFree
    (parent : UInt64)
    (name : Name) :
    Holds (Roomy parent) (checkFree env parent name) fun outcome sys =>
      TreeWhole sys ∧ (outcome = .ok () → Free parent name sys) := by
  refine Holds.bind (free_doLookupFile parent name) (fun found => ?_)
    fun _ _ holds => ⟨holds.1, fun same => by cases same⟩
  refine Holds.bind (free_isPresent found) (fun present => ?_)
    fun _ _ holds => ⟨holds.1, fun same => by cases same⟩
  exact free_check present

theorem within_checkFree
    {parent : UInt64}
    {dir : NodeId}
    (name : Name) :
    Keeps (Within parent dir) (checkFree env parent name) := by
  refine Holds.bind (?_ : Keeps (Within parent dir) _) (fun found => ?_)
    fun _ _ within => within
  · exact fun sys within =>
      within_doLookupFile parent name sys ⟨within, within.heads⟩
  · refine Keeps.bind (calm_isPresent found).within fun present => ?_
    exact Keeps.check _ _

/-- From a free name to the directory that gets it. -/
theorem vacant_prepareCreateParent
    {parent : UInt64}
    {name : Name} :
    Holds (Free parent name) (prepareCreateParent env parent)
      fun outcome sys => TreeWhole sys ∧
        ∀ found, outcome = .ok found → Vacant found.1 name sys := by
  refine Holds.getsBind fun resolved => ?_
  refine Holds.orFailBind (fun dir isDir => ?_)
    fun _ holds => ⟨holds.1.1, fun _ same => by cases same⟩
  subst isDir
  refine Holds.imp (?_ : Holds (Vacant dir name) _ _)
    (fun _ holds => holds.1.2 dir holds.2) fun _ _ holds => holds
  refine Holds.bind (calm_getNodeUp dir).vacant (fun _ => ?_)
    fun _ _ vacant => ⟨vacant.wholeAt.1, fun _ same => by cases same⟩
  refine Holds.bind (Calm.nodePath dir).vacant (fun path => ?_)
    fun _ _ vacant => ⟨vacant.wholeAt.1, fun _ same => by cases same⟩
  refine Holds.pure fun sys vacant => ⟨vacant.wholeAt.1, fun _ same => ?_⟩
  cases same
  exact vacant

/-- The common start of the requests that make a new object. -/
theorem treeWhole_prepared
    {α : Type}
    {parent : UInt64}
    {name : Name}
    {next : NodeId × Path → Daemon α}
    (rest :
      ∀ prepared, Holds (Vacant prepared.1 name) (next prepared)
        fun _ => TreeWhole) :
    Holds (Roomy parent) (do
      checkNamemax env name
      checkFree env parent name
      let prepared ← prepareCreateParent env parent
      next prepared)
      fun _ => TreeWhole := by
  refine Holds.bind (Calm.lift _).roomy (fun _ => ?_)
    fun _ _ holds => holds.1.whole
  refine Holds.bind (free_checkFree parent name) (fun _ => ?_)
    fun _ _ holds => holds.1
  refine Holds.imp (?_ : Holds (Free parent name) _ _)
    (fun _ holds => holds.2 rfl) fun _ _ whole => whole
  refine Holds.bind vacant_prepareCreateParent (fun prepared => ?_)
    fun _ _ holds => holds.1
  exact fun sys holds => rest prepared sys (holds.2 prepared rfl)

theorem treeWhole_statAndRegisterChild
    (dir : NodeId)
    (name : Name)
    (path : Path) :
    Holds (Vacant dir name) (statAndRegisterChild env dir name path)
      fun _ => TreeWhole := by
  refine Holds.bind (Calm.lift _).vacant (fun st => ?_)
    fun _ _ vacant => vacant.wholeAt.1
  exact Holds.bind (treeWhole_createAndRegisterChild dir name st _)
    (fun _ => Keeps.pure _) fun _ _ whole => whole

/-- A calm step before a new object goes into its directory. -/
theorem vacant_bind
    {α β : Type}
    {dir : NodeId}
    {name : Name}
    {first : Daemon β}
    {next : β → Daemon α}
    (calm : Calm first)
    (rest :
      ∀ value, Holds (Vacant dir name) (next value) fun _ => TreeWhole) :
    Holds (Vacant dir name) (first >>= next) fun _ => TreeWhole :=
  Holds.bind calm.vacant rest fun _ _ vacant => vacant.wholeAt.1

theorem treeWhole_installNew
    (wd : Name)
    (dir : NodeId)
    (path : Path)
    (name : Name) :
    Holds (Vacant dir name) (installNew env wd dir path name)
      fun _ => TreeWhole := by
  refine vacant_bind (.lift _) fun place => ?_
  refine vacant_bind (.lift _) fun _ => ?_
  refine vacant_bind (.lift _) fun _ => ?_
  exact treeWhole_statAndRegisterChild dir name _

theorem treeWhole_mknod
    (caller : Caller)
    (parent : UInt64)
    (name : Name)
    (mode : Mode)
    (rdev : UInt32) :
    Holds (Roomy parent) (mknod env caller parent name mode rdev)
      fun _ => TreeWhole := by
  refine treeWhole_prepared fun prepared => ?_
  refine vacant_bind (.lift _) fun wd => ?_
  refine vacant_bind (.lift _) fun _ => ?_
  refine vacant_bind (.lift _) fun _ => ?_
  refine vacant_bind (calm_inheritNewAcl prepared.1 wd _) fun _ => ?_
  exact treeWhole_installNew wd prepared.1 prepared.2 name

theorem treeWhole_mkdir
    (caller : Caller)
    (parent : UInt64)
    (name : Name)
    (mode : Mode) :
    Holds (Roomy parent) (mkdir env caller parent name mode)
      fun _ => TreeWhole := by
  refine treeWhole_prepared fun prepared => ?_
  refine vacant_bind (.node _) fun pnode => ?_
  refine vacant_bind (.lift _) fun wd => ?_
  refine vacant_bind (.lift _) fun _ => ?_
  refine vacant_bind (.lift _) fun _ => ?_
  refine vacant_bind (.lift _) fun _ => ?_
  refine vacant_bind (calm_inheritNewAcl prepared.1 wd _) fun _ => ?_
  refine vacant_bind (.lift _) fun place => ?_
  refine vacant_bind (.lift _) fun _ => ?_
  refine vacant_bind (.lift _) fun _ => ?_
  exact treeWhole_statAndRegisterChild prepared.1 name _

theorem treeWhole_symlink
    (caller : Caller)
    (parent : UInt64)
    (name : Name)
    (target : List UInt8) :
    Holds (Roomy parent) (symlink env caller parent name target)
      fun _ => TreeWhole := by
  refine treeWhole_prepared fun prepared => ?_
  refine vacant_bind (.lift _) fun wd => ?_
  refine vacant_bind (.lift _) fun _ => ?_
  refine vacant_bind (.lift _) fun _ => ?_
  exact treeWhole_installNew wd prepared.1 prepared.2 name

theorem treeWhole_create
    (caller : Caller)
    (parent : UInt64)
    (name : Name)
    (mode : Mode)
    (flags : OpenFlags) :
    Holds (Roomy parent) (create env caller parent name mode flags)
      fun _ => TreeWhole := by
  have checks :
      Holds (Roomy parent) (createsOverWhiteout env parent name)
        fun outcome sys => TreeWhole sys ∧
          ∀ whited, outcome = .ok whited → Free parent name sys := by
    refine Holds.bind (free_doLookupFile parent name) (fun found => ?_)
      fun _ _ holds => ⟨holds.1, fun _ same => by cases same⟩
    refine Holds.bind (free_isPresent found) (fun present => ?_)
      fun _ _ holds => ⟨holds.1, fun _ same => by cases same⟩
    refine Holds.bind (free_check present) (fun _ => ?_)
      fun _ _ holds => ⟨holds.1, fun _ same => by cases same⟩
    refine Holds.imp (?_ : Keeps (Free parent name) _)
      (fun _ holds => holds.2 rfl) fun _ _ free => ⟨free.1, fun _ _ => free⟩
    split
    · exact Keeps.pure true
    · exact Keeps.gets _
  refine Holds.bind (Calm.lift _).roomy (fun _ => ?_)
    fun _ _ holds => holds.1.whole
  refine Holds.bind checks (fun whited => ?_) fun _ _ holds => holds.1
  refine Holds.imp (?_ : Holds (Free parent name) _ _)
    (fun _ holds => holds.2 whited rfl) fun _ _ whole => whole
  refine Holds.bind vacant_prepareCreateParent (fun prepared => ?_)
    fun _ _ holds => holds.1
  refine Holds.imp (?_ : Holds (Vacant prepared.1 name) _ _)
    (fun _ holds => holds.2 prepared rfl) fun _ _ whole => whole
  refine vacant_bind (.lift _) fun fd => ?_
  refine vacant_bind (.lift _) fun _ => ?_
  refine vacant_bind (calm_inheritAcl prepared.1 fd) fun _ => ?_
  refine vacant_bind (.lift _) fun st => ?_
  refine Holds.bind
    (treeWhole_createAndRegisterChild prepared.1 name st false)
    (fun fuseIno => ?_) fun _ _ whole => whole
  exact Keeps.bind (calm_allocFh fd).treeWhole fun _ => Keeps.pure _

/-- `link` resolves its directory before it looks the name up. -/
theorem treeWhole_link
    (ino newparent : UInt64)
    (newname : Name) :
    Holds (Roomy newparent) (link env ino newparent newname)
      fun _ => TreeWhole := by
  refine Holds.bind (Calm.lift _).roomy (fun _ => ?_)
    fun _ _ holds => holds.1.whole
  refine Holds.bind (Keeps.gets _) (fun resolved => ?_)
    fun _ _ holds => holds.1.whole
  refine Holds.orFailBind (fun srcId _ => ?_) fun _ holds => holds.1.whole
  refine Holds.bind (calm_getNodeUp srcId).roomy (fun _ => ?_)
    fun _ _ holds => holds.1.whole
  refine Holds.getsBind fun destination => ?_
  refine Holds.orFailBind (fun dir isDir => ?_)
    fun _ holds => holds.1.1.whole
  subst isDir
  have checks :
      Holds
        (fun sys => Roomy newparent sys ∧
          sys.forest.resolve newparent = some dir)
        (checkFree env newparent newname)
        fun outcome sys => TreeWhole sys ∧
          (outcome = .ok () → Vacant dir newname sys) := by
    intro sys holds
    obtain ⟨⟨heads, room⟩, resolved⟩ := holds
    have free := @free_checkFree env newparent newname sys ⟨heads, room⟩
    have stays := @within_checkFree env newparent dir newname sys
      ⟨heads.whole, resolved, heads.isDir dir resolved⟩
    exact ⟨free.1, fun same => (free.2 same).2 dir stays.resolved⟩
  refine Holds.bind checks (fun _ => ?_) fun _ _ holds => holds.1
  refine Holds.imp (?_ : Holds (Vacant dir newname) _ _)
    (fun _ holds => holds.2 rfl) fun _ _ whole => whole
  refine vacant_bind (calm_getNodeUp dir) fun _ => ?_
  refine vacant_bind (.gets _) fun srcPath => ?_
  refine vacant_bind (.gets _) fun dparentPath => ?_
  refine vacant_bind (.lift _) fun _ => ?_
  refine vacant_bind (.lift _) fun source => ?_
  refine vacant_bind (.lift _) fun dest => ?_
  refine vacant_bind (.lift _) fun _ => ?_
  refine vacant_bind (.lift _) fun st => ?_
  exact Holds.bind (treeWhole_createAndRegisterChild dir newname st false)
    (fun _ => Keeps.pure _) fun _ _ whole => whole

end Daemon

end FuseOverlay
