import FuseOverlay.DaemonSteps
import FuseOverlay.TreeLookup

namespace FuseOverlay

/-!
# Requests that let the tree grow

Every request leaves a tree in which children and parent pointers agree,
whatever its system calls answer.  Most handlers only look up, load and copy
up; the proof is about the places that register nodes, take them out of the
tree or move them.
-/

open Act (Keeps Holds)

namespace InodeTable

/-- The later table lists no node that was not listed before. -/
def Narrows
    (earlier later : InodeTable) : Prop :=
  ∀ key entry, later.table.get? key = some entry →
    ∃ old, earlier.table.get? key = some old ∧
      ∀ id ∈ entry.nodes, id ∈ old.nodes

/-- A change of one entry that adds no node. -/
theorem narrows_modify
    (inodes : InodeTable)
    (key : InodeKey)
    {change : OvlIno → OvlIno}
    (fewer : ∀ entry, ∀ id ∈ (change entry).nodes, id ∈ entry.nodes) :
    inodes.Narrows
      { inodes with table := inodes.table.modify key change } := by
  intro query entry stored
  simp only [FMap.get?_modify] at stored
  split at stored
  · next same =>
      subst same
      obtain ⟨old, oldStored, rfl⟩ := Option.map_eq_some_iff.mp stored
      exact ⟨old, oldStored, fewer old⟩
  · exact ⟨entry, stored, fun _ member => member⟩

theorem narrows_removeNodeId
    (inodes : InodeTable)
    (key : InodeKey)
    (id : NodeId) :
    inodes.Narrows (inodes.removeNodeId key id) :=
  inodes.narrows_modify key fun _ _ member => (List.mem_filter.mp member).1

theorem narrows_incLookup
    (inodes : InodeTable)
    (key : InodeKey) :
    inodes.Narrows (inodes.incLookup key) :=
  inodes.narrows_modify key fun _ _ member => member

theorem narrows_forget
    (inodes : InodeTable)
    (ino nlookup : UInt64) :
    inodes.Narrows (inodes.forget ino nlookup).2 := by
  intro key entry stored
  rcases inodes.forget_cases ino nlookup with
    unchanged | ⟨target, -, -, dropped⟩ | ⟨target, old, -, -, dropped⟩ |
    ⟨target, old, changed, oldStored, -, sameNodes, dropped⟩
  · rw [unchanged] at stored
    exact ⟨entry, stored, fun _ => id⟩
  · rw [dropped] at stored
    exact ⟨entry, stored, fun _ => id⟩
  · rw [dropped] at stored
    simp only [FMap.get?_remove] at stored
    split at stored
    · cases stored
    · exact ⟨entry, stored, fun _ => id⟩
  · rw [dropped] at stored
    simp only [FMap.get?_set] at stored
    split at stored
    · next same =>
        cases stored
        exact ⟨old, same ▸ oldStored, fun _ => sameNodes ▸ id⟩
    · exact ⟨entry, stored, fun _ => id⟩

end InodeTable

namespace Daemon

open Syscall Whiteout

variable {env : Env}

/-! ## Actions that keep the tree right -/

/-- The tree of the state is right. -/
def TreeOk (sys : Sys) : Prop :=
  sys.forest.Ok

/-- The tree is right and holds the node. -/
def TreeOkWith
    (id : NodeId)
    (sys : Sys) : Prop :=
  sys.forest.Ok ∧ sys.nodes.Live id

theorem Still.treeOk
    {α : Type}
    {act : Daemon α}
    (still : Still act) :
    Keeps TreeOk act :=
  fun sys ok => (still sys.forest sys (.refl ok)).1.ok

theorem Calm.treeOk
    {α : Type}
    {act : Daemon α}
    (calm : Calm act) :
    Keeps TreeOk act :=
  (Still.of_calm calm).treeOk

theorem treeOk_doLookupFile
    (ino : UInt64)
    (name : Name) :
    Keeps TreeOk (doLookupFile env ino name) :=
  fun sys ok =>
    ((lookedUp_doLookupFile ok ino name sys rfl).sound ok).ok

/-- Reading a node and failing without it. -/
theorem node_bind
    {α : Type}
    {pre : Sys → Prop}
    {post : Except Errno α → Sys → Prop}
    {id : NodeId}
    {next : OvlNode → Daemon α}
    (found :
      ∀ node, Holds (fun sys => pre sys ∧ sys.nodes.get? id = some node)
        (next node) post)
    (missing : ∀ sys, pre sys → post (.error .ENOENT) sys) :
    Holds pre (Daemon.node id >>= next) post := by
  intro sys holds
  rw [Act.bind_apply]
  cases stored : sys.nodes.get? id with
  | none =>
      have answer : Daemon.node id sys = (.error .ENOENT, sys) := by
        unfold Daemon.node
        rw [Act.bind_ok (show getNode id sys = (.ok none, sys) by
          rw [← stored]
          rfl)]
        rfl
      rw [answer]
      exact missing sys holds
  | some node =>
      have answer : Daemon.node id sys = (.ok node, sys) := by
        unfold Daemon.node
        rw [Act.bind_ok (show getNode id sys = (.ok (some node), sys) by
          rw [← stored]
          rfl)]
        rfl
      rw [answer]
      exact found node sys ⟨holds, stored⟩

/-- A looked up node that has to be live. -/
theorem presentOr_bind
    {α : Type}
    {pre : Sys → Prop}
    {post : Except Errno α → Sys → Prop}
    {found : Option NodeId}
    {errno : Errno}
    {next : NodeId → Daemon α}
    (present :
      ∀ id, found = some id →
        Holds (fun sys => pre sys ∧ sys.nodes.Live id) (next id) post)
    (missing : ∀ sys, pre sys → post (.error errno) sys) :
    Holds pre (presentOr found errno >>= next) post := by
  intro sys holds
  rw [Act.bind_apply]
  cases found with
  | none =>
      exact missing sys holds
  | some id =>
      rw [presentOr_apply]
      cases live : sys.nodes.containsKey id with
      | true =>
          exact present id rfl sys
            ⟨holds, NodeArena.containsKey_iff.mp live⟩
      | false =>
          exact missing sys holds

theorem treeOkWith_register
    (id : NodeId)
    (ino dev : UInt64)
    (mode : Mode) :
    Keeps (TreeOkWith id) (register env id ino dev mode) := by
  rintro sys ⟨ok, live⟩
  unfold register
  split
  · exact ⟨ok, live⟩
  · next number inodes registered =>
      have sound := (Forest.Sound.refl ok).register
        (ok.tree.bounded live) registered
      exact ⟨sound.ok, live⟩

theorem treeOk_incLookup
    (key : InodeKey) :
    Keeps TreeOk (incLookup key) :=
  fun _ ok => ((Forest.Sound.refl ok).incLookup key).ok

/-! ## Looking up and attributes -/

theorem calm_resolveNode
    (ino : UInt64) :
    Calm (resolveNode ino) := by
  refine .bind (.gets _) fun resolved => ?_
  refine .bind (.orFail _ _) fun id => ?_
  refine .bind (.gets _) fun live => ?_
  exact .bind (.check _ _) fun _ => .pure _

theorem calm_isPresent
    (found : Option NodeId) :
    Calm (isPresent found) := by
  cases found with
  | none =>
      exact .pure false
  | some id =>
      exact .gets _

theorem isPresent_live
    {id : NodeId}
    {sys : Sys}
    (live : sys.nodes.Live id) :
    isPresent (some id) sys = (.ok true, sys) := by
  have held : sys.nodes.containsKey id = true :=
    NodeArena.containsKey_iff.mpr live
  rw [← held]
  rfl

theorem calm_allocFh
    (fd : Fd) :
    Calm (allocFh fd) :=
  .apart (fun _ => rfl) (fun _ => rfl) fun _ _ _ holds => holds

theorem calm_setattrFd
    (layerIdx : Nat)
    (path : Path)
    (change : SetAttr) :
    Calm (setattrFd env layerIdx path change) := by
  refine .bind (.gets _) fun handle => ?_
  cases handle with
  | some fd =>
      exact .pure _
  | none =>
      exact .bind (.lift _) fun opened => .pure _

/-- The fast path of a lookup changes a count at most. -/
theorem keeps_lookupFast
    {kept : Sys → Prop}
    (calm : ∀ {α : Type} {act : Daemon α}, Calm act → Keeps kept act)
    (counts : ∀ key, Keeps kept (incLookup key))
    (parent : UInt64)
    (name : Name) :
    Keeps kept (lookupFast env parent name) := by
  refine Keeps.bind (Keeps.gets _) fun resolved => ?_
  cases resolved with
  | none =>
      exact Keeps.pure none
  | some parentId =>
      refine Keeps.bind (Keeps.gets _) fun found => ?_
      cases found with
      | none =>
          exact Keeps.pure none
      | some pnode =>
          refine Keeps.bind (Keeps.check _ _) fun _ => ?_
          cases pnode.getChild name with
          | none =>
              exact Keeps.pure none
          | some childId =>
              refine Keeps.bind (calm (.node childId)) fun child => ?_
              refine Keeps.bind (Keeps.check _ _) fun _ => ?_
              refine Keeps.bind (Keeps.gets _) fun entry => ?_
              cases entry with
              | none =>
                  exact Keeps.pure none
              | some entry =>
                  simp only
                  split
                  · refine Keeps.bind (Keeps.gets _) fun path => ?_
                    refine Keeps.bind
                      (calm (.attempt (.rplStatWithPath childId path)))
                      fun outcome => ?_
                    cases outcome with
                    | error errno =>
                        exact Keeps.pure none
                    | ok st =>
                        exact Keeps.bind (counts _) fun _ => Keeps.pure _
                  · exact Keeps.pure none

theorem treeOk_of_narrows
    {sys : Sys}
    {inodes : InodeTable}
    (ok : TreeOk sys)
    (narrows : sys.inodes.Narrows inodes) :
    TreeOk { sys with inodes := inodes } := by
  refine ⟨ok.tree, fun stored member => ?_⟩
  obtain ⟨old, oldStored, members⟩ := narrows _ _ stored
  exact ok.listed oldStored (members _ member)

theorem treeOk_forget
    (ino nlookup : UInt64) :
    Keeps TreeOk (forget ino nlookup) := by
  refine Keeps.bind (Keeps.modify fun sys ok => ?_) fun _ => Keeps.pure _
  exact treeOk_of_narrows ok (sys.inodes.narrows_forget ino nlookup)

theorem calm_readlink
    (ino : UInt64) :
    Calm (readlink env ino) := by
  refine .bind (.gets _) fun resolved => ?_
  refine .bind (.orFail _ _) fun nodeId => ?_
  refine .bind (.gets _) fun path => ?_
  refine .bind (.node nodeId) fun found => ?_
  refine .bind (.lift _) fun _ => ?_
  exact .map (.lift _)

theorem calm_setattr
    (ino : UInt64)
    (change : SetAttr) :
    Calm (setattr env ino change) := by
  refine .bind (calm_resolveNode ino) fun nodeId => ?_
  refine .bind (calm_getNodeUp nodeId) fun _ => ?_
  refine .bind (.gets _) fun path => ?_
  refine .bind (.node nodeId) fun found => ?_
  refine .bind (.lift _) fun layer => ?_
  refine .bind (calm_setattrFd _ path change) fun fd => ?_
  refine .bind (.lift _) fun _ => ?_
  refine .bind (.lift _) fun _ => ?_
  refine .bind (.lift _) fun _ => ?_
  refine .bind (.attempt (.rplStat nodeId)) fun outcome => ?_
  cases outcome with
  | ok st =>
      exact .pure _
  | error errno =>
      exact .fail _

/-! ## Creating -/

/-- A stored node that is ready to become a child. -/
def Ready
    (parentId : NodeId)
    (name : Name)
    (id : NodeId)
    (sys : Sys) : Prop :=
  sys.forest.Ok ∧
    ∃ node, sys.nodes.get? id = some node ∧ Candidate parentId name node

theorem ready_register
    {parentId id : NodeId}
    {name : Name}
    (ino dev : UInt64)
    (mode : Mode) :
    Keeps (Ready parentId name id) (register env id ino dev mode) := by
  rintro sys ⟨ok, node, stored, candidate⟩
  have kept := @treeOkWith_register env id ino dev mode sys ⟨ok, node, stored⟩
  refine ⟨kept.1, node, ?_, candidate⟩
  unfold register
  split <;> exact stored

theorem ready_incLookup
    {parentId id : NodeId}
    {name : Name}
    (key : InodeKey) :
    Keeps (Ready parentId name id) (incLookup key) :=
  fun sys holds => ⟨treeOk_incLookup key sys holds.1, holds.2⟩

theorem treeOk_insertChild
    {parentId id : NodeId}
    {name : Name} :
    Holds (Ready parentId name id)
      (modifyNode parentId fun parent => parent.insertChild name id)
      fun _ => TreeOk := by
  rintro sys ⟨ok, node, stored, points, label, bare, -⟩
  refine ⟨ok.tree.attach stored points label ?_, ok.listed⟩
  rintro query below ⟨found, foundStored, isChild⟩
  change sys.nodes.get? id = some found at foundStored
  rw [stored] at foundStored
  cases foundStored
  rw [bare] at isChild
  cases isChild

theorem ready_insertNode
    {parentId : NodeId}
    {name : Name}
    {child : OvlNode}
    (candidate : Candidate parentId name child) :
    Holds TreeOk (insertNode child) fun outcome sys =>
      ∃ id, outcome = .ok id ∧ Ready parentId name id sys := by
  intro sys ok
  have sound := Forest.Sound.insert ok candidate.2.2.1
  refine ⟨sys.nodes.nextId, rfl, sound.ok, child, ?_, candidate⟩
  exact (NodeArena.get?_insert ..).trans (if_pos rfl)

/-- The node of a new object stands under its name and has no children. -/
theorem candidate_markLoaded
    (parentId : NodeId)
    (name : Name)
    (ino dev : UInt64)
    (mode : Mode)
    (isDir : Bool) :
    Candidate parentId name
      { OvlNode.new name 0 ino dev isDir with
        parent := some parentId
        mode := mode : OvlNode }.markLoaded := by
  refine ⟨?_, ?_, fun query => ?_, ?_⟩
  · cases isDir <;> rfl
  · cases isDir <;> rfl
  · cases isDir <;> simp [OvlNode.markLoaded, OvlNode.new, OvlNode.getChild]
  · cases isDir <;> rfl

theorem treeOk_createAndRegisterChild
    (parentId : NodeId)
    (name : Name)
    (st : Stat)
    (isDir : Bool) :
    Keeps TreeOk (createAndRegisterChild env parentId name st isDir) := by
  have candidate := 
    candidate_markLoaded parentId name st.ino st.dev st.mode isDir
  refine Holds.bind (ready_insertNode candidate) (fun childId => ?_) ?_
  · have rest :
        Holds (Ready parentId name childId) (do
          let fuseIno ←
            Act.orFail (← register env childId st.ino st.dev st.mode) .ENOMEM
          incLookup ⟨st.ino, st.dev⟩
          let parent ← getNode parentId
          Act.check parent.isSome .ENOMEM
          modifyNode parentId fun parent => parent.insertChild name childId
          pure fuseIno : Daemon UInt64)
          fun _ => TreeOk := by
      refine Holds.bind (ready_register _ _ _) (fun answer => ?_)
        fun _ _ holds => holds.1
      refine Holds.bind (Keeps.orFail answer _) (fun fuseIno => ?_)
        fun _ _ holds => holds.1
      refine Holds.bind (ready_incLookup _) (fun _ => ?_)
        fun _ _ holds => holds.1
      refine Holds.bind (Keeps.gets _) (fun parent => ?_)
        fun _ _ holds => holds.1
      refine Holds.bind (Keeps.check _ _) (fun _ => ?_)
        fun _ _ holds => holds.1
      exact Holds.bind treeOk_insertChild (fun _ => Keeps.pure fuseIno)
        fun _ _ holds => holds
    rintro sys ⟨id, same, ready⟩
    cases same
    exact rest sys ready
  · rintro errno sys ⟨id, same, -⟩
    cases same

theorem calm_prepareCreateParent
    (parent : UInt64) :
    Calm (prepareCreateParent env parent) := by
  refine .bind (.gets _) fun resolved => ?_
  refine .bind (.orFail _ _) fun pnodeId => ?_
  refine .bind (calm_getNodeUp pnodeId) fun _ => ?_
  exact .bind (.gets _) fun path => .pure _

theorem calm_inheritAcl
    (parentId : NodeId)
    (target : Fd) :
    Calm (inheritAcl env parentId target) := by
  unfold inheritAcl
  split
  · exact .pure ()
  · refine .bind (.gets _) fun path => ?_
    refine .bind (.gets _) fun found => ?_
    cases found with
    | none =>
        exact .pure ()
    | some parent =>
        simp only
        split
        · exact .pure ()
        · refine .bind (.lift _) fun value => ?_
          split
          · exact .pure ()
          · exact .pure ()
          · exact .bind (.lift _) fun _ => .pure _

theorem calm_inheritNewAcl
    (parentId : NodeId)
    (wd : Name)
    (flags : OpenFlags) :
    Calm (inheritNewAcl env parentId wd flags) := by
  refine .bind (.lift _) fun opened => ?_
  cases opened with
  | ok fd =>
      exact calm_inheritAcl parentId fd
  | error errno =>
      exact .pure ()

/-! ## Requests that remove nothing -/

/--
A property that is kept while nodes are added, linked and counted.  The
requests that take no node away keep it if the lookups they start with do.
-/
structure FillRule
    (env : Env)
    (kept : Sys → Prop) : Prop where
  calm : ∀ {α : Type} {act : Daemon α}, Calm act → Keeps kept act
  loads :
    ∀ nodeId path lastLayerStop,
      Keeps kept (loadDirImpl env nodeId path lastLayerStop)
  clears :
    ∀ nodeId, Keeps kept (modifyNode nodeId OvlNode.clearChildren)
  registers :
    ∀ id ino dev mode,
      Keeps (fun sys => kept sys ∧ sys.nodes.Live id)
        (register env id ino dev mode)
  counts : ∀ key, Keeps kept (incLookup key)
  creates :
    ∀ parentId name st isDir,
      Keeps kept (createAndRegisterChild env parentId name st isDir)

/-- A property that lookups keep too. -/
structure GrowthRule
    (env : Env)
    (kept : Sys → Prop) : Prop extends FillRule env kept where
  looksUp : ∀ ino name, Keeps kept (doLookupFile env ino name)

/--
In the states of `ready`, which copy-ups keep, a lookup of the name keeps the
property.
-/
structure AskRule
    (env : Env)
    (kept ready : Sys → Prop)
    (parent : UInt64)
    (name : Name) : Prop extends CopyRule ready where
  weaken : ∀ sys, ready sys → kept sys
  looksUp : Holds ready (doLookupFile env parent name) fun _ => kept

theorem GrowthRule.asks
    {kept : Sys → Prop}
    (rule : GrowthRule env kept)
    (parent : UInt64)
    (name : Name) :
    AskRule env kept kept parent name where
  lifts := fun act => rule.calm (.lift act)
  marks := fun nodeId => rule.calm (calm_markUpper nodeId)
  weaken := fun _ holds => holds
  looksUp := rule.looksUp parent name

theorem treeOk_growthRule : GrowthRule env TreeOk where
  calm := Calm.treeOk
  loads := fun nodeId path stop => (still_loadDirImpl nodeId path stop).treeOk
  clears := fun nodeId _ ok => ⟨ok.tree.clear nodeId, ok.listed⟩
  looksUp := treeOk_doLookupFile
  registers := treeOkWith_register
  counts := treeOk_incLookup
  creates := treeOk_createAndRegisterChild

/-- A directory is loaded or left alone. -/
theorem keeps_reloadDir
    {kept : Sys → Prop}
    {nodeId : NodeId}
    (loads :
      ∀ path lastLayerStop,
        Keeps kept (loadDirImpl env nodeId path lastLayerStop)) :
    Keeps kept (reloadDir env nodeId) := by
  refine Keeps.bind (Keeps.gets _) fun found => ?_
  cases found with
  | none =>
      exact Keeps.pure true
  | some node =>
      simp only
      split
      · exact Keeps.pure true
      · refine Keeps.bind (Keeps.gets _) fun path => ?_
        exact Keeps.bind (loads path _) fun _ => Keeps.pure true

namespace FillRule

variable {kept : Sys → Prop} (rule : FillRule env kept)

include rule

theorem ensureRootLoaded :
    Keeps kept (Daemon.ensureRootLoaded env) := by
  refine Keeps.bind (Keeps.gets _) fun root => ?_
  split
  · exact Keeps.pure ()
  · exact rule.loads rootId [] none

theorem reloadDir
    (nodeId : NodeId) :
    Keeps kept (Daemon.reloadDir env nodeId) :=
  keeps_reloadDir fun path stop => rule.loads nodeId path stop

theorem countsWith
    (key : InodeKey)
    (id : NodeId) :
    Keeps (fun sys => kept sys ∧ sys.nodes.Live id) (incLookup key) :=
  fun sys holds => ⟨rule.counts key sys holds.1, holds.2⟩

theorem lookupIno
    (nodeId : NodeId)
    (found : OvlNode)
    (mode : Mode) :
    Keeps (fun sys => kept sys ∧ sys.nodes.Live nodeId)
      (Daemon.lookupIno env nodeId found mode) := by
  unfold Daemon.lookupIno
  split
  · refine Keeps.bind (rule.registers nodeId _ _ mode) fun answer => ?_
    refine Keeps.bind (Keeps.orFail answer _) fun number => ?_
    exact Keeps.bind (rule.countsWith _ nodeId) fun _ => Keeps.pure _
  · exact Keeps.pure _

theorem lookupSlow
    {parent : UInt64}
    {name : Name}
    (looksUp : Keeps kept (doLookupFile env parent name)) :
    Keeps kept (Daemon.lookupSlow env parent name) := by
  refine Keeps.bind looksUp fun found => ?_
  refine presentOr_bind (fun nodeId _ => ?_) fun _ holds => holds
  refine Holds.imp ?_ (fun _ holds => holds.1) fun _ _ holds => holds
  refine Keeps.bind (rule.calm (.node nodeId)) fun before => ?_
  refine Keeps.bind (Keeps.runIf ?_) fun _ => ?_
  · exact Keeps.bind (rule.reloadDir nodeId) fun loaded => Keeps.check _ _
  · refine Keeps.bind (rule.calm (.rplStat nodeId)) fun st => ?_
    refine node_bind (fun found => ?_) fun _ holds => holds
    refine Holds.imp
      (Keeps.bind (rule.lookupIno nodeId found st.mode) fun _ => Keeps.pure _)
      (fun sys holds => ⟨holds.1, found, holds.2⟩) fun _ _ holds => holds.1

/-- Names with the prefix `.wh.` are not looked up. -/
theorem lookup
    {parent : UInt64}
    {name : Name}
    (looksUp :
      hasWhPrefix name = false →
        Keeps kept (doLookupFile env parent name)) :
    Keeps kept (Daemon.lookup env parent name) := by
  unfold Daemon.lookup
  cases reserved : hasWhPrefix name with
  | true =>
      exact Keeps.fail _
  | false =>
      refine Keeps.bind (Keeps.check _ _) fun _ => ?_
      refine Keeps.bind (keeps_lookupFast rule.calm rule.counts parent name)
        fun found => ?_
      cases found with
      | some reply =>
          exact Keeps.pure reply
      | none =>
          exact rule.lookupSlow (looksUp reserved)

theorem getattr
    (ino : UInt64) :
    Keeps kept (Daemon.getattr env ino) := by
  unfold Daemon.getattr
  split
  · exact Keeps.bind rule.ensureRootLoaded fun _ =>
      rule.calm (.map (.rplStat rootId))
  · refine Keeps.bind (rule.calm (calm_resolveNode ino)) fun nodeId => ?_
    exact rule.calm (.map (.rplStat nodeId))

theorem statAndRegisterChild
    (parentId : NodeId)
    (name : Name)
    (path : Path) :
    Keeps kept (Daemon.statAndRegisterChild env parentId name path) := by
  refine Keeps.bind (rule.calm (.lift _)) fun st => ?_
  exact Keeps.bind (rule.creates parentId name st _) fun _ => Keeps.pure _

theorem installNew
    (wd : Name)
    (pnodeId : NodeId)
    (pnodePath : Path)
    (name : Name) :
    Keeps kept (Daemon.installNew env wd pnodeId pnodePath name) := by
  refine Keeps.bind (rule.calm (.lift _)) fun place => ?_
  obtain ⟨dir, last⟩ := place
  refine Keeps.bind (rule.calm (.lift _)) fun _ => ?_
  refine Keeps.bind (rule.calm (.lift _)) fun _ => ?_
  exact rule.statAndRegisterChild pnodeId name _

/-! ### Requests that ask for a free name -/

section Asking

variable
  {ready : Sys → Prop}
  {parent : UInt64}
  {name : Name}
  (asks : AskRule env kept ready parent name)

include asks

theorem checkFree :
    Holds ready (Daemon.checkFree env parent name) fun _ => kept := by
  refine Holds.bind asks.looksUp (fun found => ?_) fun _ _ holds => holds
  refine Keeps.bind (rule.calm (calm_isPresent found)) fun present => ?_
  exact Keeps.check _ _

theorem mknod
    (caller : Caller)
    (mode : Mode)
    (rdev : UInt32) :
    Holds ready (Daemon.mknod env caller parent name mode rdev)
      fun _ => kept := by
  refine Holds.bind (asks.lifts _) (fun _ => ?_) fun _ => asks.weaken
  refine Holds.bind (rule.checkFree asks) (fun _ => ?_) fun _ _ holds => holds
  refine Keeps.bind (rule.calm (calm_prepareCreateParent parent))
    fun prepared => ?_
  obtain ⟨pnodeId, pnodePath⟩ := prepared
  refine Keeps.bind (rule.calm (.lift _)) fun wd => ?_
  refine Keeps.bind (rule.calm (.lift _)) fun _ => ?_
  refine Keeps.bind (rule.calm (.lift _)) fun _ => ?_
  refine Keeps.bind (rule.calm (calm_inheritNewAcl pnodeId wd _)) fun _ => ?_
  exact rule.installNew wd pnodeId pnodePath name

theorem mkdir
    (caller : Caller)
    (mode : Mode) :
    Holds ready (Daemon.mkdir env caller parent name mode)
      fun _ => kept := by
  refine Holds.bind (asks.lifts _) (fun _ => ?_) fun _ => asks.weaken
  refine Holds.bind (rule.checkFree asks) (fun _ => ?_) fun _ _ holds => holds
  refine Keeps.bind (rule.calm (calm_prepareCreateParent parent))
    fun prepared => ?_
  obtain ⟨pnodeId, pnodePath⟩ := prepared
  refine Keeps.bind (rule.calm (.node pnodeId)) fun pnode => ?_
  refine Keeps.bind (rule.calm (.lift _)) fun wd => ?_
  refine Keeps.bind (rule.calm (.lift _)) fun _ => ?_
  refine Keeps.bind (rule.calm (.lift _)) fun _ => ?_
  refine Keeps.bind (rule.calm (.lift _)) fun _ => ?_
  refine Keeps.bind (rule.calm (calm_inheritNewAcl pnodeId wd _)) fun _ => ?_
  refine Keeps.bind (rule.calm (.lift _)) fun place => ?_
  obtain ⟨dir, last⟩ := place
  refine Keeps.bind (rule.calm (.lift _)) fun _ => ?_
  refine Keeps.bind (rule.calm (.lift _)) fun _ => ?_
  exact rule.statAndRegisterChild pnodeId name _

theorem symlink
    (caller : Caller)
    (target : List UInt8) :
    Holds ready (Daemon.symlink env caller parent name target)
      fun _ => kept := by
  refine Holds.bind (asks.lifts _) (fun _ => ?_) fun _ => asks.weaken
  refine Holds.bind (rule.checkFree asks) (fun _ => ?_) fun _ _ holds => holds
  refine Keeps.bind (rule.calm (calm_prepareCreateParent parent))
    fun prepared => ?_
  obtain ⟨pnodeId, pnodePath⟩ := prepared
  refine Keeps.bind (rule.calm (.lift _)) fun wd => ?_
  refine Keeps.bind (rule.calm (.lift _)) fun _ => ?_
  refine Keeps.bind (rule.calm (.lift _)) fun _ => ?_
  exact rule.installNew wd pnodeId pnodePath name

theorem link
    (ino : UInt64) :
    Holds ready (Daemon.link env ino parent name) fun _ => kept := by
  refine Holds.bind (asks.lifts _) (fun _ => ?_) fun _ => asks.weaken
  refine Holds.bind (Keeps.gets _) (fun resolved => ?_) fun _ => asks.weaken
  refine Holds.bind (Keeps.orFail resolved _) (fun srcId => ?_)
    fun _ => asks.weaken
  refine Holds.bind (asks.getNodeUp srcId) (fun _ => ?_)
    fun _ => asks.weaken
  refine Holds.bind (Keeps.gets _) (fun resolvedParent => ?_)
    fun _ => asks.weaken
  refine Holds.bind (Keeps.orFail resolvedParent _) (fun dparentId => ?_)
    fun _ => asks.weaken
  refine Holds.bind (rule.checkFree asks) (fun _ => ?_) fun _ _ holds => holds
  refine Keeps.bind (rule.calm (calm_getNodeUp dparentId)) fun _ => ?_
  refine Keeps.bind (Keeps.gets _) fun srcPath => ?_
  refine Keeps.bind (Keeps.gets _) fun dparentPath => ?_
  refine Keeps.bind (rule.calm (.lift _)) fun _ => ?_
  refine Keeps.bind (rule.calm (.lift _)) fun source => ?_
  obtain ⟨srcDir, srcLast⟩ := source
  refine Keeps.bind (rule.calm (.lift _)) fun dest => ?_
  obtain ⟨dstDir, dstLast⟩ := dest
  refine Keeps.bind (rule.calm (.lift _)) fun _ => ?_
  refine Keeps.bind (rule.calm (.lift _)) fun st => ?_
  exact Keeps.bind (rule.creates dparentId name st false) fun _ =>
    Keeps.pure _

theorem createsOverWhiteout :
    Holds ready (Daemon.createsOverWhiteout env parent name)
      fun _ => kept := by
  refine Holds.bind asks.looksUp (fun found => ?_) fun _ _ holds => holds
  refine Keeps.bind (rule.calm (calm_isPresent found)) fun present => ?_
  refine Keeps.bind (Keeps.check _ _) fun _ => ?_
  split
  · exact Keeps.pure true
  · exact Keeps.gets _

theorem create
    (caller : Caller)
    (mode : Mode)
    (flags : OpenFlags) :
    Holds ready (Daemon.create env caller parent name mode flags)
      fun _ => kept := by
  refine Holds.bind (asks.lifts _) (fun _ => ?_) fun _ => asks.weaken
  refine Holds.bind (rule.createsOverWhiteout asks) (fun whited => ?_)
    fun _ _ holds => holds
  refine Keeps.bind (rule.calm (calm_prepareCreateParent parent))
    fun prepared => ?_
  obtain ⟨pnodeId, pnodePath⟩ := prepared
  refine Keeps.bind (rule.calm (.lift _)) fun fd => ?_
  refine Keeps.bind (rule.calm (.lift _)) fun _ => ?_
  refine Keeps.bind (rule.calm (calm_inheritAcl pnodeId fd)) fun _ => ?_
  refine Keeps.bind (rule.calm (.lift _)) fun st => ?_
  refine Keeps.bind (rule.creates pnodeId name st false) fun fuseIno => ?_
  exact Keeps.bind (rule.calm (calm_allocFh fd)) fun _ => Keeps.pure _

end Asking

end FillRule

end Daemon

end FuseOverlay
