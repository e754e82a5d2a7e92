import FuseOverlay.WholeRemoval

namespace FuseOverlay

/-!
# Renames that keep the tree whole

A plain rename drops the node it replaces, which has no children, and moves one
node; an exchange moves two.  Everything stays in the tree as long as no node
is moved below itself.
-/

open Act (Keeps Holds)

namespace NodeArena

variable {arena : NodeArena}

theorem Past.weaken
    {gone fewer : NodeId → Prop}
    (less : ∀ id, fewer id → gone id)
    {id : NodeId}
    (past : arena.Past gone id) :
    arena.Past fewer id := by
  induction past with
  | root stays =>
      exact .root fun isGone => stays (less _ isGone)
  | step _ entry stays inductionHypothesis =>
      exact .step inductionHypothesis entry fun isGone =>
        stays (less _ isGone)

/-- A node that lies deeper is not on the way either. -/
theorem Past.avoid
    {gone : NodeId → Prop}
    {deeper id : NodeId}
    (past : arena.Past gone id)
    (depth :
      ∀ {path below}, arena.Walk path id → arena.Walk below deeper →
        path.length < below.length) :
    arena.Past (fun other => gone other ∨ other = deeper) id := by
  induction past with
  | root stays =>
      refine .root fun isGone => ?_
      rcases isGone with isGone | rfl
      · exact stays isGone
      · exact Nat.lt_irrefl _ (depth .root .root)
  | @step parent child name before entry stays inductionHypothesis =>
      refine .step (inductionHypothesis fun above below => ?_) entry ?_
      · have longer := depth (above.step entry) below
        rw [List.length_append] at longer
        exact Nat.lt_of_succ_lt longer
      · intro isGone
        rcases isGone with isGone | rfl
        · exact stays isGone
        · obtain ⟨path, walk⟩ := before.walk fun older _ => older
          have reached := walk.step entry
          exact Nat.lt_irrefl _ (depth reached reached)

/-- The way to a node does not pass its children. -/
theorem Past.avoid_child
    (tree : arena.Tree)
    {gone : NodeId → Prop}
    {id child : NodeId}
    {name : Name}
    (past : arena.Past gone id)
    (entry : arena.Entry id name child) :
    arena.Past (fun other => gone other ∨ other = child) id := by
  refine past.avoid fun {path below} walk lower => ?_
  rw [lower.unique tree (walk.step entry), List.length_append]
  exact Nat.lt_succ_self _

/-! ## Moving one node -/

/-- The arena after a child has been moved. -/
def moveChild
    (arena : NodeArena)
    (sparent dparent child : NodeId)
    (name newname : Name) :
    NodeArena :=
  ((arena.modify sparent (·.removeChild name)).modify child
    (Daemon.moved newname (some dparent))).modify dparent
      (·.insertChild newname child)

theorem entry_moveChild
    {sparent dparent child above below : NodeId}
    {name newname label : Name} :
    (arena.moveChild sparent dparent child name newname).Entry above label
        below ↔
      (above = dparent ∧ arena.DirNode dparent ∧ label = newname ∧
        below = child) ∨
      (¬ (above = dparent ∧ label = newname) ∧
        ¬ (above = sparent ∧ label = name) ∧
          arena.Entry above label below) := by
  unfold moveChild
  rw [TreeBut.entry_attach, entry_modify_of_children
    (Daemon.getChild_moved newname (some dparent)), TreeBut.entry_detach]
  have sameKind :
      ∀ node : OvlNode, (node.removeChild name).isDir = node.isDir := by
    simp
  have sameMoved :
      ∀ node : OvlNode,
        (Daemon.moved newname (some dparent) node).isDir = node.isDir :=
    fun _ => rfl
  have sameDir :
      ((arena.modify sparent (·.removeChild name)).modify child
        (Daemon.moved newname (some dparent))).DirNode dparent ↔
        arena.DirNode dparent :=
    (Forest.dirNode_modify sameMoved).trans (Forest.dirNode_modify sameKind)
  rw [sameDir]

theorem live_moveChild
    {sparent dparent child id : NodeId}
    {name newname : Name} :
    (arena.moveChild sparent dparent child name newname).Live id ↔
      arena.Live id := by
  unfold moveChild
  rw [live_modify, live_modify, live_modify]

/-- A node that is moved past itself takes everything below it along. -/
theorem Rooted.moveChild
    (rooted : arena.Rooted)
    {sparent dparent child : NodeId}
    {name newname : Name}
    (entry : arena.Entry sparent name child)
    (isDir : arena.DirNode dparent)
    (past : arena.Past (· = child) dparent)
    (absent : ∀ other, ¬ arena.Entry dparent newname other) :
    (arena.moveChild sparent dparent child name newname).Rooted := by
  have kept :
      ∀ {above label below}, arena.Entry above label below →
        ¬ below = child →
        (arena.moveChild sparent dparent child name newname).Entry above label
          below := by
    intro above label below older stays
    refine entry_moveChild.mpr (.inr ⟨?_, ?_, older⟩)
    · rintro ⟨rfl, rfl⟩
      exact absent below older
    · rintro ⟨rfl, rfl⟩
      exact stays (older.unique entry)
  obtain ⟨above, target⟩ := past.walk kept
  have attached := target.step
    (entry_moveChild.mpr (.inl ⟨rfl, isDir, rfl, rfl⟩))
  intro id live
  obtain ⟨path, walk⟩ := rooted id (live_moveChild.mp live)
  have placed :
      ∀ {other}, other = child →
        ∃ path, (arena.moveChild sparent dparent child name newname).Walk path
          other := by
    intro other same
    rw [same]
    exact ⟨_, attached⟩
  exact @Walk.carry arena
    (arena.moveChild sparent dparent child name newname) (· = child)
    (fun _ => False) (fun older stays _ => kept older stays) placed
    (fun impossible => impossible.elim) path id walk not_false

/-! ## Exchanging two nodes -/

/-- The arena after two children have changed places. -/
def exchangeChildren
    (arena : NodeArena)
    (sparent dparent sid did : NodeId)
    (name newname : Name)
    (schange dchange : OvlNode → OvlNode) :
    NodeArena :=
  (((((arena.modify sparent (·.removeChild name)).modify dparent
    (·.removeChild newname)).modify sid schange).modify did dchange).modify
      dparent (·.insertChild newname sid)).modify sparent
        (·.insertChild name did)

section Exchange

variable
  {sparent dparent sid did : NodeId}
  {name newname : Name}
  {schange dchange : OvlNode → OvlNode}

theorem live_exchangeChildren
    {id : NodeId} :
    (arena.exchangeChildren sparent dparent sid did name newname schange
      dchange).Live id ↔ arena.Live id := by
  unfold exchangeChildren
  simp only [live_modify]

/-- Entries that lead elsewhere stay. -/
theorem entry_exchangeChildren
    (sentry : arena.Entry sparent name sid)
    (dentry : arena.Entry dparent newname did)
    (schildren :
      ∀ node label, (schange node).getChild label = node.getChild label)
    (dchildren :
      ∀ node label, (dchange node).getChild label = node.getChild label)
    {above below : NodeId}
    {label : Name}
    (older : arena.Entry above label below)
    (notSource : below ≠ sid)
    (notDest : below ≠ did) :
    (arena.exchangeChildren sparent dparent sid did name newname schange
      dchange).Entry above label below := by
  have atSource : ¬ (above = sparent ∧ label = name) := by
    rintro ⟨rfl, rfl⟩
    exact notSource (older.unique sentry)
  have atDest : ¬ (above = dparent ∧ label = newname) := by
    rintro ⟨rfl, rfl⟩
    exact notDest (older.unique dentry)
  refine TreeBut.entry_attach.mpr (.inr ⟨atSource, ?_⟩)
  refine TreeBut.entry_attach.mpr (.inr ⟨atDest, ?_⟩)
  rw [entry_modify_of_children dchildren, entry_modify_of_children schildren]
  exact TreeBut.entry_detach.mpr
    ⟨atDest, TreeBut.entry_detach.mpr ⟨atSource, older⟩⟩

/-- The two children are where the other one was. -/
theorem entry_exchanged
    (sdir : arena.DirNode sparent)
    (ddir : arena.DirNode dparent)
    (skind : ∀ node, (schange node).isDir = node.isDir)
    (dkind : ∀ node, (dchange node).isDir = node.isDir)
    (apart : ¬ (dparent = sparent ∧ newname = name)) :
    (arena.exchangeChildren sparent dparent sid did name newname schange
      dchange).Entry dparent newname sid ∧
    (arena.exchangeChildren sparent dparent sid did name newname schange
      dchange).Entry sparent name did := by
  have taken :
      ∀ {id}, arena.DirNode id →
        ((((arena.modify sparent (·.removeChild name)).modify dparent
          (·.removeChild newname)).modify sid schange).modify did
            dchange).DirNode id := by
    intro id isDir
    rw [Forest.dirNode_modify dkind, Forest.dirNode_modify skind,
      Forest.dirNode_modify (OvlNode.isDir_removeChild · newname),
      Forest.dirNode_modify (OvlNode.isDir_removeChild · name)]
    exact isDir
  refine ⟨?_, ?_⟩
  · refine TreeBut.entry_attach.mpr (.inr ⟨apart, ?_⟩)
    exact TreeBut.entry_attach.mpr (.inl ⟨rfl, taken ddir, rfl, rfl⟩)
  · refine TreeBut.entry_attach.mpr (.inl ⟨rfl, ?_, rfl, rfl⟩)
    exact Forest.dirNode_insertChild.mpr (taken sdir)

/-- Two nodes neither of which lies below the other change places. -/
theorem Rooted.exchangeChildren
    (rooted : arena.Rooted)
    (tree : arena.Tree)
    (sentry : arena.Entry sparent name sid)
    (dentry : arena.Entry dparent newname did)
    (apart : sid ≠ did)
    (spast : arena.Past (· = did) sparent)
    (dpast : arena.Past (· = sid) dparent)
    (schildren :
      ∀ node label, (schange node).getChild label = node.getChild label)
    (dchildren :
      ∀ node label, (dchange node).getChild label = node.getChild label)
    (skind : ∀ node, (schange node).isDir = node.isDir)
    (dkind : ∀ node, (dchange node).isDir = node.isDir) :
    (arena.exchangeChildren sparent dparent sid did name newname schange
      dchange).Rooted := by
  have kept :
      ∀ {above label below}, arena.Entry above label below →
        ¬ (below = sid ∨ below = did) →
        (arena.exchangeChildren sparent dparent sid did name newname schange
          dchange).Entry above label below := by
    intro above label below older stays
    exact entry_exchangeChildren sentry dentry schildren dchildren older
      (fun same => stays (.inl same)) fun same => stays (.inr same)
  have places :
      ¬ (dparent = sparent ∧ newname = name) := by
    rintro ⟨rfl, rfl⟩
    exact apart (sentry.unique dentry)
  obtain ⟨satDest, datSource⟩ :=
    @entry_exchanged arena sparent dparent sid did name newname schange
      dchange sentry.dirNode dentry.dirNode skind dkind places
  have swap :
      ∀ id, id = sid ∨ id = did → id = did ∨ id = sid :=
    fun _ either => either.symm
  obtain ⟨dpath, dwalk⟩ := (dpast.avoid_child tree dentry).walk kept
  obtain ⟨spath, swalk⟩ :=
    ((spast.avoid_child tree sentry).weaken swap).walk kept
  have placed :
      ∀ {other}, other = sid ∨ other = did →
        ∃ path, (arena.exchangeChildren sparent dparent sid did name newname
          schange dchange).Walk path other := by
    intro other either
    rcases either with rfl | rfl
    · exact ⟨_, dwalk.step satDest⟩
    · exact ⟨_, swalk.step datSource⟩
  intro id live
  obtain ⟨path, walk⟩ := rooted id (live_exchangeChildren.mp live)
  exact @Walk.carry arena
    (arena.exchangeChildren sparent dparent sid did name newname schange
      dchange) (fun other => other = sid ∨ other = did)
    (fun _ => False) (fun older stays _ => kept older stays) placed
    (fun impossible => impossible.elim) path id walk not_false

end Exchange

end NodeArena

namespace Daemon

open Syscall Whiteout

variable {env : Env}

/-! ## Plain renames -/

theorem hidden_moved
    (name : Name)
    (parent : Option NodeId)
    (node : OvlNode) :
    (moved name parent node).hidden = node.hidden :=
  rfl

theorem key_moved
    (name : Name)
    (parent : Option NodeId)
    (node : OvlNode) :
    (moved name parent node).key = node.key :=
  rfl

/-- A node that is to move to a directory that does not lie below it. -/
structure Moving
    (parent newparent : UInt64)
    (sparent dparent : NodeId)
    (name : Name)
    (src : NodeId)
    (sys : Sys) : Prop where
  source : Placed parent sparent name src sys
  target : Within newparent dparent sys
  past : sys.nodes.Past (· = src) dparent

section Moving

variable
  {parent newparent : UInt64}
  {sparent dparent src : NodeId}
  {name newname : Name}

theorem Moving.grow
    {sys now : Sys}
    (moving : Moving parent newparent sparent dparent name src sys)
    (sound : Forest.Sound sys.forest now.forest)
    (whole : TreeWhole now) :
    Moving parent newparent sparent dparent name src now := by
  have kept :
      ∀ {ino dir}, Within ino dir sys → Within ino dir now :=
    fun within => ⟨whole, sound.grown.steady within.resolved within.isDir,
      sound.grown.dirs within.isDir⟩
  exact ⟨⟨kept moving.source.within, sound.grown.entries moving.source.entry⟩,
    kept moving.target, moving.past.mono fun entry _ =>
      sound.grown.entries entry⟩

theorem Still.moving
    {α : Type}
    {act : Daemon α}
    (still : Still act)
    (whole : Keeps TreeWhole act) :
    Keeps (Moving parent newparent sparent dparent name src) act := by
  intro sys moving
  exact moving.grow (still sys.forest sys (.refl moving.target.whole.ok)).1
    (whole sys moving.target.whole)

theorem Calm.moving
    {α : Type}
    {act : Daemon α}
    (calm : Calm act) :
    Keeps (Moving parent newparent sparent dparent name src) act :=
  (Still.of_calm calm).moving calm.treeWhole

theorem moving_doLookupFile :
    Keeps (Moving parent newparent sparent dparent name src)
      (doLookupFile env newparent newname) := by
  intro sys moving
  have looked :=
    @lookedUp_doLookupFile env sys.forest moving.target.whole.ok newparent
      newname sys rfl
  exact moving.grow (looked.sound moving.target.whole.ok)
    (whole_doLookupFile newparent newname sys moving.target.heads)

/-- What is under the name has no children. -/
def Emptied
    (dir : NodeId)
    (name : Name)
    (sys : Sys) : Prop :=
  ∀ id, sys.nodes.Entry dir name id → Childless id sys.forest

theorem Calm.emptied
    {α : Type}
    {act : Daemon α}
    {dir : NodeId}
    (calm : Calm act) :
    Keeps (Emptied dir name) act := by
  intro sys emptied
  obtain ⟨same, -⟩ := calm sys.forest sys ⟨.refl _, rfl⟩
  exact fun id entry label below lower =>
    emptied id (same.symm.entry entry) label below (same.symm.entry lower)

/-- A lookup adds nothing below what it finds. -/
theorem emptied_doLookupFile :
    Holds
      (fun sys => Within newparent dparent sys ∧ Emptied dparent newname sys)
      (doLookupFile env newparent newname)
      fun _ => Emptied dparent newname := by
  intro sys holds
  obtain ⟨within, emptied⟩ := holds
  have looked : LookedUp sys.forest newparent newname
      (doLookupFile env newparent newname sys).1
      (doLookupFile env newparent newname sys).2.forest :=
    lookedUp_doLookupFile within.whole.ok newparent newname sys rfl
  intro id entry
  have found :
      (doLookupFile env newparent newname sys).2.forest.nodes.Entry dparent
        newname id := entry
  generalize (doLookupFile env newparent newname sys).1 = outcome at looked
  generalize (doLookupFile env newparent newname sys).2.forest = now
    at looked found ⊢
  cases looked with
  | nothing _ same =>
      exact fun label below lower =>
        emptied id (same.symm.entry found) label below (same.symm.entry lower)
  | cached _ _ =>
      exact emptied id found
  | adopted resolved adopted =>
      rw [within.resolved] at resolved
      cases resolved
      rw [found.unique (adopted.attached within.isDir)]
      exact adopted.childless

/-- What shows no child has none: nothing in the tree is hidden. -/
theorem childless_of_hasVisible
    {id : NodeId}
    {sys : Sys}
    (whole : TreeWhole sys)
    (nothing : hasVisible sys.nodes id = false) :
    Childless id sys.forest := by
  intro label below entry
  obtain ⟨children, child, isChildren, listed, live, shown⟩ :=
    child_shown whole entry
  unfold hasVisible at nothing
  rw [isChildren] at nothing
  have gone := List.any_eq_false.mp nothing (label, below) listed
  simp only [live, Option.map_some, Option.getD_some, shown] at gone
  exact gone rfl

/-- The node that is replaced. -/
def Replacing
    (parent newparent : UInt64)
    (sparent dparent : NodeId)
    (name newname : Name)
    (src dst : NodeId)
    (sys : Sys) : Prop :=
  Moving parent newparent sparent dparent name src sys ∧
    sys.nodes.Entry dparent newname dst

theorem Replacing.emptied
    {dst : NodeId}
    {sys : Sys}
    (replacing :
      Replacing parent newparent sparent dparent name newname src dst sys)
    (childless : Childless dst sys.forest) :
    Emptied dparent newname sys := by
  intro id entry
  rw [entry.unique replacing.2]
  exact childless

theorem replacing_reloadDir
    {dst : NodeId} :
    Holds
      (fun sys =>
        Replacing parent newparent sparent dparent name newname src dst sys ∧
          sys.nodes.DirNode dst)
      (reloadDir env dst)
      fun _ =>
        Replacing parent newparent sparent dparent name newname src dst := by
  intro sys holds
  obtain ⟨⟨moving, entry⟩, isDir⟩ := holds
  have still := @still_reloadDir env dst sys.forest sys
    (.refl moving.target.whole.ok)
  have sound := still.1
  have whole := @whole_reloadDir env dst sys ⟨moving.target.whole, isDir⟩
  exact ⟨moving.grow sound whole.1, sound.grown.entries entry⟩

theorem emptied_clearDestination
    {dst : NodeId} :
    Holds (Replacing parent newparent sparent dparent name newname src dst)
      (clearDestination env dst)
      fun outcome sys => TreeWhole sys ∧ (outcome = .ok () →
        Moving parent newparent sparent dparent name src sys ∧
          Emptied dparent newname sys) := by
  have failed :
      ∀ (errno : Errno) sys,
        Replacing parent newparent sparent dparent name newname src dst
          sys →
        TreeWhole sys ∧ ((Except.error errno : Except Errno Unit) = .ok () →
          Moving parent newparent sparent dparent name src sys ∧
            Emptied dparent newname sys) :=
    fun errno sys replacing =>
      ⟨replacing.1.target.whole, fun same => by cases same⟩
  refine node_bind (fun node => ?_) fun sys replacing =>
    failed _ sys replacing
  cases isDir : node.isDir with
  | false =>
      intro sys holds
      obtain ⟨replacing, stored⟩ := holds
      refine ⟨replacing.1.target.whole, fun _ => ⟨replacing.1, ?_⟩⟩
      refine replacing.emptied (childless_of_not_dir ?_)
      rintro ⟨found, foundStored, foundDir⟩
      change sys.nodes.get? dst = some found at foundStored
      rw [stored] at foundStored
      cases foundStored
      rw [isDir] at foundDir
      cases foundDir
  | true =>
      refine Holds.imp (?_ : Holds (fun sys =>
        Replacing parent newparent sparent dparent name newname src dst sys ∧
          sys.nodes.DirNode dst) _ _)
        (fun sys holds => ⟨holds.1, node, holds.2, isDir⟩)
        fun _ _ holds => holds
      refine Holds.bind replacing_reloadDir (fun _ => ?_) failed
      refine Holds.getsBind fun visible => ?_
      cases visible with
      | true =>
          exact fun sys holds => failed _ sys holds.1
      | false =>
          have calm : Calm (do
              let dstPath ← nodePath dst
              let _ ← (emptyUpperDir env dstPath).attempt :
                Daemon Unit) :=
            .bind (.nodePath dst) fun dstPath =>
              .bind (.lift _) fun _ => .pure ()
          intro sys holds
          obtain ⟨replacing, nothing⟩ := holds
          have emptied := replacing.emptied
            (childless_of_hasVisible replacing.1.target.whole nothing)
          have moving := calm.moving sys replacing.1
          exact ⟨moving.target.whole, fun _ =>
            ⟨moving, calm.emptied sys emptied⟩⟩

/-- What is done with a destination, and that it is then empty. -/
theorem emptied_prepareDestination
    {flags : UInt32}
    (plain : flags &&& 2 = 0) :
    Holds (Moving parent newparent sparent dparent name src)
      (prepareDestination env newparent newname flags)
      fun outcome sys => TreeWhole sys ∧ (outcome = .ok () →
        Moving parent newparent sparent dparent name src sys ∧
          Emptied dparent newname sys) := by
  intro sys moving
  have heads := moving.target.heads
  have stays := @moving_doLookupFile env parent newparent sparent dparent src
    name newname sys moving
  have looked := @placed_doLookupFile env newparent newname sys heads
  unfold prepareDestination
  rcases run : doLookupFile env newparent newname sys with ⟨outcome, later⟩
  rw [run] at stays looked
  cases outcome with
  | error errno =>
      rw [Act.bind_error run]
      exact ⟨stays.target.whole, fun same => by cases same⟩
  | ok found =>
      rw [Act.bind_ok run]
      cases found with
      | none =>
          obtain ⟨calm, absent⟩ := absent_of_lookup heads run (by simp)
          have free := (absent dparent stays.target.resolved).2
          refine ⟨stays.target.whole, fun _ => ⟨stays, fun id entry => ?_⟩⟩
          exact (free id (calm.1.symm.entry entry)).elim
      | some dst =>
          obtain ⟨pnode, placed⟩ := looked.2 dst rfl
          have isParent : pnode = dparent := Option.some.inj
            (placed.within.resolved.symm.trans stays.target.resolved)
          subst isParent
          have live := stays.target.whole.live_child placed.entry
          rw [Act.bind_ok (isPresent_live live)]
          have replacing : Replacing parent newparent sparent pnode name
              newname src dst later := ⟨stays, placed.entry⟩
          have rest :
              Holds
                (Replacing parent newparent sparent pnode name newname src
                  dst)
                (do
                  Act.check (flags &&& 1 = 0) .EEXIST
                  Act.runIf (flags &&& 2 = 0) (clearDestination env dst) :
                    Daemon Unit)
                fun outcome sys => TreeWhole sys ∧ (outcome = .ok () →
                  Moving parent newparent sparent pnode name src sys ∧
                    Emptied pnode newname sys) := by
            refine Holds.bind (Keeps.check _ _) (fun _ => ?_)
              fun errno now replacing =>
                ⟨replacing.1.target.whole, fun same => by cases same⟩
            unfold Act.runIf
            rw [if_pos (by simpa using plain)]
            exact emptied_clearDestination
          exact rest later replacing

/-- The destination is free, and the source, if still there, may go to it. -/
structure Cleared
    (sparent dparent : NodeId)
    (name newname : Name)
    (src : NodeId)
    (sys : Sys) : Prop where
  whole : TreeWhole sys
  isDir : sys.nodes.DirNode dparent
  absent : Absent dparent newname sys.forest
  source :
    (sys.nodes.Entry sparent name src ∧ sys.nodes.Past (· = src) dparent) ∨
      Absent sparent name sys.forest

/-- Without the node it replaces, the destination is free. -/
theorem Moving.drop
    {sys : Sys}
    {dst : NodeId}
    {inodes : InodeTable}
    {now : Sys}
    (moving : Moving parent newparent sparent dparent name src sys)
    (dentry : sys.nodes.Entry dparent newname dst)
    (childless : Childless dst sys.forest)
    (narrows : sys.inodes.Narrows inodes)
    (table : inodes.Consistent)
    (dropped :
      now.forest =
        ⟨(sys.nodes.modify dparent (·.removeChild newname)).remove dst,
          inodes⟩)
    (ok : TreeOk now) :
    Cleared sparent dparent name newname src now := by
  have whole := moving.target.whole
  have nodes : now.nodes =
      (sys.nodes.modify dparent (·.removeChild newname)).remove dst :=
    congrArg Forest.nodes dropped
  have entries :
      ∀ {above label below}, now.nodes.Entry above label below ↔
        above ≠ dst ∧ ¬ (above = dparent ∧ label = newname) ∧
          sys.nodes.Entry above label below := by
    intro above label below
    rw [nodes]
    exact NodeArena.entry_drop
  have apart : dparent ≠ dst := by
    rintro rfl
    exact childless newname _ dentry
  have unpassed := moving.past.avoid_child whole.ok.tree dentry
  refine ⟨?_, ?_, ?_, ?_⟩
  · unfold TreeOk at ok
    unfold TreeWhole
    rw [dropped] at ok ⊢
    exact (whole.but dst).drop dentry childless narrows table ok
  · rw [nodes]
    obtain ⟨node, stored, isDir⟩ :=
      (Forest.dirNode_modify (OvlNode.isDir_removeChild · newname)).mpr
        moving.target.isDir
    refine ⟨node, ?_, isDir⟩
    rw [NodeArena.get?_remove, if_neg apart]
    exact stored
  · exact fun child entry => (entries.mp entry).2.1 ⟨rfl, rfl⟩
  · by_cases same : dst = src
    · subst same
      obtain ⟨rfl, rfl⟩ := whole.ok.tree.entry_inj moving.source.entry dentry
        (whole.live_child dentry) (by simp)
      exact .inr fun child entry => (entries.mp entry).2.1 ⟨rfl, rfl⟩
    · refine .inl ⟨entries.mpr ⟨?_, ?_, moving.source.entry⟩, ?_⟩
      · rintro rfl
        exact childless name src moving.source.entry
      · rintro ⟨rfl, rfl⟩
        exact same (dentry.unique moving.source.entry)
      · have later : now.nodes.Past (fun id => id = src ∨ id = dst)
            dparent := by
          refine unpassed.mono fun {above label below} older stays => ?_
          refine entries.mpr ⟨?_, ?_, older⟩
          · rintro rfl
            exact childless label below older
          · rintro ⟨rfl, rfl⟩
            exact stays (.inr (older.unique dentry))
        exact later.weaken fun id => .inl

/-- The part of `dropReplaced` after its lookup. -/
theorem Moving.replaced
    {sys : Sys}
    {dst : NodeId}
    {node : OvlNode}
    (moving : Moving parent newparent sparent dparent name src sys)
    (dentry : sys.nodes.Entry dparent newname dst)
    (childless : Childless dst sys.forest)
    (stored : sys.nodes.get? dst = some node) :
    let act : Daemon Unit := do
      let found ← Daemon.node dst
      Act.modify fun sys =>
        { sys with
          inodes := sys.inodes.removeNodeId
            ⟨found.tmpIno, found.tmpDev⟩ dst }
      modifyNode dparent fun parent => parent.removeChild newname
      removeNode dst
    TreeOk (act sys).2 →
      Cleared sparent dparent name newname src (act sys).2 := by
  intro act ok
  have read : Daemon.node dst sys = (.ok node, sys) := by
    unfold Daemon.node
    rw [Act.bind_ok (show getNode dst sys = (.ok (some node), sys) by
      rw [← stored]; rfl)]
    rfl
  have live : (sys.nodes.modify dparent (·.removeChild newname)).Live dst :=
    NodeArena.live_modify.mpr ⟨node, stored⟩
  have ran : act sys = removeNode dst
      { sys with
        nodes := sys.nodes.modify dparent (·.removeChild newname)
        inodes := sys.inodes.removeNodeId ⟨node.tmpIno, node.tmpDev⟩ dst } :=
    Act.bind_ok read _
  rw [ran] at ok ⊢
  exact moving.drop dentry childless
    (sys.inodes.narrows_removeNodeId _ _)
    (moving.target.whole.table.removeNodeId _ _) (forest_removeNode live) ok

theorem cleared_dropReplaced :
    Holds
      (fun sys => Moving parent newparent sparent dparent name src sys ∧
        Emptied dparent newname sys)
      (dropReplaced env newparent dparent newname)
      fun outcome sys => TreeOk sys → TreeWhole sys ∧
        (outcome = .ok () →
          Cleared sparent dparent name newname src sys) := by
  intro sys holds
  obtain ⟨moving, emptied⟩ := holds
  have heads := moving.target.heads
  have stays := @moving_doLookupFile env parent newparent sparent dparent src
    name newname sys moving
  have empties := @emptied_doLookupFile env newparent dparent newname sys
    ⟨moving.target, emptied⟩
  have looked := @placed_doLookupFile env newparent newname sys heads
  unfold dropReplaced
  rcases run : doLookupFile env newparent newname sys with ⟨outcome, later⟩
  rw [run] at stays empties looked
  cases outcome with
  | error errno =>
      rw [Act.bind_error run]
      exact fun _ => ⟨stays.target.whole, fun same => by cases same⟩
  | ok found =>
      rw [Act.bind_ok run]
      cases found with
      | none =>
          obtain ⟨calm, absent⟩ := absent_of_lookup heads run (by simp)
          have free := (absent dparent stays.target.resolved).2
          refine fun _ => ⟨stays.target.whole, fun _ => ?_⟩
          exact ⟨stays.target.whole, stays.target.isDir,
            fun child entry => free child (calm.1.symm.entry entry),
            .inl ⟨stays.source.entry, stays.past⟩⟩
      | some dst =>
          obtain ⟨pnode, placed⟩ := looked.2 dst rfl
          have isParent : pnode = dparent := Option.some.inj
            (placed.within.resolved.symm.trans stays.target.resolved)
          subst isParent
          obtain ⟨node, stored⟩ := stays.target.whole.live_child placed.entry
          have cleared := stays.replaced placed.entry
            (empties dst placed.entry) stored
          rw [Act.bind_ok (isPresent_live ⟨node, stored⟩)]
          exact fun ok => ⟨(cleared ok).whole, fun _ => cleared ok⟩

/-- The node goes to its new place. -/
theorem treeWhole_moveNode :
    Holds (Cleared sparent dparent name newname src)
      (moveNode sparent dparent name newname) fun _ => TreeWhole := by
  intro sys cleared
  have whole := cleared.whole
  have backed : Backed sparent name sys.forest :=
    fun child entry => whole.live_child entry
  have ok := @treeOk_moveNode sparent dparent name newname sys
    ⟨whole.ok, .inl backed⟩
  have takes : takeChild sparent name sys =
      (.ok ((sys.nodes.get? sparent).bind (·.getChild name)),
        { sys with
          nodes := sys.nodes.modify sparent (·.removeChild name) }) :=
    rfl
  unfold moveNode at ok ⊢
  rw [Act.bind_ok takes] at ok ⊢
  cases child : (sys.nodes.get? sparent).bind (·.getChild name) with
  | none =>
      refine whole.sameShape (.modify _ _ fun node stored => ?_)
      refine OvlNode.shape_removeChild ?_
      change sys.nodes.get? sparent = some node at stored
      rw [stored] at child
      exact child
  | some childId =>
      have entry : sys.nodes.Entry sparent name childId :=
        Option.bind_eq_some_iff.mp child
      rw [child] at ok
      rcases cleared.source with ⟨sentry, past⟩ | absent
      · have same := entry.unique sentry
        subst same
        have rooted : (sys.nodes.moveChild sparent dparent childId name
            newname).Rooted :=
          whole.rooted.moveChild entry cleared.isDir past cleared.absent
        have shown : (sys.nodes.moveChild sparent dparent childId name
            newname).Shown :=
          ((whole.shown.modify sparent
            (OvlNode.hidden_removeChild · name)).modify childId
              (hidden_moved newname (some dparent))).modify dparent
                (OvlNode.hidden_insertChild · newname childId)
        have keyed : Forest.Keyed
            (sys.nodes.moveChild sparent dparent childId name newname)
            sys.inodes :=
          ((whole.keyed.modify sparent
            (OvlNode.key_removeChild · name)).modify childId
              (key_moved newname (some dparent))).modify dparent
                (OvlNode.key_insertChild · newname childId)
        exact ⟨ok, rooted, shown, keyed, whole.table⟩
      · exact (absent childId entry).elim

/-- The part of a plain rename that follows the rename on disk. -/
theorem treeWhole_replace :
    Holds
      (fun sys => Moving parent newparent sparent dparent name src sys ∧
        Emptied dparent newname sys)
      (do
        dropReplaced env newparent dparent newname
        moveNode sparent dparent name newname : Daemon Unit)
      fun _ => TreeWhole := by
  have drops :
      Holds
        (fun sys => Moving parent newparent sparent dparent name src sys ∧
          Emptied dparent newname sys)
        (dropReplaced env newparent dparent newname)
        fun outcome sys => TreeWhole sys ∧
          (outcome = .ok () →
            Cleared sparent dparent name newname src sys) := by
    intro sys holds
    have ready : RenameReady newparent sparent dparent name sys := by
      refine ⟨holds.1.target.whole.ok, fun child entry => ?_, ?_⟩
      · exact holds.1.target.whole.live_child entry
      · exact .of_resolve holds.1.target.whole.ok holds.1.target.resolved
    have movable := @movable_dropReplaced env newparent sparent dparent name
      newname sys ready
    exact cleared_dropReplaced sys holds movable.1
  refine Holds.bind drops (fun _ => ?_) fun _ _ holds => holds.1
  exact fun sys holds => treeWhole_moveNode sys (holds.2 rfl)

end Moving

/-! ## Exchanges -/

/-- Two nodes that are to change places; neither lies below the other. -/
structure Swapping
    (parent newparent : UInt64)
    (sparent dparent : NodeId)
    (name newname : Name)
    (sid did : NodeId)
    (sys : Sys) : Prop where
  source : Placed parent sparent name sid sys
  dest : Placed newparent dparent newname did sys
  apart : sid ≠ did
  spast : sys.nodes.Past (· = did) sparent
  dpast : sys.nodes.Past (· = sid) dparent

section Swapping

variable
  {parent newparent : UInt64}
  {sparent dparent sid did : NodeId}
  {name newname : Name}

theorem Still.swapping
    {α : Type}
    {act : Daemon α}
    (still : Still act)
    (whole : Keeps TreeWhole act) :
    Keeps (Swapping parent newparent sparent dparent name newname sid did)
      act := by
  intro sys swapping
  have before := swapping.source.within.whole
  have sound := (still sys.forest sys (.refl before.ok)).1
  have after := whole sys before
  exact ⟨still.placed swapping.source after,
    still.placed swapping.dest after, swapping.apart,
    swapping.spast.mono fun entry _ => sound.grown.entries entry,
    swapping.dpast.mono fun entry _ => sound.grown.entries entry⟩

theorem Calm.swapping
    {α : Type}
    {act : Daemon α}
    (calm : Calm act) :
    Keeps (Swapping parent newparent sparent dparent name newname sid did)
      act :=
  (Still.of_calm calm).swapping calm.treeWhole

theorem isDir_markUnloaded
    (name : Name)
    (parent : Option NodeId)
    (node : OvlNode) :
    (moved name parent node).markUnloaded.isDir = node.isDir := by
  have same : (moved name parent node).markUnloaded.isDir =
      (moved name parent node).isDir :=
    OvlNode.isDir_of_shape (OvlNode.shape_markUnloaded _)
  rw [same]
  rfl

/-- The exchanged nodes keep what the inode table and listings see. -/
theorem shown_exchangeChildren
    {arena : NodeArena}
    {snode dnode : OvlNode}
    (shown : arena.Shown) :
    (arena.exchangeChildren sparent dparent sid did name newname
      (fun node => (moved dnode.name dnode.parent node).markUnloaded)
      fun node => (moved snode.name snode.parent node).markUnloaded).Shown := by
  have sameHidden :
      ∀ (other node : OvlNode),
        (moved other.name other.parent node).markUnloaded.hidden =
          node.hidden :=
    fun other node => OvlNode.hidden_markUnloaded _
  unfold NodeArena.exchangeChildren
  have first := shown.modify sparent (OvlNode.hidden_removeChild · name)
  have second := first.modify dparent (OvlNode.hidden_removeChild · newname)
  have third := (second.modify sid (sameHidden dnode)).modify did
    (sameHidden snode)
  have fourth := third.modify dparent
    (OvlNode.hidden_insertChild · newname sid)
  exact fourth.modify sparent (OvlNode.hidden_insertChild · name did)

theorem keyed_exchangeChildren
    {arena : NodeArena}
    {inodes : InodeTable}
    {snode dnode : OvlNode}
    (keyed : Forest.Keyed arena inodes) :
    Forest.Keyed
      (arena.exchangeChildren sparent dparent sid did name newname
        (fun node => (moved dnode.name dnode.parent node).markUnloaded)
        fun node => (moved snode.name snode.parent node).markUnloaded)
      inodes := by
  have sameKey :
      ∀ (other node : OvlNode),
        (moved other.name other.parent node).markUnloaded.key = node.key :=
    fun other node => OvlNode.key_markUnloaded _
  unfold NodeArena.exchangeChildren
  have first := keyed.modify sparent (OvlNode.key_removeChild · name)
  have second := first.modify dparent (OvlNode.key_removeChild · newname)
  have third := (second.modify sid (sameKey dnode)).modify did
    (sameKey snode)
  have fourth := third.modify dparent (OvlNode.key_insertChild · newname sid)
  exact fourth.modify sparent (OvlNode.key_insertChild · name did)

theorem treeWhole_exchangeNodes :
    Holds (Swapping parent newparent sparent dparent name newname sid did)
      (exchangeNodes sparent dparent name newname) fun _ => TreeWhole := by
  intro sys swapping
  have whole := swapping.source.within.whole
  have ok := @treeOk_exchangeNodes sparent dparent name newname sys whole.ok
  have takes :
      ∀ (parent : NodeId) (label : Name) (now : Sys),
        takeChild parent label now =
          (.ok ((now.nodes.get? parent).bind (·.getChild label)),
            { now with
              nodes := now.nodes.modify parent (·.removeChild label) }) :=
    fun _ _ _ => rfl
  have source : (sys.nodes.get? sparent).bind (·.getChild name) = some sid :=
    Option.bind_eq_some_iff.mpr swapping.source.entry
  have places : ¬ (dparent = sparent ∧ newname = name) := by
    rintro ⟨rfl, rfl⟩
    exact swapping.apart
      (swapping.source.entry.unique swapping.dest.entry)
  have dest :
      ((sys.nodes.modify sparent (·.removeChild name)).get? dparent).bind
        (·.getChild newname) = some did :=
    Option.bind_eq_some_iff.mpr
      (NodeArena.TreeBut.entry_detach.mpr ⟨places, swapping.dest.entry⟩)
  have stays :
      ∀ {id}, sys.nodes.Live id →
        ∃ node, ((sys.nodes.modify sparent (·.removeChild name)).modify
          dparent (·.removeChild newname)).get? id = some node :=
    fun live => NodeArena.live_modify.mpr (NodeArena.live_modify.mpr live)
  obtain ⟨snode, sstored⟩ := stays (whole.live_child swapping.source.entry)
  obtain ⟨dnode, dstored⟩ := stays (whole.live_child swapping.dest.entry)
  have ran : exchangeNodes sparent dparent name newname sys =
      (.ok (), { sys with
        nodes := sys.nodes.exchangeChildren sparent dparent sid did name
          newname
          (fun node => (moved dnode.name dnode.parent node).markUnloaded)
          fun node => (moved snode.name snode.parent node).markUnloaded }) := by
    unfold exchangeNodes
    rw [Act.bind_ok (takes sparent name sys), Act.bind_ok (takes ..), source,
      dest]
    have reads :
        ∀ {id node} {now : Sys}, now.nodes.get? id = some node →
          getNode id now = (.ok (some node), now) := by
      intro id node now stored
      rw [← stored]
      rfl
    rw [Act.bind_ok (show Act.orFail (some sid) Errno.EIO _ = (.ok sid, _)
      from rfl)]
    rw [Act.bind_ok (show Act.orFail (some did) Errno.EIO _ = (.ok did, _)
      from rfl)]
    rw [Act.bind_ok (reads sstored)]
    rw [Act.bind_ok (show Act.orFail (some snode) Errno.EIO _ =
      (.ok snode, _) from rfl)]
    rw [Act.bind_ok (reads dstored)]
    rw [Act.bind_ok (show Act.orFail (some dnode) Errno.EIO _ =
      (.ok dnode, _) from rfl)]
    rfl
  rw [ran] at ok ⊢
  exact ⟨ok, whole.rooted.exchangeChildren whole.ok.tree
    swapping.source.entry swapping.dest.entry swapping.apart swapping.spast
    swapping.dpast (getChild_markUnloaded dnode.name dnode.parent)
    (getChild_markUnloaded snode.name snode.parent)
    (isDir_markUnloaded dnode.name dnode.parent)
    (isDir_markUnloaded snode.name snode.parent),
    shown_exchangeChildren whole.shown, keyed_exchangeChildren whole.keyed,
    whole.table⟩

/-- A destination that is cached is found there. -/
theorem swapping_prepareDestination
    {flags : UInt32}
    (exchange : flags &&& 2 ≠ 0) :
    Keeps (Swapping parent newparent sparent dparent name newname sid did)
      (prepareDestination env newparent newname flags) := by
  intro sys swapping
  have found := @doLookupFile_cached env sys newparent dparent did newname
    swapping.dest.within.resolved swapping.dest.entry
  have live : sys.nodes.Live did :=
    swapping.dest.within.whole.live_child swapping.dest.entry
  unfold prepareDestination
  rw [Act.bind_ok found, Act.bind_ok (isPresent_live live)]
  refine Keeps.bind (Keeps.check _ _) (fun _ => ?_) sys swapping
  unfold Act.runIf
  rw [if_neg (by simpa using exchange)]
  exact Keeps.pure ()

end Swapping

/-! ## The request -/

theorem treeWhole_checkMovable
    (srcId : NodeId) :
    Keeps TreeWhole (checkMovable env srcId) := by
  refine node_bind (fun src => ?_) fun _ whole => whole
  unfold Act.runIf
  split
  · next isDir =>
      refine Holds.bind (?_ : Holds _ _ fun _ => WholeAt srcId)
        (fun _ => ?_) fun _ _ holds => holds.1
      · exact fun sys holds => whole_reloadDir srcId sys
          ⟨holds.1, src, holds.2, isDir⟩
      · refine node_bind (fun later => ?_) fun _ holds => holds.1
        exact fun sys holds => Keeps.check _ _ sys holds.1.1
  · exact Holds.pure fun _ holds => holds.1

/-- A number whose node is known is resolved to it. -/
theorem resolved_bind
    {α : Type}
    {ready : Sys → Prop}
    {post : Except Errno α → Sys → Prop}
    {ino : UInt64}
    {id : NodeId}
    {errno : Errno}
    {next : NodeId → Daemon α}
    (resolved : ∀ sys, ready sys → sys.forest.resolve ino = some id)
    (rest : Holds ready (next id) post) :
    Holds ready
      (resolveIno ino >>= fun found => Act.orFail found errno >>= next)
      post := by
  intro sys holds
  have read : resolveIno ino sys = (.ok (some id), sys) := by
    rw [← resolved sys holds]
    rfl
  rw [Act.bind_ok read]
  exact rest sys holds

/--
What a rename does with the node it found, for a condition `ready` that holds
before the destination is prepared and a condition `cleared` after it.
-/
theorem treeWhole_renameFound
    {ready cleared : Sys → Prop}
    {parent newparent : UInt64}
    {sparent dparent srcId : NodeId}
    {name newname : Name}
    {flags : UInt32}
    (readyWhole : ∀ sys, ready sys → TreeWhole sys)
    (readyCalm :
      ∀ {α : Type} {act : Daemon α}, Calm act → Keeps ready act)
    (source : ∀ sys, ready sys → sys.forest.resolve parent = some sparent)
    (target : ∀ sys, ready sys → sys.forest.resolve newparent = some dparent)
    (checks : Keeps ready (checkMovable env srcId))
    (prepares :
      Holds ready (prepareDestination env newparent newname flags)
        fun outcome sys => TreeWhole sys ∧ (outcome = .ok () → cleared sys))
    (clearedWhole : ∀ sys, cleared sys → TreeWhole sys)
    (clearedCalm :
      ∀ {α : Type} {act : Daemon α}, Calm act → Keeps cleared act)
    (updates :
      Holds cleared
        (renameInTree env newparent sparent dparent name newname flags)
        fun _ => TreeWhole) :
    Holds ready (do
      checkMovable env srcId
      getNodeUp env srcId
      let sparentId ← Act.orFail (← resolveIno parent) .ENOENT
      getNodeUp env sparentId
      let dparentId ← Act.orFail (← resolveIno newparent) .ENOENT
      getNodeUp env dparentId
      let srcPath ← nodePath srcId
      let dparentPath ← nodePath dparentId
      prepareDestination env newparent newname flags
      let src ← getNode srcId
      Act.runIf ((src.map OvlNode.isDir).getD false) do
        let _ ← (deleteWhiteout upperRoot none dparentPath newname).attempt
      renameOnDisk env srcPath dparentPath newname flags
      let src ← getNode srcId
      let srcLastLayer := (src.map (·.lastLayerIdx)).getD 0
      renameInTree env newparent sparentId dparentId name newname flags
      Act.runIf (flags &&& 2 = 0 && 0 < srcLastLayer) do
        let sparentPath ← nodePath sparentId
        let _ ← (createWhiteout env upperRoot sparentPath name
          env.canMknod).attempt
      pure .ok : Daemon Reply)
      fun _ => TreeWhole := by
  have early : ∀ (errno : Errno) sys, ready sys → TreeWhole sys :=
    fun _ => readyWhole
  have late : ∀ (errno : Errno) sys, cleared sys → TreeWhole sys :=
    fun _ => clearedWhole
  refine Holds.bind checks (fun _ => ?_) early
  refine Holds.bind (readyCalm (calm_getNodeUp srcId)) (fun _ => ?_) early
  refine resolved_bind source ?_
  refine Holds.bind (readyCalm (calm_getNodeUp sparent)) (fun _ => ?_) early
  refine resolved_bind target ?_
  refine Holds.bind (readyCalm (calm_getNodeUp dparent)) (fun _ => ?_) early
  refine Holds.bind (readyCalm (.nodePath srcId)) (fun srcPath => ?_) early
  refine Holds.bind (readyCalm (.nodePath dparent)) (fun dparentPath => ?_)
    early
  refine Holds.bind prepares (fun _ => ?_) fun _ _ holds => holds.1
  refine Holds.imp (?_ : Holds cleared _ _) (fun _ holds => holds.2 rfl)
    fun _ _ whole => whole
  refine Holds.bind (clearedCalm (.gets _)) (fun src => ?_) late
  refine Holds.bind (clearedCalm (.runIf ?_)) (fun _ => ?_) late
  · exact .bind (.lift _) fun _ => .pure ()
  · refine Holds.bind (clearedCalm (.lift _)) (fun _ => ?_) late
    refine Holds.bind (clearedCalm (.gets _)) (fun moved => ?_) late
    refine Holds.bind updates (fun _ => ?_) fun _ _ whole => whole
    refine Keeps.bind (Calm.treeWhole (.runIf ?_)) fun _ => Keeps.pure _
    refine .bind (.nodePath sparent) fun sparentPath => ?_
    exact .bind (.lift _) fun _ => .pure ()

/-- The parents keep their place in the tree when they are unloaded. -/
theorem treeWhole_renameInTree
    {cleared : Sys → Prop}
    {newparent : UInt64}
    {sparent dparent : NodeId}
    {name newname : Name}
    {flags : UInt32}
    (calm : ∀ {α : Type} {act : Daemon α}, Calm act → Keeps cleared act)
    (whole : ∀ sys, cleared sys → TreeWhole sys)
    (updates :
      Holds cleared
        (if flags &&& 2 ≠ 0 then
          exchangeNodes sparent dparent name newname
        else do
          dropReplaced env newparent dparent newname
          moveNode sparent dparent name newname)
        fun _ => TreeWhole) :
    Holds cleared
      (renameInTree env newparent sparent dparent name newname flags)
      fun _ => TreeWhole := by
  have unload :
      ∀ id, Keeps cleared (modifyNode id OvlNode.markUnloaded) :=
    fun id => calm (.modifyNode id (by simp) (by simp))
  refine Holds.bind (unload sparent) (fun _ => ?_) fun _ sys => whole sys
  exact Holds.bind (unload dparent) (fun _ => updates) fun _ sys => whole sys

section Request

variable
  {parent newparent : UInt64}
  {sparent dparent : NodeId}
  {name newname : Name}
  {flags : UInt32}

/-- The node under the name, if it is cached, may go to the directory. -/
structure Shiftable
    (parent newparent : UInt64)
    (dparent : NodeId)
    (name : Name)
    (sys : Sys) : Prop where
  heads : Heads parent sys
  target : Within newparent dparent sys
  past :
    ∀ sparent src, sys.forest.resolve parent = some sparent →
      sys.nodes.Entry sparent name src →
      sys.nodes.Past (· = src) dparent

theorem Calm.shiftable
    {α : Type}
    {act : Daemon α}
    (calm : Calm act) :
    Keeps (Shiftable parent newparent dparent name) act := by
  intro sys shiftable
  obtain ⟨same, -⟩ := calm sys.forest sys ⟨.refl _, rfl⟩
  obtain ⟨-, sameNumbers⟩ :=
    Still.of_calm calm sys.forest sys (.refl shiftable.target.whole.ok)
  refine ⟨calm.heads sys shiftable.heads, calm.within sys shiftable.target,
    fun sparent src resolved entry => ?_⟩
  rw [sameNumbers] at resolved
  exact (shiftable.past sparent src resolved (same.symm.entry entry)).mono
    fun older _ => same.entry older

/-- A node that a lookup finds or makes is not above the directory. -/
theorem moving_found :
    Holds (Shiftable parent newparent dparent name)
      (doLookupFile env parent name)
      fun outcome sys => TreeWhole sys ∧ ∀ src, outcome = .ok (some src) →
        ∃ sparent, Moving parent newparent sparent dparent name src sys := by
  intro sys shiftable
  have whole := shiftable.target.whole
  have looked : LookedUp sys.forest parent name
      (doLookupFile env parent name sys).1
      (doLookupFile env parent name sys).2.forest :=
    lookedUp_doLookupFile whole.ok parent name sys rfl
  have sound := looked.sound whole.ok
  have places := @placed_doLookupFile env parent name sys shiftable.heads
  have target := @within_doLookupFile env newparent dparent parent name sys
    ⟨shiftable.target, shiftable.heads⟩
  refine ⟨places.1, fun src found => ?_⟩
  obtain ⟨sparent, placed⟩ := places.2 src found
  refine ⟨sparent, placed, target, ?_⟩
  rw [found] at looked
  obtain ⟨path, walk⟩ := whole.rooted dparent
    (Forest.live_of_resolve whole.ok shiftable.target.resolved)
  have past :
      (doLookupFile env parent name sys).2.forest.nodes.Past (· = src)
        dparent := by
    generalize outcomeShape : Except.ok (some src) = outcome at looked
    generalize (doLookupFile env parent name sys).2.forest = now
      at looked sound ⊢
    cases looked with
    | nothing empty _ =>
        exact (empty src outcomeShape.symm).elim
    | cached resolved entry =>
        cases outcomeShape
        exact shiftable.past _ src resolved entry
    | adopted resolved adopted =>
        cases outcomeShape
        have old := walk.past whole.ok.tree fun {id} (dead : id = src) live =>
          Nat.not_lt_of_le (dead ▸ adopted.fresh)
            (whole.ok.tree.bounded live)
        exact old.mono fun entry _ => sound.grown.entries entry
  exact past

/-- A plain rename keeps the tree whole. -/
theorem treeWhole_rename_plain
    (plain : flags &&& 2 = 0) :
    Holds (Shiftable parent newparent dparent name)
      (rename env parent name newparent newname flags)
      fun _ => TreeWhole := by
  refine Holds.bind (Calm.lift _).shiftable (fun _ => ?_)
    fun _ _ shiftable => shiftable.target.whole
  refine Holds.bind moving_found (fun found => ?_) fun _ _ holds => holds.1
  refine presentOr_bind (fun srcId isFound => ?_) fun _ holds => holds.1
  subst isFound
  intro sys holds
  obtain ⟨sparent, moving⟩ := holds.1.2 srcId rfl
  refine treeWhole_renameFound (fun _ moving => moving.target.whole)
    Calm.moving (fun _ moving => moving.source.within.resolved)
    (fun _ moving => moving.target.resolved)
    ((still_checkMovable srcId).moving (treeWhole_checkMovable srcId))
    (emptied_prepareDestination plain) (fun _ holds => holds.1.target.whole)
    ?_ ?_ sys moving
  · exact fun calm now holds =>
      ⟨calm.moving now holds.1, calm.emptied now holds.2⟩
  · refine treeWhole_renameInTree ?_ (fun _ holds => holds.1.target.whole) ?_
    · exact fun calm now holds =>
        ⟨calm.moving now holds.1, calm.emptied now holds.2⟩
    · rw [if_neg (by simpa using plain)]
      exact treeWhole_replace

/-- An exchange keeps the tree whole. -/
theorem treeWhole_rename_exchange
    {sid did : NodeId}
    (exchange : flags &&& 2 ≠ 0) :
    Holds (Swapping parent newparent sparent dparent name newname sid did)
      (rename env parent name newparent newname flags)
      fun _ => TreeWhole := by
  have whole :
      ∀ sys,
        Swapping parent newparent sparent dparent name newname sid did sys →
        TreeWhole sys :=
    fun _ swapping => swapping.source.within.whole
  refine Holds.bind (Calm.lift _).swapping (fun _ => ?_)
    fun _ sys => whole sys
  intro sys swapping
  have found := @doLookupFile_cached env sys parent sparent sid name
    swapping.source.within.resolved swapping.source.entry
  have live : sys.nodes.containsKey sid = true :=
    NodeArena.containsKey_iff.mpr
      (swapping.source.within.whole.live_child swapping.source.entry)
  have present := presentOr_apply sid .ENOENT sys
  rw [if_pos live] at present
  rw [Act.bind_ok found, Act.bind_ok present]
  refine treeWhole_renameFound whole Calm.swapping
    (fun _ swapping => swapping.source.within.resolved)
    (fun _ swapping => swapping.dest.within.resolved)
    ((still_checkMovable sid).swapping (treeWhole_checkMovable sid))
    (fun now swapping => ?_) whole Calm.swapping ?_ sys swapping
  · have kept := @swapping_prepareDestination env parent newparent sparent
      dparent sid did name newname flags exchange now swapping
    exact ⟨whole _ kept, fun _ => kept⟩
  · refine treeWhole_renameInTree Calm.swapping whole ?_
    rw [if_pos exchange]
    exact treeWhole_exchangeNodes

end Request

end Daemon

end FuseOverlay
