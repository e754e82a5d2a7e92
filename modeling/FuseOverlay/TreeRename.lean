import FuseOverlay.TreeRemoval

namespace FuseOverlay

/-!
# Moving nodes

A rename takes a child out of one directory and puts it into another.  The
child that is put in has to be live, and the replaced node must not stay behind
in a directory below the root.  Both rest on where the two inode numbers led
when they were resolved: a number that stood for a directory still stands for
it, and a number of anything else leads to no directory of the tree.
-/

open Act (Keeps Holds)

/-! ## Taking out and putting in -/

namespace Daemon

theorem getChild_moved
    (name : Name)
    (parent : Option NodeId)
    (node : OvlNode)
    (query : Name) :
    (moved name parent node).getChild query = node.getChild query :=
  rfl

theorem getChild_markUnloaded
    (name : Name)
    (parent : Option NodeId)
    (node : OvlNode)
    (query : Name) :
    (moved name parent node).markUnloaded.getChild query =
      node.getChild query :=
  OvlNode.getChild_of_shape (OvlNode.shape_markUnloaded _) query

theorem parent_markUnloaded
    (name : Name)
    (parent : Option NodeId)
    (node : OvlNode) :
    (moved name parent node).markUnloaded.parent = parent :=
  congrArg Prod.fst (OvlNode.shape_markUnloaded (moved name parent node))

theorem name_markUnloaded
    (name : Name)
    (parent : Option NodeId)
    (node : OvlNode) :
    (moved name parent node).markUnloaded.name = name :=
  congrArg (·.2.1) (OvlNode.shape_markUnloaded (moved name parent node))

end Daemon

namespace NodeArena

variable {arena : NodeArena}

/-- A change of children leaves parent pointers and names alone. -/
theorem links_of_modify
    {id query : NodeId}
    {change : OvlNode → OvlNode}
    (sameParent : ∀ node, (change node).parent = node.parent)
    (sameName : ∀ node, (change node).name = node.name)
    {node : OvlNode}
    (stored : (arena.modify id change).get? query = some node) :
    ∃ old, arena.get? query = some old ∧ old.parent = node.parent ∧
      old.name = node.name := by
  rw [get?_modify] at stored
  split at stored
  · next same =>
      subst same
      obtain ⟨old, oldStored, rfl⟩ := Option.map_eq_some_iff.mp stored
      exact ⟨old, oldStored, (sameParent old).symm, (sameName old).symm⟩
  · exact ⟨node, stored, rfl, rfl⟩

theorem links_modify
    {id query : NodeId}
    {change : OvlNode → OvlNode}
    (sameParent : ∀ node, (change node).parent = node.parent)
    (sameName : ∀ node, (change node).name = node.name)
    {old : OvlNode}
    (stored : arena.get? query = some old) :
    ∃ node, (arena.modify id change).get? query = some node ∧
      node.parent = old.parent ∧ node.name = old.name := by
  rw [get?_modify]
  split
  · next same =>
      subst same
      exact ⟨change old, by rw [stored]; rfl, sameParent old, sameName old⟩
  · exact ⟨old, stored, rfl, rfl⟩

namespace Tree

/-- A live child that is taken out hangs nowhere. -/
theorem orphan_detach
    (tree : arena.Tree)
    {parent child : NodeId}
    {name : Name}
    (entry : arena.Entry parent name child)
    (live : arena.Live child) :
    (arena.modify parent (·.removeChild name)).Orphan child := by
  intro above label other
  obtain ⟨apart, older⟩ := TreeBut.entry_detach.mp other
  exact apart (tree.entry_inj older entry live (by simp))

theorem child_notRoot
    (tree : arena.Tree)
    {parent child : NodeId}
    {name : Name}
    (entry : arena.Entry parent name child) :
    child ≠ rootId := by
  rintro rfl
  exact tree.orphan_root (by simp) parent name entry

/-- A node that hangs nowhere may point anywhere. -/
theorem repoint
    (tree : arena.Tree)
    {id : NodeId}
    {change : OvlNode → OvlNode}
    (orphan : arena.Orphan id)
    (notRoot : id ≠ rootId)
    (sameChildren :
      ∀ node name, (change node).getChild name = node.getChild name) :
    (arena.modify id change).Tree := by
  refine tree.reparent notRoot sameChildren fun {child} _ => ?_
  by_cases same : child = id
  · exact .inl (same ▸ orphan)
  · exact .inr ⟨same, by simp⟩

/-- A live child moves below another node under another name. -/
theorem move
    (tree : arena.Tree)
    {sparent dparent child : NodeId}
    {name newname : Name}
    {node : OvlNode}
    (entry : arena.Entry sparent name child)
    (stored : arena.get? child = some node) :
    (((arena.modify sparent (·.removeChild name)).modify child
      (Daemon.moved newname (some dparent))).modify dparent
        (·.insertChild newname child)).Tree := by
  have detached : (arena.modify sparent (·.removeChild name)).Tree :=
    tree.detach sparent name
  have orphan := tree.orphan_detach entry ⟨node, stored⟩
  have repointed := detached.repoint orphan (tree.child_notRoot entry)
    (Daemon.getChild_moved newname (some dparent))
  obtain ⟨taken, takenStored, -⟩ :=
    @links_modify arena sparent child (·.removeChild name)
      (by simp) (by simp) node stored
  have movedStored :
      ((arena.modify sparent (·.removeChild name)).modify child
        (Daemon.moved newname (some dparent))).get? child =
          some (Daemon.moved newname (some dparent) taken) := by
    rw [get?_modify, if_pos rfl, takenStored]
    rfl
  refine repointed.attach movedStored rfl rfl ?_
  intro query below lower
  rw [entry_modify_of_children (Daemon.getChild_moved _ _)] at lower
  have older := (TreeBut.entry_detach.mp lower).2
  exact live_modify.mpr (live_modify.mpr (tree.live_of_entries entry older))

/-- A dead child that is put into something that is no directory. -/
theorem move_nothing
    (tree : arena.Tree)
    {sparent dparent child : NodeId}
    {name newname : Name}
    (dead : ¬ arena.Live child)
    (noDir : ¬ arena.DirNode dparent) :
    (((arena.modify sparent (·.removeChild name)).modify child
      (Daemon.moved newname (some dparent))).modify dparent
        (·.insertChild newname child)).Tree := by
  have detached : (arena.modify sparent (·.removeChild name)).Tree :=
    tree.detach sparent name
  have unmoved :=
    SameShape.modify (arena.modify sparent (·.removeChild name)) child
      (fun node stored =>
        (dead (live_modify.mp ⟨node, stored⟩)).elim :
          ∀ node, _ → (Daemon.moved newname (some dparent) node).shape =
            node.shape)
  refine (SameShape.modify _ dparent fun node stored => ?_).treeBut
    (unmoved.treeBut detached)
  cases isDir : node.isDir with
  | false =>
      rw [OvlNode.insertChild_of_not_dir isDir]
  | true =>
      have dirNow : (arena.modify sparent (·.removeChild name)).DirNode
          dparent := unmoved.symm.dirNode ⟨node, stored, isDir⟩
      exact (noDir ((Forest.dirNode_modify (by simp)).mp dirNow)).elim

/-- Two live nodes that point to two directories become their children. -/
theorem attach_both
    (tree : arena.Tree)
    {sparent dparent sid did : NodeId}
    {name newname : Name}
    {snode dnode : OvlNode}
    (sstored : arena.get? sid = some snode)
    (spoints : snode.parent = some dparent)
    (slabel : snode.name = newname)
    (sbelow :
      ∀ {query below}, arena.Entry sid query below → arena.Live below)
    (dstored : arena.get? did = some dnode)
    (dpoints : dnode.parent = some sparent)
    (dlabel : dnode.name = name)
    (dbelow :
      ∀ {query below}, arena.Entry did query below → arena.Live below) :
    ((arena.modify dparent (·.insertChild newname sid)).modify sparent
      (·.insertChild name did)).Tree := by
  have attached := tree.attach sstored spoints slabel sbelow
  obtain ⟨later, laterStored, laterParent, laterName⟩ :=
    @links_modify arena dparent did (·.insertChild newname sid)
      (by simp) (by simp) dnode dstored
  refine TreeBut.attach attached laterStored (laterParent.trans dpoints)
    (laterName.trans dlabel) ?_
  intro query below entry
  rcases TreeBut.entry_attach.mp entry with ⟨-, -, -, rfl⟩ | ⟨-, older⟩
  · exact live_modify.mpr ⟨snode, sstored⟩
  · exact live_modify.mpr (dbelow older)

/-- Two live children change places. -/
theorem exchange
    (tree : arena.Tree)
    {sparent dparent sid did : NodeId}
    {name newname : Name}
    {taken : NodeArena}
    {snode dnode : OvlNode}
    (takenShape :
      taken = (arena.modify sparent (·.removeChild name)).modify dparent
        (·.removeChild newname))
    (sentry : arena.Entry sparent name sid)
    (dentry :
      (arena.modify sparent (·.removeChild name)).Entry dparent newname did)
    (sstored : taken.get? sid = some snode)
    (dstored : taken.get? did = some dnode) :
    ((((taken.modify sid
      fun node => (Daemon.moved dnode.name dnode.parent node).markUnloaded)
      |>.modify did
        fun node => (Daemon.moved snode.name snode.parent node).markUnloaded)
      |>.modify dparent (·.insertChild newname sid))
      |>.modify sparent (·.insertChild name did)).Tree := by
  subst takenShape
  have first : (arena.modify sparent (·.removeChild name)).Tree :=
    tree.detach sparent name
  have second := first.detach dparent newname
  -- Both nodes were linked, so the exchanged pointers lead to the new places.
  obtain ⟨middle, middleStored, middleParent, middleName⟩ :=
    links_of_modify (by simp) (by simp) sstored
  obtain ⟨source, sourceStored, sourceParent, sourceName⟩ :=
    links_of_modify (by simp) (by simp) middleStored
  obtain ⟨dest, destStored, destParent, destName⟩ :=
    links_of_modify (by simp) (by simp) dstored
  have slinked := tree.linked sentry sourceStored (by simp)
  have dlinked := first.linked dentry destStored (by simp)
  have sorphan := tree.orphan_detach sentry ⟨source, sourceStored⟩
  have dorphan := first.orphan_detach dentry ⟨dest, destStored⟩
  have apart : sid ≠ did := by
    rintro rfl
    exact sorphan dparent newname dentry
  have third := Tree.repoint second
    (fun above label entry =>
      sorphan above label (TreeBut.entry_detach.mp entry).2)
    (tree.child_notRoot sentry)
    (Daemon.getChild_markUnloaded dnode.name dnode.parent)
  have fourth := third.repoint
    (fun above label entry =>
      dorphan above label ((entry_modify_of_children
        (Daemon.getChild_markUnloaded _ _)).mp entry))
    (first.child_notRoot dentry)
    (Daemon.getChild_markUnloaded snode.name snode.parent)
  have kept :
      ∀ {above label below}, ((((arena.modify sparent (·.removeChild name))
        |>.modify dparent (·.removeChild newname))
        |>.modify sid fun node =>
          (Daemon.moved dnode.name dnode.parent node).markUnloaded)
        |>.modify did fun node =>
          (Daemon.moved snode.name snode.parent node).markUnloaded).Entry
            above label below → arena.Entry above label below := by
    intro above label below entry
    rw [entry_modify_of_children (Daemon.getChild_markUnloaded _ _),
      entry_modify_of_children (Daemon.getChild_markUnloaded _ _)] at entry
    exact (TreeBut.entry_detach.mp (TreeBut.entry_detach.mp entry).2).2
  refine @attach_both _ fourth sparent dparent sid did name newname
    (Daemon.moved dnode.name dnode.parent snode).markUnloaded
    (Daemon.moved snode.name snode.parent dnode).markUnloaded
    ?_ ?_ ?_ ?_ ?_ ?_ ?_ ?_
  · rw [get?_modify, if_neg apart, get?_modify, if_pos rfl, sstored]
    rfl
  · rw [Daemon.parent_markUnloaded, ← destParent]
    exact dlinked.1
  · rw [Daemon.name_markUnloaded, ← destName]
    exact dlinked.2
  · intro query below entry
    have older := kept entry
    have lives := tree.live_of_entries sentry older
    simpa only [live_modify] using lives
  · rw [get?_modify, if_pos rfl, get?_modify, if_neg apart.symm, dstored]
    rfl
  · rw [Daemon.parent_markUnloaded, ← middleParent, ← sourceParent]
    exact slinked.1
  · rw [Daemon.name_markUnloaded, ← middleName, ← sourceName]
    exact slinked.2
  · intro query below entry
    have older := kept entry
    have lives :=
      tree.live_of_entries (TreeBut.entry_detach.mp dentry).2 older
    simpa only [live_modify] using lives

end Tree

end NodeArena

/-! ## Where a number leads -/

/--
The number leads to the directory; if that node is no directory, the number
leads to no directory, or to one outside the tree.
-/
structure Aim
    (ino : UInt64)
    (dir : NodeId)
    (forest : Forest) : Prop where
  live : forest.nodes.Live dir
  aimed :
    (forest.resolve ino = some dir ∧ forest.nodes.DirNode dir) ∨
      (¬ forest.nodes.DirNode dir ∧
        ∀ {other}, forest.resolve ino = some other →
          ¬ forest.nodes.DirNode other ∨
            (forest.nodes.Orphan other ∧ other ≠ rootId))

/-- Every child of the directory under the name is live. -/
def Backed
    (dir : NodeId)
    (name : Name)
    (forest : Forest) : Prop :=
  ∀ child, forest.nodes.Entry dir name child → forest.nodes.Live child

namespace Aim

variable {start now : Forest} {ino : UInt64} {dir : NodeId}

theorem of_resolve
    (ok : start.Ok)
    (resolved : start.resolve ino = some dir) :
    Aim ino dir start := by
  refine ⟨Forest.live_of_resolve ok resolved, ?_⟩
  by_cases isDir : start.nodes.DirNode dir
  · exact .inl ⟨resolved, isDir⟩
  · refine .inr ⟨isDir, fun {other} again => .inl ?_⟩
    rw [resolved] at again
    cases again
    exact isDir

/-- A node outside the tree stays outside it. -/
theorem outside
    (ok : start.Ok)
    (grown : Forest.Extends start now)
    {other : NodeId}
    (live : start.nodes.Live other)
    (apart :
      ¬ start.nodes.DirNode other ∨
        (start.nodes.Orphan other ∧ other ≠ rootId)) :
    ¬ now.nodes.DirNode other ∨ (now.nodes.Orphan other ∧ other ≠ rootId) := by
  have old := ok.tree.bounded live
  rcases apart with noDir | ⟨orphan, notRoot⟩
  · exact .inl fun isDir => noDir (grown.kinds isDir old)
  · exact .inr ⟨grown.orphan old orphan, notRoot⟩

/-- Growth keeps the aim when the number does not change its meaning. -/
theorem grow
    (aim : Aim ino dir start)
    (ok : start.Ok)
    (grown : Forest.Extends start now)
    (steady :
      ∀ {other}, now.resolve ino = some other →
        start.resolve ino = some other ∨
          ¬ now.nodes.DirNode other ∨
            (now.nodes.Orphan other ∧ other ≠ rootId)) :
    Aim ino dir now := by
  refine ⟨grown.live aim.live, ?_⟩
  rcases aim.aimed with ⟨resolved, isDir⟩ | ⟨noDir, apart⟩
  · exact .inl ⟨grown.steady resolved isDir, grown.dirs isDir⟩
  · refine .inr ⟨?_, fun {other} resolved => ?_⟩
    · intro isDir
      exact noDir (grown.kinds isDir (ok.tree.bounded aim.live))
    · rcases steady resolved with before | apartNow
      · have live := Forest.live_of_resolve ok before
        exact outside ok grown live (apart before)
      · exact apartNow

end Aim

theorem Backed.grow
    {start now : Forest}
    {dir : NodeId}
    {name : Name}
    (backed : Backed dir name start)
    (grown : Forest.Extends start now) :
    Backed dir name now := by
  intro child entry
  rcases grown.fresh entry with older | ⟨live, -⟩
  · exact grown.live (backed child older)
  · exact live

namespace Daemon

open Syscall Whiteout

variable {env : Env}

/-! ## Lookups on the way -/

/-- A lookup changes a number's meaning only to a node outside the tree. -/
theorem LookedUp.steady
    {start now : Forest}
    {ino : UInt64}
    {name : Name}
    {outcome : Except Errno (Option NodeId)}
    (ok : start.Ok)
    (looked : LookedUp start ino name outcome now)
    {other : NodeId}
    (resolved : now.resolve ino = some other) :
    start.resolve ino = some other ∨
      ¬ now.nodes.DirNode other ∨
        (now.nodes.Orphan other ∧ other ≠ rootId) := by
  cases looked with
  | nothing _ same =>
      rw [← resolved]
      exact .inl (Forest.resolve_congr fun _ _ => same.symm.live_iff)
  | cached _ _ =>
      exact .inl resolved
  | adopted parentResolved adopted =>
      rcases adopted.redirected parentResolved with kept | ⟨noDir, later⟩
      · rw [kept] at resolved
        exact .inl (resolved ▸ parentResolved)
      · rcases later other resolved with rfl | apart
        · refine .inr (.inr ⟨adopted.detached noDir, ?_⟩)
          rintro rfl
          exact Nat.not_lt_of_le adopted.fresh
            (ok.tree.bounded ok.tree.live_root)
        · exact .inr (.inl apart)

/-- A node that was found can only hang where the number aims. -/
theorem LookedUp.placed
    {start now : Forest}
    {ino : UInt64}
    {name label : Name}
    {dir id above : NodeId}
    (ok : start.Ok)
    (aim : Aim ino dir start)
    (looked : LookedUp start ino name (.ok (some id)) now)
    (live : now.nodes.Live id)
    (entry : now.nodes.Entry above label id) :
    (above = dir ∧ label = name) ∨
      (¬ now.nodes.DirNode dir ∧ above ≠ rootId ∧
        now.nodes.Orphan above) := by
  have sound := looked.sound ok
  have holder :
      ∀ {parent}, start.resolve ino = some parent →
        start.nodes.DirNode parent → now.nodes.Entry parent name id →
        (above = dir ∧ label = name) ∨
          (¬ now.nodes.DirNode dir ∧ above ≠ rootId ∧
            now.nodes.Orphan above) := by
    intro parent resolved isDir attached
    obtain ⟨rfl, rfl⟩ :=
      sound.ok.tree.entry_inj entry attached live (by simp)
    rcases aim.aimed with ⟨aimed, -⟩ | ⟨noDir, apart⟩
    · rw [resolved] at aimed
      exact .inl ⟨Option.some.inj aimed, rfl⟩
    · rcases apart resolved with noDirAbove | ⟨orphan, notRoot⟩
      · exact (noDirAbove isDir).elim
      · have old := ok.tree.bounded (Forest.live_of_resolve ok resolved)
        refine .inr ⟨fun dirNow => ?_, notRoot,
          sound.grown.orphan old orphan⟩
        exact noDir (sound.grown.kinds dirNow (ok.tree.bounded aim.live))
  generalize outcomeShape : Except.ok (some id) = outcome at looked
  cases looked with
  | nothing empty _ =>
      exact (empty id outcomeShape.symm).elim
  | cached resolved stored =>
      cases outcomeShape
      exact holder resolved stored.dirNode stored
  | @adopted parent _ _ resolved adopted =>
      cases outcomeShape
      by_cases isDir : start.nodes.DirNode parent
      · exact holder resolved isDir (adopted.attached isDir)
      · exact (adopted.detached isDir _ _ entry).elim

/-- After a lookup every child under the name is live. -/
theorem LookedUp.backed
    {start now : Forest}
    {ino : UInt64}
    {name : Name}
    {id dir : NodeId}
    (ok : start.Ok)
    (looked : LookedUp start ino name (.ok (some id)) now)
    (live : now.nodes.Live id)
    (resolved : now.resolve ino = some dir) :
    Backed dir name now := by
  intro child entry
  have sound := looked.sound ok
  generalize outcomeShape : Except.ok (some id) = outcome at looked
  cases looked with
  | nothing empty _ =>
      exact (empty id outcomeShape.symm).elim
  | cached parentResolved stored =>
      cases outcomeShape
      rw [parentResolved] at resolved
      cases resolved
      exact entry.unique stored ▸ live
  | @adopted parent _ _ parentResolved adopted =>
      cases outcomeShape
      by_cases isDir : start.nodes.DirNode parent
      · rw [sound.grown.steady parentResolved isDir] at resolved
        cases resolved
        exact entry.unique (adopted.attached isDir) ▸ live
      · rcases adopted.redirected parentResolved with kept | ⟨-, later⟩
        · rw [kept] at resolved
          cases resolved
          have old :=
            ok.tree.bounded (Forest.live_of_resolve ok parentResolved)
          exact (isDir (sound.grown.kinds entry.dirNode old)).elim
        · rcases later dir resolved with rfl | noDir
          · exact (adopted.childless name child entry).elim
          · exact (noDir entry.dirNode).elim

/-! ## The state before the tree changes -/

/-- What `rename` knows of the two directories it works on. -/
structure RenameReady
    (newparent : UInt64)
    (sparent dparent : NodeId)
    (name : Name)
    (sys : Sys) : Prop where
  ok : TreeOk sys
  backed : Backed sparent name sys.forest
  aim : Aim newparent dparent sys.forest

theorem Still.renameReady
    {α : Type}
    {act : Daemon α}
    {newparent : UInt64}
    {sparent dparent : NodeId}
    {name : Name}
    (still : Still act) :
    Keeps (RenameReady newparent sparent dparent name) act := by
  intro sys holds
  obtain ⟨sound, steady⟩ := still sys.forest sys (.refl holds.ok)
  refine ⟨sound.ok, holds.backed.grow sound.grown, ?_⟩
  refine holds.aim.grow holds.ok sound.grown fun {other} resolved => .inl ?_
  rw [← steady]
  exact resolved

/-- The destination that a lookup found, and where it can hang. -/
def Destination
    (dparent : NodeId)
    (newname : Name)
    (id : NodeId)
    (sys : Sys) : Prop :=
  id ≠ rootId ∧
    ∀ {above label}, sys.nodes.Entry above label id →
      (above = dparent ∧ label = newname) ∨
        (¬ sys.nodes.DirNode dparent ∧ above ≠ rootId ∧
          sys.nodes.Orphan above)

theorem renameReady_doLookupFile
    {newparent : UInt64}
    {sparent dparent : NodeId}
    {name newname : Name} :
    Holds (RenameReady newparent sparent dparent name)
      (doLookupFile env newparent newname)
      fun outcome sys =>
        RenameReady newparent sparent dparent name sys ∧
          ∀ id, outcome = .ok (some id) → sys.nodes.Live id →
            Destination dparent newname id sys := by
  intro sys holds
  have looked :=
    @lookedUp_doLookupFile env sys.forest holds.ok newparent newname sys rfl
  have sound := looked.sound holds.ok
  refine ⟨⟨sound.ok, holds.backed.grow sound.grown, ?_⟩, ?_⟩
  · exact holds.aim.grow holds.ok sound.grown (looked.steady holds.ok)
  · intro id outcome live
    rw [outcome] at looked
    refine ⟨(looked.found holds.ok live).notRoot, fun entry => ?_⟩
    exact looked.placed holds.ok holds.aim live entry

theorem still_clearDestination
    (dstId : NodeId) :
    Still (clearDestination env dstId) := by
  refine .bind (.of_calm (.node dstId)) fun dst => .runIf ?_
  refine .bind (still_reloadDir dstId) fun _ => ?_
  refine .bind (.of_calm (.gets _)) fun visible => ?_
  refine .bind (.of_calm (.check _ _)) fun _ => ?_
  refine .bind (.of_calm (.nodePath dstId)) fun dstPath => ?_
  exact .bind (.of_calm (.lift _)) fun _ => .of_calm (.pure ())

theorem renameReady_prepareDestination
    {newparent : UInt64}
    {sparent dparent : NodeId}
    {name : Name}
    (newname : Name)
    (flags : UInt32) :
    Keeps (RenameReady newparent sparent dparent name)
      (prepareDestination env newparent newname flags) := by
  refine Holds.bind renameReady_doLookupFile (fun found => ?_)
    fun _ _ holds => holds.1
  refine fun sys holds => (?_ : Still _).renameReady sys holds.1
  refine .bind (.of_calm (calm_isPresent found)) fun present => ?_
  split
  · exact .bind (.of_calm (.check _ _)) fun _ =>
      .runIf (still_clearDestination _)
  · exact .of_calm (.pure ())

/-! ## The change of the tree -/

/-- The state between dropping the destination and moving the source. -/
def Movable
    (sparent dparent : NodeId)
    (name : Name)
    (sys : Sys) : Prop :=
  TreeOk sys ∧
    (Backed sparent name sys.forest ∨ ¬ sys.nodes.DirNode dparent)

theorem Calm.movable
    {α : Type}
    {act : Daemon α}
    {sparent dparent : NodeId}
    {name : Name}
    (calm : Calm act) :
    Keeps (Movable sparent dparent name) act := by
  rintro sys ⟨ok, target⟩
  obtain ⟨same, -⟩ := calm sys.forest sys ⟨.refl _, rfl⟩
  refine ⟨calm.treeOk sys ok, ?_⟩
  rcases target with backed | noDir
  · exact .inl fun child entry =>
      same.live (backed child (same.symm.entry entry))
  · exact .inr fun isDir => noDir (same.symm.dirNode isDir)

/-- Asking whether a looked up node is live. -/
theorem isPresent_bind
    {α : Type}
    {pre : Sys → Prop}
    {post : Except Errno α → Sys → Prop}
    {found : Option NodeId}
    {next : Bool → Daemon α}
    (absent : Holds pre (next false) post)
    (present :
      ∀ id, found = some id →
        Holds (fun sys => pre sys ∧ sys.nodes.Live id) (next true) post) :
    Holds pre (isPresent found >>= next) post := by
  cases found with
  | none =>
      exact absent
  | some id =>
      refine Holds.getsBind fun live => ?_
      cases live with
      | false =>
          exact fun sys holds => absent sys holds.1
      | true =>
          exact fun sys holds => present id rfl sys
            ⟨holds.1, NodeArena.containsKey_iff.mp holds.2⟩

/-- The replaced node is out of its directory. -/
structure Replaced
    (sparent dparent : NodeId)
    (name : Name)
    (id : NodeId)
    (sys : Sys) : Prop where
  ok : TreeOk sys
  backed : Backed sparent name sys.forest
  notRoot : id ≠ rootId
  left :
    ∀ {above label}, sys.nodes.Entry above label id →
      ¬ sys.nodes.DirNode dparent ∧ above ≠ rootId ∧ sys.nodes.Orphan above

theorem Replaced.remove
    {sparent dparent id : NodeId}
    {name : Name}
    {sys : Sys}
    (replaced : Replaced sparent dparent name id sys) :
    Movable sparent dparent name
      { sys with nodes := sys.nodes.remove id } := by
  refine ⟨⟨replaced.ok.tree.remove replaced.notRoot fun entry =>
    (replaced.left entry).2, replaced.ok.listed⟩, ?_⟩
  by_cases isDir : sys.nodes.DirNode dparent
  · refine .inl fun child entry => ?_
    obtain ⟨-, older⟩ := NodeArena.entry_remove.mp entry
    refine NodeArena.live_remove.mpr ⟨?_, replaced.backed child older⟩
    rintro rfl
    exact (replaced.left older).1 isDir
  · refine .inr ?_
    rintro ⟨node, stored, nodeIsDir⟩
    rw [NodeArena.get?_remove] at stored
    split at stored
    · cases stored
    · exact isDir ⟨node, stored, nodeIsDir⟩

theorem movable_removeNode
    {sparent dparent id : NodeId}
    {name : Name} :
    Holds (Replaced sparent dparent name id) (removeNode id)
      fun _ => Movable sparent dparent name := by
  refine Holds.getsBind fun found => ?_
  cases found with
  | none =>
      exact Holds.pure fun _ holds => ⟨holds.1.ok, .inl holds.1.backed⟩
  | some node =>
      refine Holds.modifyBind _ ?_ (calm_dropNode node).movable
      rintro sys ⟨replaced, -⟩
      exact replaced.remove

/-- Taking the name out of the destination's directory. -/
theorem replaced_removeChild
    {sparent dparent id : NodeId}
    {name newname : Name}
    {sys : Sys}
    (ok : TreeOk sys)
    (backed : Backed sparent name sys.forest)
    (dest : Destination dparent newname id sys) :
    Replaced sparent dparent name id
      { sys with
        nodes := sys.nodes.modify dparent (·.removeChild newname) } where
  ok := ⟨ok.tree.detach dparent newname, ok.listed⟩
  backed := fun child entry =>
    NodeArena.live_modify.mpr
      (backed child (NodeArena.TreeBut.entry_detach.mp entry).2)
  notRoot := dest.1
  left := by
    intro above label entry
    obtain ⟨apart, older⟩ := NodeArena.TreeBut.entry_detach.mp entry
    rcases dest.2 older with same | ⟨noDir, notRoot, orphan⟩
    · exact (apart same).elim
    · refine ⟨?_, notRoot, fun query label' outer => ?_⟩
      · exact fun isDir => noDir ((Forest.dirNode_modify (by simp)).mp isDir)
      · exact orphan query label' (NodeArena.TreeBut.entry_detach.mp outer).2

theorem movable_dropReplaced
    {newparent : UInt64}
    {sparent dparent : NodeId}
    {name : Name}
    (newname : Name) :
    Holds (RenameReady newparent sparent dparent name)
      (dropReplaced env newparent dparent newname)
      fun _ => Movable sparent dparent name := by
  have ready :
      ∀ {sys : Sys}, RenameReady newparent sparent dparent name sys →
        Movable sparent dparent name sys :=
    fun holds => ⟨holds.ok, .inl holds.backed⟩
  refine Holds.bind renameReady_doLookupFile (fun found => ?_)
    fun _ _ holds => ready holds.1
  refine isPresent_bind ?_ fun dstId isFound => ?_
  · cases found <;> exact Holds.pure fun _ holds => ready holds.1
  · subst isFound
    refine node_bind (fun dst => ?_) fun _ holds => ready holds.1.1
    refine Holds.modifyBind (fun sys =>
      TreeOk sys ∧ Backed sparent name sys.forest ∧
        Destination dparent newname dstId sys) ?_ ?_
    · rintro sys ⟨⟨⟨holds, dest⟩, live⟩, -⟩
      exact ⟨treeOk_removeNodeId holds.ok _ _, holds.backed,
        dest dstId rfl live⟩
    · refine Holds.modifyBind _ ?_ movable_removeNode
      rintro sys ⟨ok, backed, dest⟩
      exact replaced_removeChild ok backed dest

theorem treeOk_moveNode
    {sparent dparent : NodeId}
    (name newname : Name) :
    Holds (Movable sparent dparent name)
      (moveNode sparent dparent name newname)
      fun _ => TreeOk := by
  rintro sys ⟨ok, target⟩
  have takes : takeChild sparent name sys =
      (.ok ((sys.nodes.get? sparent).bind (·.getChild name)),
        { sys with
          nodes := sys.nodes.modify sparent (·.removeChild name) }) :=
    rfl
  unfold moveNode
  rw [Act.bind_ok takes]
  cases child : (sys.nodes.get? sparent).bind (·.getChild name) with
  | none =>
      exact ⟨ok.tree.detach sparent name, ok.listed⟩
  | some childId =>
      have entry : sys.nodes.Entry sparent name childId :=
        Option.bind_eq_some_iff.mp child
      refine ⟨?_, ok.listed⟩
      by_cases live : sys.nodes.Live childId
      · obtain ⟨node, stored⟩ := live
        exact NodeArena.Tree.move ok.tree entry stored
      · rcases target with backed | noDir
        · exact (live (backed childId entry)).elim
        · exact NodeArena.Tree.move_nothing ok.tree live noDir

theorem treeOk_exchangeNodes
    (sparent dparent : NodeId)
    (name newname : Name) :
    Keeps TreeOk (exchangeNodes sparent dparent name newname) := by
  intro sys ok
  have takes :
      ∀ (parent : NodeId) (label : Name) (now : Sys),
        takeChild parent label now =
          (.ok ((now.nodes.get? parent).bind (·.getChild label)),
            { now with
              nodes := now.nodes.modify parent (·.removeChild label) }) :=
    fun _ _ _ => rfl
  have taken : TreeOk
      { sys with
        nodes := (sys.nodes.modify sparent (·.removeChild name)).modify dparent
          (·.removeChild newname) } :=
    ⟨(ok.tree.detach sparent name).detach dparent newname, ok.listed⟩
  unfold exchangeNodes
  rw [Act.bind_ok (takes sparent name sys), Act.bind_ok (takes ..)]
  have rest :
      Holds
        (fun now => now =
          { sys with
            nodes := (sys.nodes.modify sparent (·.removeChild name)).modify
              dparent (·.removeChild newname) })
        (do
          let sid ← Act.orFail
            ((sys.nodes.get? sparent).bind (·.getChild name)) Errno.EIO
          let did ← Act.orFail
            (((sys.nodes.modify sparent (·.removeChild name)).get?
              dparent).bind (·.getChild newname)) Errno.EIO
          let snode ← Act.orFail (← getNode sid) Errno.EIO
          let dnode ← Act.orFail (← getNode did) Errno.EIO
          modifyNode sid fun node =>
            (moved dnode.name dnode.parent node).markUnloaded
          modifyNode did fun node =>
            (moved snode.name snode.parent node).markUnloaded
          modifyNode dparent fun parent => parent.insertChild newname sid
          modifyNode sparent fun parent => parent.insertChild name did :
            Daemon Unit)
        fun _ => TreeOk := by
    have failed :
        ∀ now, now =
          { sys with
            nodes := (sys.nodes.modify sparent (·.removeChild name)).modify
              dparent (·.removeChild newname) } → TreeOk now := by
      rintro now rfl
      exact taken
    refine Holds.orFailBind (fun sid source => ?_) failed
    refine Holds.orFailBind (fun did dest => ?_) failed
    refine Holds.getsBind fun sfound => ?_
    refine Holds.orFailBind (fun snode sstored => ?_)
      fun now holds => failed now holds.1
    refine Holds.getsBind fun dfound => ?_
    refine Holds.orFailBind (fun dnode dstored => ?_)
      fun now holds => failed now holds.1.1
    subst sstored dstored
    rintro now ⟨⟨rfl, sstored⟩, dstored⟩
    have sentry : sys.nodes.Entry sparent name sid :=
      Option.bind_eq_some_iff.mp source
    have dentry :
        (sys.nodes.modify sparent (·.removeChild name)).Entry dparent newname
          did :=
      Option.bind_eq_some_iff.mp dest
    exact ⟨NodeArena.Tree.exchange ok.tree rfl sentry dentry sstored dstored,
      ok.listed⟩
  exact rest _ rfl

theorem treeOk_renameInTree
    {newparent : UInt64}
    {sparent dparent : NodeId}
    {name : Name}
    (newname : Name)
    (flags : UInt32) :
    Holds (RenameReady newparent sparent dparent name)
      (renameInTree env newparent sparent dparent name newname flags)
      fun _ => TreeOk := by
  have unload :
      ∀ id, Keeps (RenameReady newparent sparent dparent name)
        (modifyNode id OvlNode.markUnloaded) :=
    fun id => (Still.of_calm (.modifyNode id (by simp) (by simp))).renameReady
  refine Holds.bind (unload sparent) (fun _ => ?_) fun _ _ holds => holds.ok
  refine Holds.bind (unload dparent) (fun _ => ?_) fun _ _ holds => holds.ok
  split
  · exact fun sys holds =>
      treeOk_exchangeNodes sparent dparent name newname sys holds.ok
  · exact Holds.bind (movable_dropReplaced newname)
      (fun _ => treeOk_moveNode name newname) fun _ _ holds => holds.1

/-! ## The request -/

/-- A node that was found, under a name whose children are live. -/
def SourceReady
    (parent : UInt64)
    (name : Name)
    (sys : Sys) : Prop :=
  TreeOk sys ∧
    ∀ {dir}, sys.forest.resolve parent = some dir →
      Backed dir name sys.forest

theorem Still.sourceReady
    {α : Type}
    {act : Daemon α}
    {parent : UInt64}
    {name : Name}
    (still : Still act) :
    Keeps (SourceReady parent name) act := by
  rintro sys ⟨ok, backed⟩
  obtain ⟨sound, steady⟩ := still sys.forest sys (.refl ok)
  refine ⟨sound.ok, fun {dir} resolved => ?_⟩
  rw [steady] at resolved
  exact (backed resolved).grow sound.grown

theorem sourceReady_doLookupFile
    (parent : UInt64)
    (name : Name) :
    Holds TreeOk (doLookupFile env parent name) fun outcome sys =>
      TreeOk sys ∧ ∀ id, outcome = .ok (some id) → sys.nodes.Live id →
        SourceReady parent name sys := by
  intro sys ok
  have looked := @lookedUp_doLookupFile env sys.forest ok parent name sys rfl
  refine ⟨(looked.sound ok).ok, fun id outcome live => ?_⟩
  rw [outcome] at looked
  exact ⟨(looked.sound ok).ok, looked.backed ok live⟩

theorem still_checkMovable
    (srcId : NodeId) :
    Still (checkMovable env srcId) := by
  refine .bind (.of_calm (.node srcId)) fun src => .runIf ?_
  refine .bind (still_reloadDir srcId) fun _ => ?_
  exact .bind (.of_calm (.node srcId)) fun _ => .of_calm (.check _ _)

/-- The source's directory, with its live child. -/
def SourceBacked
    (sparent : NodeId)
    (name : Name)
    (sys : Sys) : Prop :=
  TreeOk sys ∧ Backed sparent name sys.forest

theorem Calm.sourceBacked
    {α : Type}
    {act : Daemon α}
    {sparent : NodeId}
    {name : Name}
    (calm : Calm act) :
    Keeps (SourceBacked sparent name) act := by
  rintro sys ⟨ok, backed⟩
  have sound := calm.mild.sound sys.forest sys (.refl ok)
  exact ⟨sound.ok, backed.grow sound.grown⟩

/-- From the resolved directories to the end of the request. -/
theorem treeOk_renameFrom
    {newparent : UInt64}
    {sparent dparent : NodeId}
    (srcId : NodeId)
    (name newname : Name)
    (flags : UInt32) :
    Holds (RenameReady newparent sparent dparent name) (do
      getNodeUp env dparent
      let srcPath ← nodePath srcId
      let dparentPath ← nodePath dparent
      prepareDestination env newparent newname flags
      let src ← getNode srcId
      Act.runIf ((src.map OvlNode.isDir).getD false) do
        let _ ← (deleteWhiteout upperRoot none dparentPath newname).attempt
      renameOnDisk env srcPath dparentPath newname flags
      let src ← getNode srcId
      let srcLastLayer := (src.map (·.lastLayerIdx)).getD 0
      renameInTree env newparent sparent dparent name newname flags
      Act.runIf (flags &&& 2 = 0 && 0 < srcLastLayer) do
        let sparentPath ← nodePath sparent
        let _ ← (createWhiteout env upperRoot sparentPath name
          env.canMknod).attempt
      pure .ok : Daemon Reply)
      fun _ => TreeOk := by
  have failed :
      ∀ (errno : Errno) sys,
        RenameReady newparent sparent dparent name sys → TreeOk sys :=
    fun _ _ holds => holds.ok
  have calm :
      ∀ {α : Type} {act : Daemon α}, Calm act →
        Keeps (RenameReady newparent sparent dparent name) act :=
    fun calm => (Still.of_calm calm).renameReady
  refine Holds.bind (calm (calm_getNodeUp dparent)) (fun _ => ?_) failed
  refine Holds.bind (calm (.nodePath srcId)) (fun srcPath => ?_) failed
  refine Holds.bind (calm (.nodePath dparent)) (fun dparentPath => ?_) failed
  refine Holds.bind (renameReady_prepareDestination newname flags)
    (fun _ => ?_) failed
  refine Holds.bind (calm (.gets _)) (fun src => ?_) failed
  refine Holds.bind (calm (.runIf ?_)) (fun _ => ?_) failed
  · exact .bind (.lift _) fun _ => .pure ()
  · refine Holds.bind (calm (.lift _)) (fun _ => ?_) failed
    refine Holds.bind (calm (.gets _)) (fun moved => ?_) failed
    refine Holds.bind (treeOk_renameInTree newname flags) (fun _ => ?_)
      fun _ _ ok => ok
    refine Keeps.bind (Calm.treeOk (.runIf ?_)) fun _ => Keeps.pure _
    refine .bind (.nodePath sparent) fun sparentPath => ?_
    exact .bind (.lift _) fun _ => .pure ()

theorem treeOk_rename
    (parent : UInt64)
    (name : Name)
    (newparent : UInt64)
    (newname : Name)
    (flags : UInt32) :
    Keeps TreeOk (rename env parent name newparent newname flags) := by
  refine Keeps.bind (Calm.lift _).treeOk fun _ => ?_
  refine Holds.bind (sourceReady_doLookupFile parent name) (fun found => ?_)
    fun _ _ holds => holds.1
  refine presentOr_bind (fun srcId isFound => ?_) fun _ holds => holds.1
  subst isFound
  refine Holds.imp ?_ (fun sys holds =>
    holds.1.2 srcId rfl holds.2) fun _ _ ok => ok
  refine Holds.bind (still_checkMovable srcId).sourceReady (fun _ => ?_)
    fun _ _ holds => holds.1
  refine Holds.bind (Still.of_calm (calm_getNodeUp srcId)).sourceReady
    (fun _ => ?_) fun _ _ holds => holds.1
  refine Holds.getsBind fun resolved => ?_
  refine Holds.orFailBind (fun sparent isParent => ?_)
    fun _ holds => holds.1.1
  subst isParent
  refine Holds.imp (?_ : Holds (SourceBacked sparent name) _ _)
    (fun sys holds => ⟨holds.1.1, holds.1.2 holds.2⟩) fun _ _ ok => ok
  refine Holds.bind (calm_getNodeUp sparent).sourceBacked (fun _ => ?_)
    fun _ _ holds => holds.1
  refine Holds.getsBind fun destination => ?_
  refine Holds.orFailBind (fun dparent isDest => ?_)
    fun _ holds => holds.1.1
  subst isDest
  refine Holds.imp (treeOk_renameFrom srcId name newname flags) ?_
    fun _ _ ok => ok
  rintro sys ⟨⟨ok, backed⟩, resolved⟩
  exact ⟨ok, backed, .of_resolve ok resolved⟩

end Daemon

end FuseOverlay
