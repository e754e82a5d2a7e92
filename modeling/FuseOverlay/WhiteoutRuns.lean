import FuseOverlay.KnownWhiteouts

namespace FuseOverlay

/-!
# Runs that keep children and whiteouts apart

A rename looks its destination up twice, the second time after the rename on
disk, when a name `.wh.x` is sure to be found.  It keeps the whiteout `x` apart
from the children if the directory has no child `x` before.  With it every
request of a run keeps them apart whose names `.wh.x` stand over no cached
child `x`.
-/

open Act (Keeps Holds)

namespace Daemon

open Syscall Whiteout

variable {env : Env}

/-! ## Renames -/

/-- The child that is taken out of a directory is not hidden. -/
theorem clear_takeChild
    (parentId : NodeId)
    (name : Name) :
    Holds (fun sys => sys.nodes.Clear) (takeChild parentId name)
      fun outcome sys => sys.nodes.Clear ∧
        ∀ id, outcome = .ok (some id) → sys.nodes.ShownAt id := by
  intro sys clear
  refine ⟨clear.detach parentId name, ?_⟩
  intro id same
  have child : (sys.nodes.get? parentId).bind (·.getChild name) = some id :=
    Except.ok.inj same
  obtain ⟨node, stored, isChild⟩ := Option.bind_eq_some_iff.mp child
  have shown : sys.nodes.ShownAt id := fun found =>
    clear.shows ⟨node, stored, isChild⟩ (by simp)
  exact shown.modify parentId (by simp)

theorem clear_moveNode
    (sparentId dparentId : NodeId)
    (name newname : Name) :
    Keeps (fun sys => sys.nodes.Clear)
      (moveNode sparentId dparentId name newname) := by
  refine Holds.bind (clear_takeChild sparentId name) (fun child => ?_)
    fun _ _ holds => holds.1
  cases child with
  | none =>
      exact Holds.pure fun _ holds => holds.1
  | some childId =>
      refine Holds.modifyBind
        (fun sys => sys.nodes.Clear ∧ sys.nodes.ShownAt childId) ?_ ?_
      · exact fun sys holds =>
          ⟨holds.1.settle childId (fun _ _ => rfl) (fun _ _ => rfl)
              fun _ => rfl,
            (holds.2 childId rfl).modify childId fun _ => rfl⟩
      · exact fun sys holds => holds.1.attach dparentId newname holds.2

theorem clear_exchangeNodes
    (sparentId dparentId : NodeId)
    (name newname : Name) :
    Keeps (fun sys => sys.nodes.Clear)
      (exchangeNodes sparentId dparentId name newname) := by
  have sameMoved :
      ∀ name parent node query,
        (moved name parent node).markUnloaded.getChild query =
          node.getChild query :=
    fun name parent node query =>
      OvlNode.getChild_of_shape (OvlNode.shape_markUnloaded _) query
  have marksMoved :
      ∀ name parent node query,
        (moved name parent node).markUnloaded.isWhiteout query =
          node.isWhiteout query :=
    fun name parent node query => OvlNode.isWhiteout_markUnloaded _ query
  have hiddenMoved :
      ∀ name parent node,
        (moved name parent node).markUnloaded.hidden = node.hidden :=
    fun name parent node => OvlNode.hidden_markUnloaded _
  refine Holds.bind (clear_takeChild sparentId name) (fun srcChild => ?_)
    fun _ _ holds => holds.1
  have takesBoth :
      Holds
        (fun sys => sys.nodes.Clear ∧ ∀ id,
          (Except.ok srcChild : Except Errno _) = .ok (some id) →
            sys.nodes.ShownAt id)
        (takeChild dparentId newname)
        fun outcome sys => sys.nodes.Clear ∧
          (∀ id, srcChild = some id → sys.nodes.ShownAt id) ∧
          ∀ id, outcome = .ok (some id) → sys.nodes.ShownAt id := by
    rintro sys ⟨clear, shown⟩
    have taken := clear_takeChild dparentId newname sys clear
    refine ⟨taken.1, ?_, taken.2⟩
    rintro id rfl
    exact (shown id rfl).modify dparentId (by simp)
  refine Holds.bind takesBoth (fun dstChild => ?_) fun _ _ holds => holds.1
  refine Holds.orFailBind (fun sid isSrc => ?_) fun _ holds => holds.1
  refine Holds.orFailBind (fun did isDst => ?_) fun _ holds => holds.1
  subst isSrc isDst
  refine Holds.imp
    (?_ : Holds
      (fun sys => sys.nodes.Clear ∧ sys.nodes.ShownAt sid ∧
        sys.nodes.ShownAt did) _ fun _ sys => sys.nodes.Clear)
    (fun sys holds => ⟨holds.1, holds.2.1 sid rfl, holds.2.2 did rfl⟩)
    fun _ _ holds => holds
  refine Holds.bind (Keeps.gets _) (fun foundSrc => ?_) fun _ _ holds => holds.1
  refine Holds.orFailBind (fun snode _ => ?_) fun _ holds => holds.1
  refine Holds.bind (Keeps.gets _) (fun foundDst => ?_) fun _ _ holds => holds.1
  refine Holds.orFailBind (fun dnode _ => ?_) fun _ holds => holds.1
  refine Holds.modifyBind
    (fun sys => sys.nodes.Clear ∧ sys.nodes.ShownAt sid ∧
      sys.nodes.ShownAt did) ?_ ?_
  · exact fun sys holds =>
      ⟨holds.1.settle sid (sameMoved _ _) (marksMoved _ _)
          (hiddenMoved _ _),
        holds.2.1.modify sid (hiddenMoved _ _),
        holds.2.2.modify sid (hiddenMoved _ _)⟩
  refine Holds.modifyBind
    (fun sys => sys.nodes.Clear ∧ sys.nodes.ShownAt sid ∧
      sys.nodes.ShownAt did) ?_ ?_
  · exact fun sys holds =>
      ⟨holds.1.settle did (sameMoved _ _) (marksMoved _ _)
          (hiddenMoved _ _),
        holds.2.1.modify did (hiddenMoved _ _),
        holds.2.2.modify did (hiddenMoved _ _)⟩
  refine Holds.modifyBind
    (fun sys => sys.nodes.Clear ∧ sys.nodes.ShownAt did) ?_ ?_
  · exact fun sys holds =>
      ⟨holds.1.attach dparentId newname holds.2.1,
        holds.2.2.modify dparentId (by simp)⟩
  · exact fun sys holds => holds.1.attach sparentId name holds.2

/--
The states that a rename passes until it has dropped the destination node, and
the nodes that it may load there.
-/
structure RenameRule
    (env : Env)
    (newparent : UInt64)
    (newname : Name)
    (ready : Sys → Prop)
    (loadable : NodeId → Prop) : Prop where
  calm : ∀ {α : Type} {act : Daemon α}, Calm act → Keeps ready act
  clear : ∀ sys, ready sys → sys.nodes.Clear
  loads :
    ∀ id, loadable id → ∀ path lastLayerStop,
      Keeps ready (loadDirImpl env id path lastLayerStop)
  looksUp :
    Holds ready (doLookupFile env newparent newname) fun outcome sys =>
      ready sys ∧ ∀ id, outcome = .ok (some id) → loadable id

namespace RenameRule

variable
  {newparent : UInt64}
  {newname : Name}
  {ready : Sys → Prop}
  {loadable : NodeId → Prop}
  (rule : RenameRule env newparent newname ready loadable)

include rule

theorem checkMovable
    {srcId : NodeId}
    (isLoadable : loadable srcId) :
    Keeps ready (Daemon.checkMovable env srcId) := by
  refine Keeps.bind (keeps_node srcId) fun src => Keeps.runIf ?_
  refine Keeps.bind (keeps_reloadDir (rule.loads srcId isLoadable)) fun _ => ?_
  exact Keeps.bind (keeps_node srcId) fun src => Keeps.check _ _

theorem prepareDestination
    (flags : UInt32) :
    Keeps ready
      (Daemon.prepareDestination env newparent newname flags) := by
  refine Holds.bind rule.looksUp (fun found => ?_) fun _ _ holds => holds.1
  rintro sys ⟨holds, loads⟩
  refine (?_ : Keeps ready _) sys holds
  refine Keeps.bind (rule.calm (calm_isPresent found)) fun present => ?_
  split
  · next dstId =>
      refine Keeps.bind (Keeps.check _ _) fun _ => Keeps.runIf ?_
      refine Keeps.bind (keeps_node dstId) fun dst => Keeps.runIf ?_
      refine Keeps.bind
        (keeps_reloadDir (rule.loads dstId (loads dstId rfl))) fun _ => ?_
      refine rule.calm (.bind (.gets _) fun visible => ?_)
      refine .bind (.check _ _) fun _ => ?_
      refine .bind (.nodePath dstId) fun dstPath => ?_
      exact .bind (.lift _) fun _ => .pure ()
  · exact Keeps.pure ()

theorem dropReplaced
    (dparentId : NodeId) :
    Holds ready (Daemon.dropReplaced env newparent dparentId newname)
      fun _ sys => sys.nodes.Clear := by
  refine Holds.bind rule.looksUp (fun found => ?_)
    fun _ sys holds => rule.clear sys holds.1
  refine Holds.imp (?_ : Keeps (fun sys => sys.nodes.Clear) _)
    (fun sys holds => rule.clear sys holds.1) fun _ _ holds => holds
  refine Keeps.bind (calm_isPresent found).clear fun present => ?_
  split
  · next dstId =>
      refine Keeps.bind (keeps_node dstId) fun dst => ?_
      refine Keeps.bind (Keeps.modify fun _ clear => clear) fun _ => ?_
      refine Keeps.bind (Keeps.modify fun sys clear => ?_) fun _ => ?_
      · exact clear.detach dparentId newname
      · exact clear_removeNode dstId
  · exact Keeps.pure ()

theorem renameInTree
    (sparentId dparentId : NodeId)
    (name : Name)
    (flags : UInt32) :
    Holds ready
      (Daemon.renameInTree env newparent sparentId dparentId name newname
        flags)
      fun _ sys => sys.nodes.Clear := by
  have unload :
      ∀ id, Keeps ready (modifyNode id OvlNode.markUnloaded) :=
    fun id => rule.calm (.modifyNode id (by simp) (by simp))
  refine Holds.bind (unload sparentId) (fun _ => ?_) fun _ => rule.clear
  refine Holds.bind (unload dparentId) (fun _ => ?_) fun _ => rule.clear
  split
  · exact fun sys holds =>
      clear_exchangeNodes sparentId dparentId name newname sys
        (rule.clear sys holds)
  · exact Holds.bind (rule.dropReplaced dparentId)
      (fun _ => clear_moveNode sparentId dparentId name newname)
      fun _ _ clear => clear

/-- A rename keeps children and whiteouts apart. -/
theorem rename
    {parent : UInt64}
    {name : Name}
    {start : Sys → Prop}
    (lifts : ∀ act : Syscall Unit, Keeps start (liftM act : Daemon Unit))
    (startClear : ∀ sys, start sys → sys.nodes.Clear)
    (source :
      Holds start (doLookupFile env parent name) fun outcome sys =>
        ready sys ∧ ∀ id, outcome = .ok (some id) → loadable id)
    (flags : UInt32) :
    Holds start (Daemon.rename env parent name newparent newname flags)
      fun _ sys => sys.nodes.Clear := by
  refine Holds.bind (lifts _) (fun _ => ?_) fun _ => startClear
  refine Holds.bind source (fun found => ?_)
    fun _ sys holds => rule.clear sys holds.1
  refine presentOr_bind (fun srcId isFound => ?_)
    fun sys holds => rule.clear sys holds.1
  rintro sys ⟨⟨holds, loads⟩, -⟩
  have isLoadable : loadable srcId := loads srcId (congrArg _ isFound)
  refine (?_ : Holds ready _ fun _ sys => sys.nodes.Clear) sys holds
  have early : ∀ (errno : Errno) (sys : Sys), ready sys → sys.nodes.Clear :=
    fun _ => rule.clear
  refine Holds.bind (rule.checkMovable isLoadable) (fun _ => ?_) early
  refine Holds.bind (rule.calm (calm_getNodeUp srcId)) (fun _ => ?_) early
  refine Holds.bind (Keeps.gets _) (fun resolved => ?_) early
  refine Holds.bind (Keeps.orFail _ _) (fun sparentId => ?_) early
  refine Holds.bind (rule.calm (calm_getNodeUp sparentId)) (fun _ => ?_) early
  refine Holds.bind (Keeps.gets _) (fun resolvedDest => ?_) early
  refine Holds.bind (Keeps.orFail _ _) (fun dparentId => ?_) early
  refine Holds.bind (rule.calm (calm_getNodeUp dparentId)) (fun _ => ?_) early
  refine Holds.bind (Keeps.gets _) (fun srcPath => ?_) early
  refine Holds.bind (Keeps.gets _) (fun dparentPath => ?_) early
  refine Holds.bind (rule.prepareDestination flags) (fun _ => ?_) early
  refine Holds.bind (Keeps.gets _) (fun src => ?_) early
  refine Holds.bind (rule.calm (.runIf ?_)) (fun _ => ?_) early
  · exact .bind (.lift _) fun _ => .pure ()
  refine Holds.bind (rule.calm (.lift _)) (fun _ => ?_) early
  refine Holds.bind (Keeps.gets _) (fun moved => ?_) early
  refine Holds.bind
    (rule.renameInTree sparentId dparentId name flags) (fun _ => ?_)
    fun _ _ clear => clear
  refine Keeps.bind (Calm.runIf ?_).clear fun _ => Keeps.pure _
  exact .bind (.nodePath sparentId) fun path => .bind (.lift _) fun _ =>
    .pure ()

end RenameRule

theorem length_lt_of_whPrefixName
    {name white : Name}
    (prefixed : whPrefixName name = some white) :
    white.length < name.length := by
  unfold whPrefixName at prefixed
  split at prefixed
  · next isPrefixed =>
      cases prefixed
      have long : whPrefix.length ≤ name.length := by
        simp only [hasWhPrefix, Bool.and_eq_true] at isPrefixed
        exact (List.isPrefixOf_iff_prefix.mp isPrefixed.1).length_le
      have four : whPrefix.length = 4 := rfl
      rw [List.length_drop]
      omega
  · cases prefixed

/-- A rename to a name that is no whiteout. -/
theorem renameRule_plain
    {newname : Name}
    (plain : whPrefixName newname = none)
    (newparent : UInt64) :
    RenameRule env newparent newname (fun sys => sys.nodes.Clear)
      fun _ => True where
  calm := Calm.clear
  clear := fun _ clear => clear
  loads := fun id _ => fillRule_clear.loads id
  looksUp := fun sys clear =>
    ⟨clear_doLookupFile newparent newname sys
      ⟨clear, unmasked_plain plain newparent sys⟩, fun _ _ => trivial⟩

/-- A rename to the whiteout of a name that the directory does not know. -/
structure Aims
    (newparent : UInt64)
    (newname : Name)
    (dparent : NodeId)
    (white : Name)
    (sys : Sys) : Prop where
  ok : TreeOk sys
  clear : sys.nodes.Clear
  resolved : sys.forest.resolve newparent = some dparent
  isDir : sys.nodes.DirNode dparent
  free : ∀ child, ¬ sys.nodes.Entry dparent white child
  proper : ¬ sys.nodes.Entry dparent newname dparent

section Aims

variable
  {newparent : UInt64}
  {newname : Name}
  {dparent : NodeId}
  {white : Name}

theorem Aims.bounded
    {sys : Sys}
    (aims : Aims newparent newname dparent white sys) :
    dparent < sys.nodes.nextId := by
  obtain ⟨node, stored, -⟩ := aims.isDir
  exact aims.ok.tree.bounded ⟨node, stored⟩

/-- What grows without a child of the name keeps the aim. -/
theorem Aims.grow
    {sys later : Sys}
    (aims : Aims newparent newname dparent white sys)
    (sound : Forest.Sound sys.forest later.forest)
    (clear : later.nodes.Clear)
    (resolved : later.forest.resolve newparent = some dparent)
    (free : ∀ child, ¬ later.nodes.Entry dparent white child) :
    Aims newparent newname dparent white later := by
  refine ⟨sound.ok, clear, resolved, sound.grown.dirs aims.isDir, free, ?_⟩
  intro entry
  rcases sound.grown.fresh entry with older | ⟨-, new⟩
  · exact aims.proper older
  · exact Nat.not_lt_of_le new aims.bounded

theorem Still.aims
    {α : Type}
    {act : Daemon α}
    (still : Still act)
    (clears : Keeps (fun sys => sys.nodes.Clear) act)
    (frees :
      Keeps (fun sys => ∀ child, ¬ sys.nodes.Entry dparent white child)
        act) :
    Keeps (Aims newparent newname dparent white) act := by
  intro sys aims
  obtain ⟨sound, steady⟩ := still sys.forest sys (.refl aims.ok)
  exact aims.grow sound (clears sys aims.clear)
    ((steady newparent).trans aims.resolved) (frees sys aims.free)

/-- Loading another directory adds nothing to this one. -/
theorem loadRule_free
    {id : NodeId}
    (other : id ≠ dparent) :
    LoadRule id fun arena =>
      ∀ child, ¬ arena.Entry dparent white child where
  adds := by
    intro arena new bare _ free child entry
    rcases NodeArena.TreeBut.entry_attach.mp entry with
      ⟨same, -⟩ | ⟨-, older⟩
    · exact other same.symm
    · rcases NodeArena.entry_insert.mp older with ⟨-, isChild⟩ | ⟨-, oldest⟩
      · rw [bare] at isChild
        cases isChild
      · exact free child oldest
  marks := by
    intro arena name free _ child entry
    refine free child ((NodeArena.entry_modify_of_children ?_).mp entry)
    exact fun node => OvlNode.getChild_of_shape
      (OvlNode.shape_insertWhiteout node name)
  dates := by
    intro arena id layerIdx free child entry
    refine free child ((NodeArena.entry_modify_of_children ?_).mp entry)
    exact fun _ _ => rfl
  ends := by
    intro arena free child entry
    refine free child ((NodeArena.entry_modify_of_children ?_).mp entry)
    exact fun node => OvlNode.getChild_of_shape
      (OvlNode.shape_markLoaded node)

theorem Calm.aims
    {α : Type}
    {act : Daemon α}
    (calm : Calm act) :
    Keeps (Aims newparent newname dparent white) act := by
  refine (Still.of_calm calm).aims calm.clear fun sys free child entry => ?_
  obtain ⟨same, -⟩ := calm sys.forest sys ⟨.refl _, rfl⟩
  exact free child (same.symm.entry entry)

theorem aims_doLookupFile
    (parent : UInt64)
    (name : Name) :
    Holds
      (fun sys => Aims newparent newname dparent white sys ∧
        sys.Unmasked parent name ∧
        ¬ (sys.forest.resolve parent = some dparent ∧ name = white))
      (doLookupFile env parent name)
      fun _ => Aims newparent newname dparent white := by
  rintro sys ⟨aims, unmasked, apart⟩
  have sound :=
    (@lookedUp_doLookupFile env _ aims.ok parent name sys rfl).sound aims.ok
  refine aims.grow sound
    (clear_doLookupFile parent name sys ⟨aims.clear, unmasked⟩)
    (sound.grown.steady aims.resolved aims.isDir) ?_
  have looked := @arenaLookup_doLookupFile env parent name sys
  generalize (doLookupFile env parent name sys).2.nodes = nodes at looked
  intro child entry
  cases looked with
  | same =>
      exact aims.free child entry
  | marked _ _ _ _ _ =>
      refine aims.free child
        ((NodeArena.entry_modify_of_children ?_).mp entry)
      exact fun node => OvlNode.getChild_of_shape
        (OvlNode.shape_insertWhiteout node _)
  | adopted resolved candidate =>
      rcases NodeArena.TreeBut.entry_attach.mp entry with
        ⟨same, -, named, -⟩ | ⟨-, older⟩
      · subst same
        exact apart ⟨resolved, candidate.2.1.symm.trans named.symm⟩
      · rcases NodeArena.entry_insert.mp older with
          ⟨-, isChild⟩ | ⟨-, oldest⟩
        · rw [candidate.2.2.1] at isChild
          cases isChild
        · exact aims.free child oldest

/-- What a lookup finds is another node, if the name does not lead here. -/
theorem found_ne_dparent
    {parent : UInt64}
    {name : Name}
    {sys : Sys}
    (aims : Aims newparent newname dparent white sys)
    (elsewhere :
      ∀ above, sys.forest.resolve parent = some above →
        ¬ sys.nodes.Entry above name dparent)
    {id : NodeId}
    (found : (doLookupFile env parent name sys).1 = .ok (some id)) :
    id ≠ dparent := by
  have looked := @lookedUp_doLookupFile env _ aims.ok parent name sys rfl
  rw [found] at looked
  generalize (doLookupFile env parent name sys).2.forest = now at looked
  generalize outcomeShape : Except.ok (some id) = outcome at looked
  rintro rfl
  cases looked with
  | nothing empty _ =>
      exact empty id outcomeShape.symm
  | cached resolved entry =>
      cases outcomeShape
      exact elsewhere _ resolved entry
  | adopted _ adopted =>
      cases outcomeShape
      exact Nat.not_lt_of_le adopted.fresh aims.bounded

/-- A rename to a whiteout of something that is not known there. -/
theorem renameRule_aims
    (prefixed : whPrefixName newname = some white)
    (dparent : NodeId) :
    RenameRule env newparent newname
      (Aims newparent newname dparent white) (· ≠ dparent) where
  calm := Calm.aims
  clear := fun _ aims => aims.clear
  loads := fun id other path stop =>
    (still_loadDirImpl id path stop).aims
      (fillRule_clear.loads id path stop)
      ((loadRule_free other).loadDirImpl path stop)
  looksUp := by
    intro sys aims
    refine ⟨aims_doLookupFile newparent newname sys ⟨aims, ?_, ?_⟩,
      fun id found => ?_⟩
    · intro pnode node query resolved stored isPrefixed
      rw [aims.resolved] at resolved
      cases resolved
      rw [prefixed] at isPrefixed
      cases isPrefixed
      refine .inr (Option.eq_none_iff_forall_ne_some.mpr ?_)
      exact fun child isChild => aims.free child ⟨node, stored, isChild⟩
    · rintro ⟨-, rfl⟩
      exact Nat.lt_irrefl _ (length_lt_of_whPrefixName prefixed)
    · refine found_ne_dparent aims (fun above resolved => ?_) found
      rw [aims.resolved] at resolved
      cases resolved
      exact aims.proper

end Aims

end Daemon

namespace Sys

open Daemon

/-! ## Runs -/

/--
A rename to a name `.wh.x` goes to a directory without a child `x`, which is
not the entry that is renamed nor the one that is replaced.
-/
def RenamesApart
    (sys : Sys)
    (parent : UInt64)
    (name : Name)
    (newparent : UInt64)
    (newname : Name) : Prop :=
  ∀ white, whPrefixName newname = some white →
    ∃ dparent,
      sys.forest.resolve newparent = some dparent ∧
        sys.nodes.DirNode dparent ∧
        (∀ child, ¬ sys.nodes.Entry dparent white child) ∧
        ¬ sys.nodes.Entry dparent newname dparent ∧
        ∀ sparent, sys.forest.resolve parent = some sparent →
          ¬ sys.nodes.Entry sparent name dparent ∧
            ¬ (sparent = dparent ∧ name = white)

/-- The names `.wh.x` of a request do not stand over a cached child `x`. -/
def Unmasking (sys : Sys) : Request → Prop
  | .mknod _ parent name _ _ | .mkdir _ parent name _
  | .symlink _ parent name _ | .create _ parent name _ _
  | .link _ parent name | .unlink parent name | .rmdir parent name =>
      sys.Unmasked parent name
  | .rename parent name newparent newname _ =>
      sys.Unmasked parent name ∧
        sys.RenamesApart parent name newparent newname
  | _ => True

/-- Every request of the run unmasks nothing in the state it meets. -/
def UnmaskingRun
    (env : Env) :
    Sys → List Call → Prop
  | _, [] => True
  | sys, call :: rest =>
      (sys.begin call).Unmasking call.request ∧
        UnmaskingRun env (sys.step env call).2 rest

theorem clear_rename
    {env : Env}
    {sys : Sys}
    {parent : UInt64}
    {name : Name}
    {newparent : UInt64}
    {newname : Name}
    (ok : TreeOk sys)
    (clear : sys.nodes.Clear)
    (unmasked : sys.Unmasked parent name)
    (renames : sys.RenamesApart parent name newparent newname)
    (flags : UInt32) :
    (rename env parent name newparent newname flags sys).2.nodes.Clear := by
  cases prefixed : whPrefixName newname with
  | none =>
      refine (?_ : Holds
        (fun now => now.nodes.Clear ∧ now.Unmasked parent name) _
        fun _ now => now.nodes.Clear) sys ⟨clear, unmasked⟩
      refine (renameRule_plain prefixed newparent).rename
        (fun _ _ holds => holds) (fun _ holds => holds.1)
        (fun now holds => ?_) flags
      exact ⟨clear_doLookupFile parent name now holds, fun _ _ => trivial⟩
  | some white =>
      obtain ⟨dparent, resolved, isDir, free, proper, apart⟩ :=
        renames white prefixed
      refine (?_ : Holds
        (fun now => Aims newparent newname dparent white now ∧
          now.Unmasked parent name ∧
          ∀ sparent, now.forest.resolve parent = some sparent →
            ¬ now.nodes.Entry sparent name dparent ∧
              ¬ (sparent = dparent ∧ name = white)) _
        fun _ now => now.nodes.Clear) sys
        ⟨⟨ok, clear, resolved, isDir, free, proper⟩, unmasked, apart⟩
      refine (renameRule_aims prefixed dparent).rename
        (fun act now holds => ⟨(Calm.lift act).aims now holds.1, holds.2⟩)
        (fun _ holds => holds.1.clear) ?_ flags
      rintro now ⟨aims, unmasked, apart⟩
      refine ⟨aims_doLookupFile parent name now ⟨aims, unmasked, ?_⟩, ?_⟩
      · rintro ⟨same, isWhite⟩
        exact (apart dparent same).2 ⟨rfl, isWhite⟩
      · intro id found
        exact found_ne_dparent aims
          (fun above resolved => (apart above resolved).1) found

theorem Unmasking.unmasked
    {sys : Sys}
    {request : Request}
    (unmasking : sys.Unmasking request)
    {parent : UInt64}
    {name : Name}
    (asked : asksFor request = some (parent, name)) :
    sys.Unmasked parent name := by
  cases request with
  | mknod caller parent name mode rdev =>
      cases asked
      exact unmasking
  | mkdir caller parent name mode =>
      cases asked
      exact unmasking
  | symlink caller parent name target =>
      cases asked
      exact unmasking
  | create caller parent name mode flags =>
      cases asked
      exact unmasking
  | link ino parent name =>
      cases asked
      exact unmasking
  | _ =>
      cases asked

/-- A request that unmasks nothing keeps children and whiteouts apart. -/
theorem clear_handle
    {env : Env}
    {sys : Sys}
    {request : Request}
    (ok : TreeOk sys)
    (clear : sys.nodes.Clear)
    (unmasking : sys.Unmasking request) :
    (handle env request sys).2.nodes.Clear := by
  cases grows : removesNode request with
  | false =>
      have looksUp :
          ∀ parent name, hasWhPrefix name = false →
            Keeps (fun now => now.nodes.Clear)
              (doLookupFile env parent name) := by
        intro parent name plain now clear
        refine clear_doLookupFile parent name now
          ⟨clear, unmasked_plain ?_ parent now⟩
        simp [whPrefixName, plain]
      cases asked : asksFor request with
      | none =>
          refine (fillRule_clear.handle grows looksUp ?_
            (fun _ holds => holds) (fun _ _ _ holds => holds) : Keeps _ _)
            sys clear
          intro parent name same
          rw [asked] at same
          cases same
      | some place =>
          obtain ⟨parent, name⟩ := place
          refine (fillRule_clear.handle grows looksUp ?_ ?_
            (fun _ _ _ holds => holds) : Holds
              (fun now => now.nodes.Clear ∧ now.Unmasked parent name) _ _)
            sys ⟨clear, unmasking.unmasked asked⟩
          · intro other label same
            rw [asked] at same
            cases same
            exact askRule_clear parent name
          · exact fun _ holds => holds.1
  | true =>
      cases request with
      | forget ino nlookup =>
          exact clear
      | unlink parent name =>
          exact clear_doRm parent name false sys ⟨ok, clear, unmasking⟩
      | rmdir parent name =>
          exact clear_doRm parent name true sys ⟨ok, clear, unmasking⟩
      | rename parent name newparent newname flags =>
          exact clear_rename ok clear unmasking.1 unmasking.2 flags
      | _ =>
          cases grows

theorem clear_mount
    (env : Env)
    (disk : Disk) :
    (mount env disk).nodes.Clear where
  apart := by
    intro id node name found isWhite
    obtain ⟨-, rfl⟩ := @mount_stored env disk _ _ found
    rfl
  shows := by
    intro parent name child node _ _ found
    obtain ⟨-, rfl⟩ := @mount_stored env disk _ _ found
    rfl

theorem UnmaskingRun.clear
    {env : Env}
    {sys : Sys}
    {calls : List Call}
    (unmasking : UnmaskingRun env sys calls)
    (ok : TreeOk sys)
    (clear : sys.nodes.Clear) :
    (run env sys calls).nodes.Clear := by
  induction calls generalizing sys with
  | nil =>
      exact clear
  | cons call rest inductionHypothesis =>
      refine inductionHypothesis unmasking.2 ?_ ?_
      · exact treeOk_handle call.request (sys.begin call) ok
      · exact @clear_handle env (sys.begin call) call.request ok clear
          unmasking.1

end Sys

end FuseOverlay
