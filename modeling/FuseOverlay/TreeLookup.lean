import FuseOverlay.TreeSteps

namespace FuseOverlay

/-!
# Lookups, loads and copy-up on the tree

Actions that do not touch the tree are `Calm`, actions that only add to it and
leave the meaning of inode numbers alone are `Still`, and `LookedUp` says what
a lookup of one name leaves.  Nothing here depends on what the system calls
answer.
-/

open Act (Keeps Holds)

namespace Daemon

open Syscall Whiteout

variable {env : Env}

/-! ## Actions that the tree does not see -/

/-- The tree and the table are those of `start`. -/
def CalmFrom
    (start : Forest)
    (sys : Sys) : Prop :=
  NodeArena.SameShape start.nodes sys.nodes ∧ sys.inodes = start.inodes

theorem CalmFrom.resolve_eq
    {start : Forest}
    {sys : Sys}
    (calm : CalmFrom start sys)
    (ino : UInt64) :
    sys.forest.resolve ino = start.resolve ino := by
  obtain ⟨same, sameTable⟩ := calm
  unfold Sys.forest
  rw [sameTable]
  exact Forest.resolve_congr fun _ _ => same.live_iff

theorem CalmFrom.ok
    {start : Forest}
    {sys : Sys}
    (calm : CalmFrom start sys)
    (ok : start.Ok) :
    sys.forest.Ok := by
  have sound := Forest.Sound.sameShape ok calm.1
  unfold Sys.forest
  rw [calm.2]
  exact sound.ok

/-- The directories know the whiteouts that they know in `start`. -/
def MarkedFrom
    (start : NodeArena)
    (sys : Sys) : Prop :=
  ∀ id name,
    (sys.nodes.get? id).map (·.isWhiteout name) =
      (start.get? id).map (·.isWhiteout name)

/-- The entries of a directory handle that was given out. -/
def HoldsDir
    (fh : Nat)
    (entries : List HandleEntry)
    (sys : Sys) : Prop :=
  fh < sys.nextDh ∧ sys.openDirs.get? fh = some entries

/-- The action leaves tree and table as they are. -/
def Mild
    {α : Type}
    (act : Daemon α) : Prop :=
  ∀ start, Keeps (CalmFrom start) act

/--
The action leaves tree, table, the known whiteouts and the directory handles as
they are.
-/
structure Calm
    {α : Type}
    (act : Daemon α) : Prop where
  mild : Mild act
  marked : ∀ start, Keeps (MarkedFrom start) act
  handles : ∀ fh entries, Keeps (HoldsDir fh entries) act

instance
    {α : Type}
    {act : Daemon α} :
    CoeFun (Calm act) fun _ => ∀ start, Keeps (CalmFrom start) act :=
  ⟨Calm.mild⟩

/-- System calls do not reach the tree. -/
theorem keeps_lift
    {α : Type}
    (kept : Forest → Prop)
    (act : Syscall α) :
    Keeps (fun sys => kept sys.forest) (liftM act : Daemon α) :=
  fun _ holds => holds

/-- A change of a node that keeps its place in the tree. -/
theorem mild_modifyNode
    (id : NodeId)
    {change : OvlNode → OvlNode}
    (kept : ∀ node, (change node).shape = node.shape) :
    Mild (modifyNode id change) :=
  fun _ _ holds =>
    ⟨holds.1.trans (.modify _ id fun node _ => kept node), holds.2⟩

/-- Reading a node changes nothing. -/
theorem keeps_node
    {kept : Sys → Prop}
    (id : NodeId) :
    Keeps kept (node id) :=
  Keeps.bind (Keeps.gets _) fun found => Keeps.orFail found _

namespace Calm

variable {α β : Type}

theorem lift
    (act : Syscall α) :
    Calm (liftM act : Daemon α) where
  mild := fun _ => keeps_lift
    (fun forest => NodeArena.SameShape _ forest.nodes ∧ forest.inodes = _) act
  marked := fun _ _ holds => holds
  handles := fun _ _ _ holds => holds

theorem pure
    (value : α) :
    Calm (Pure.pure value : Daemon α) :=
  ⟨fun _ => Keeps.pure value, fun _ => Keeps.pure value,
    fun _ _ => Keeps.pure value⟩

theorem fail
    (errno : Errno) :
    Calm (Act.fail errno : Daemon α) :=
  ⟨fun _ => Keeps.fail errno, fun _ => Keeps.fail errno,
    fun _ _ => Keeps.fail errno⟩

theorem check
    (test : Bool)
    (errno : Errno) :
    Calm (Act.check test errno : Daemon Unit) :=
  ⟨fun _ => Keeps.check test errno, fun _ => Keeps.check test errno,
    fun _ _ => Keeps.check test errno⟩

theorem gets
    (read : Sys → α) :
    Calm (Act.gets read : Daemon α) :=
  ⟨fun _ => Keeps.gets read, fun _ => Keeps.gets read,
    fun _ _ => Keeps.gets read⟩

theorem orFail
    (value : Option α)
    (errno : Errno) :
    Calm (Act.orFail value errno : Daemon α) :=
  ⟨fun _ => Keeps.orFail value errno, fun _ => Keeps.orFail value errno,
    fun _ _ => Keeps.orFail value errno⟩

theorem bind
    {first : Daemon α}
    {next : α → Daemon β}
    (firstCalm : Calm first)
    (nextCalm : ∀ value, Calm (next value)) :
    Calm (first >>= next) where
  mild := fun start =>
    Keeps.bind (firstCalm.mild start) fun value => (nextCalm value).mild start
  marked := fun start =>
    Keeps.bind (firstCalm.marked start) fun value =>
      (nextCalm value).marked start
  handles := fun fh entries =>
    Keeps.bind (firstCalm.handles fh entries) fun value =>
      (nextCalm value).handles fh entries

theorem map
    {act : Daemon α}
    {transform : α → β}
    (calm : Calm act) :
    Calm (transform <$> act) :=
  ⟨fun start => Keeps.map (calm.mild start),
    fun start => Keeps.map (calm.marked start),
    fun fh entries => Keeps.map (calm.handles fh entries)⟩

theorem attempt
    {act : Daemon α}
    (calm : Calm act) :
    Calm act.attempt :=
  ⟨fun start => Keeps.attempt (calm.mild start),
    fun start => Keeps.attempt (calm.marked start),
    fun fh entries => Keeps.attempt (calm.handles fh entries)⟩

theorem runIf
    {test : Bool}
    {act : Daemon Unit}
    (calm : Calm act) :
    Calm (Act.runIf test act) :=
  ⟨fun start => Keeps.runIf (calm.mild start),
    fun start => Keeps.runIf (calm.marked start),
    fun fh entries => Keeps.runIf (calm.handles fh entries)⟩

/-- An action on another part of the state. -/
theorem apart
    {act : Daemon α}
    (sameNodes : ∀ sys, (act sys).2.nodes = sys.nodes)
    (sameTable : ∀ sys, (act sys).2.inodes = sys.inodes)
    (handles : ∀ fh entries, Keeps (HoldsDir fh entries) act) :
    Calm act where
  mild := by
    intro start sys holds
    change NodeArena.SameShape _ (act sys).2.nodes ∧ _ = _
    rw [sameNodes, sameTable]
    exact holds
  marked := by
    intro start sys holds id name
    rw [sameNodes]
    exact holds id name
  handles := handles

/-- A change of a node that keeps its place in the tree and its whiteouts. -/
theorem modifyNode
    (id : NodeId)
    {change : OvlNode → OvlNode}
    (kept : ∀ node, (change node).shape = node.shape)
    (sameMarks :
      ∀ node name, (change node).isWhiteout name = node.isWhiteout name) :
    Calm (modifyNode id change) where
  mild := mild_modifyNode id kept
  marked := by
    intro start sys holds query name
    rw [← holds query name]
    change ((sys.nodes.modify id change).get? query).map _ = _
    rw [NodeArena.get?_modify]
    split
    · next same =>
        subst same
        rw [Option.map_map]
        refine congrArg (Option.map · _) (funext fun node => ?_)
        exact sameMarks node name
    · rfl
  handles := fun _ _ _ holds => holds

theorem node
    (id : NodeId) :
    Calm (node id) :=
  bind (gets _) fun found => orFail found _

theorem nodePath
    (id : NodeId) :
    Calm (nodePath id) :=
  gets _

theorem rplStatWithPath
    (id : NodeId)
    (path : Path) :
    Calm (rplStatWithPath env id path) := by
  refine bind (node id) fun found => ?_
  refine bind (lift _) fun st => ?_
  refine bind (lift _) fun layer => ?_
  refine bind (lift _) fun overridden => ?_
  exact bind (lift _) fun ino => gets _

theorem rplStat
    (id : NodeId) :
    Calm (rplStat env id) := by
  refine bind (node id) fun found => ?_
  split
  · exact rplStatWithPath id _
  · exact bind (nodePath id) fun path => rplStatWithPath id path

end Calm

/-- What a mild action does is at most growth. -/
theorem Mild.sound
    {α : Type}
    {act : Daemon α}
    (mild : Mild act)
    (start : Forest) :
    Keeps (fun sys => Forest.Sound start sys.forest) act := by
  intro sys holds
  obtain ⟨same, sameTable⟩ :=
    mild sys.forest sys ⟨NodeArena.SameShape.refl _, rfl⟩
  have grown := Forest.Sound.sameShape holds.ok same
  rw [← sameTable] at grown
  exact holds.trans grown

/-! ## Copy-up -/

/--
A property that system calls keep, and a node that is now on the upper layer.
A copy-up does nothing else.
-/
structure CopyRule (kept : Sys → Prop) : Prop where
  lifts : ∀ {α : Type} (act : Syscall α), Keeps kept (liftM act : Daemon α)
  marks : ∀ nodeId, Keeps kept (markUpper nodeId)

namespace CopyRule

variable {kept : Sys → Prop} (rule : CopyRule kept)

include rule

theorem createOneDirectory
    (nodeId : NodeId) :
    Keeps kept (Daemon.createOneDirectory env nodeId) := by
  refine Keeps.bind (Keeps.gets _) fun path => ?_
  refine Keeps.bind (keeps_node nodeId) fun found => ?_
  refine Keeps.bind (rule.lifts _) fun _ => ?_
  refine Keeps.bind (rule.marks nodeId) fun _ => ?_
  cases found.parent with
  | none =>
      exact Keeps.pure ()
  | some parentId =>
      refine Keeps.bind (Keeps.gets _) fun parentPath => ?_
      exact Keeps.bind (rule.lifts _) fun _ => Keeps.pure _

theorem createNodeDirectory
    (fuel : Nat)
    (nodeId : NodeId) :
    Keeps kept (Daemon.createNodeDirectory env fuel nodeId) := by
  induction fuel generalizing nodeId with
  | zero =>
      exact Keeps.fail _
  | succ fuel inductionHypothesis =>
      refine Keeps.bind (keeps_node nodeId) fun found => ?_
      split
      · exact Keeps.pure ()
      · cases found.parent with
        | none =>
            exact rule.createOneDirectory nodeId
        | some parentId =>
            refine Keeps.bind (Keeps.gets _) fun parent => ?_
            refine Keeps.bind (Keeps.runIf (inductionHypothesis parentId))
              fun _ => ?_
            exact rule.createOneDirectory nodeId

theorem createNodeDirectoryOf
    (nodeId : NodeId) :
    Keeps kept (Daemon.createNodeDirectoryOf env nodeId) :=
  Keeps.bind (Keeps.gets _) fun size =>
    rule.createNodeDirectory (size + 1) nodeId

theorem copyup
    (nodeId : NodeId) :
    Keeps kept (Daemon.copyup env nodeId) := by
  refine Keeps.bind (Keeps.check _ _) fun _ => ?_
  refine Keeps.bind (Keeps.gets _) fun path => ?_
  refine Keeps.bind (keeps_node nodeId) fun found => ?_
  refine Keeps.bind (rule.lifts _) fun _ => ?_
  refine Keeps.bind (rule.lifts _) fun st => ?_
  refine Keeps.bind ?_ fun _ => ?_
  · unfold copyupParent
    cases found.parent with
    | none =>
        exact Keeps.pure ()
    | some parentId =>
        exact rule.createNodeDirectoryOf parentId
  · split
    · exact rule.createNodeDirectoryOf nodeId
    all_goals exact Keeps.bind (rule.lifts _) fun _ => rule.marks nodeId

theorem getNodeUp
    (nodeId : NodeId) :
    Keeps kept (Daemon.getNodeUp env nodeId) := by
  refine Keeps.bind (Keeps.check _ _) fun _ => ?_
  refine Keeps.bind (keeps_node nodeId) fun found => ?_
  split
  · exact Keeps.pure ()
  · exact rule.copyup nodeId

end CopyRule

theorem calm_markUpper
    (nodeId : NodeId) :
    Calm (markUpper nodeId) :=
  Calm.modifyNode nodeId (fun _ => rfl) fun _ _ => rfl

theorem calm_getNodeUp
    (nodeId : NodeId) :
    Calm (getNodeUp env nodeId) where
  mild := fun start => CopyRule.getNodeUp
    ⟨fun act => (Calm.lift act).mild start,
      fun id => (calm_markUpper id).mild start⟩ nodeId
  marked := fun start => CopyRule.getNodeUp
    ⟨fun act => (Calm.lift act).marked start,
      fun id => (calm_markUpper id).marked start⟩ nodeId
  handles := fun fh entries => CopyRule.getNodeUp
    ⟨fun act => (Calm.lift act).handles fh entries,
      fun id => (calm_markUpper id).handles fh entries⟩ nodeId

/-! ## Loading -/

/-- The tree has grown from `start`; inode numbers mean what they meant. -/
def StillFrom
    (start : Forest)
    (sys : Sys) : Prop :=
  Forest.Sound start sys.forest ∧
    ∀ ino, sys.forest.resolve ino = start.resolve ino

theorem StillFrom.refl
    {sys : Sys}
    (ok : sys.forest.Ok) :
    StillFrom sys.forest sys :=
  ⟨.refl ok, fun _ => rfl⟩

/-- The action only adds to the tree. -/
def Still
    {α : Type}
    (act : Daemon α) : Prop :=
  ∀ start, Keeps (StillFrom start) act

namespace Still

variable {α β : Type}

theorem of_mild
    {act : Daemon α}
    (mild : Mild act) :
    Still act := by
  intro start sys holds
  obtain ⟨same, sameTable⟩ :=
    mild sys.forest sys ⟨NodeArena.SameShape.refl _, rfl⟩
  refine ⟨mild.sound start sys holds.1, fun ino => ?_⟩
  rw [← holds.2 ino]
  have resolved :
      Forest.resolve ⟨(act sys).2.nodes, sys.inodes⟩ ino =
        sys.forest.resolve ino :=
    Forest.resolve_congr fun _ _ => same.live_iff
  have table : (act sys).2.inodes = sys.inodes := sameTable
  rw [← resolved, ← table]
  rfl

theorem of_calm
    {act : Daemon α}
    (calm : Calm act) :
    Still act :=
  of_mild calm.mild

theorem bind
    {first : Daemon α}
    {next : α → Daemon β}
    (firstStill : Still first)
    (nextStill : ∀ value, Still (next value)) :
    Still (first >>= next) :=
  fun start => Keeps.bind (firstStill start) fun value => nextStill value start

theorem runIf
    {test : Bool}
    {act : Daemon Unit}
    (still : Still act) :
    Still (Act.runIf test act) :=
  fun start => Keeps.runIf (still start)

theorem map
    {act : Daemon α}
    {transform : α → β}
    (still : Still act) :
    Still (transform <$> act) :=
  fun start => Keeps.map (still start)

end Still

/-- Nothing is in the tree under the name. -/
def Absent
    (parent : NodeId)
    (name : Name)
    (forest : Forest) : Prop :=
  ∀ child, ¬ forest.nodes.Entry parent name child

/-- A node without children. -/
def Bare (node : OvlNode) : Prop :=
  ∀ name, node.getChild name = none

theorem bare_of_dirState
    {node : OvlNode}
    {isDir : Bool}
    (new : node.dirState = if isDir then .dir ∅ ∅ false else .notADir) :
    Bare node := by
  intro query
  cases isDir <;> simp [OvlNode.getChild, new]

/-- A new node under a free name. -/
theorem still_insertChildNode
    {start : Forest}
    {parentId : NodeId}
    {name : Name}
    {child : OvlNode}
    (bare : Bare child)
    (points : child.parent = some parentId)
    (label : child.name = name) :
    Holds
      (fun sys => StillFrom start sys ∧ Absent parentId name sys.forest)
      (insertChildNode parentId child)
      fun _ => StillFrom start := by
  subst label
  rintro sys ⟨⟨sound, sameNumbers⟩, absent⟩
  have inserted := Forest.Sound.insert sound.ok bare
  have attached : Forest.Sound sys.forest
      ⟨(sys.nodes.insert child).2.modify parentId
        (·.insertChild child.name sys.nodes.nextId), sys.inodes⟩ := by
    refine inserted.attach ?_ points rfl bare le_rfl absent
    exact (NodeArena.get?_insert ..).trans (if_pos rfl)
  refine ⟨sound.trans attached, fun ino => ?_⟩
  rw [← sameNumbers ino]
  exact (Forest.resolve_modify ..).trans
    (Forest.Sound.resolve_insert sound.ok child ino)

theorem still_loadNormalEntry
    {start : Forest}
    (parentId : NodeId)
    (path : Path)
    (layerIdx : Nat)
    (entry : DirEntry) :
    Holds
      (fun sys => StillFrom start sys ∧
        Absent parentId entry.name sys.forest)
      (loadNormalEntry env parentId path layerIdx entry)
      fun _ => StillFrom start := by
  refine Holds.bind
    (keeps_lift (fun forest => (Forest.Sound start forest ∧
      ∀ ino, forest.resolve ino = start.resolve ino) ∧
        Absent parentId entry.name forest) _)
    (fun found => ?_) (fun _ _ holds => holds.1)
  obtain ⟨ino, dev, mode⟩ := found
  refine Holds.bind
    (still_insertChildNode (bare_of_dirState rfl) rfl rfl) (fun _ => ?_)
    (fun _ _ holds => holds)
  exact Keeps.pure _

/-- Recording a whiteout is invisible to the tree. -/
theorem mild_insertWhiteout
    (parentId : NodeId)
    (name : Name) :
    Mild (modifyNode parentId fun parent => parent.insertWhiteout name) :=
  mild_modifyNode parentId (by simp)

theorem calm_setLastLayer
    (id : NodeId)
    (layerIdx : Nat) :
    Calm (modifyNode id fun existing =>
      { existing with lastLayerIdx := layerIdx }) :=
  Calm.modifyNode id (fun _ => rfl) fun _ _ => rfl

theorem still_loadNewEntry
    {start : Forest}
    (parentId : NodeId)
    (path : Path)
    (layerIdx : Nat)
    (entry : DirEntry) :
    Holds
      (fun sys => StillFrom start sys ∧
        Absent parentId entry.name sys.forest)
      (loadNewEntry env parentId path layerIdx entry)
      fun _ => StillFrom start := by
  have lifted :
      ∀ {α : Type} (act : Syscall α),
        Keeps
          (fun sys => StillFrom start sys ∧
            Absent parentId entry.name sys.forest)
          (liftM act : Daemon α) :=
    fun act => keeps_lift (fun forest => (Forest.Sound start forest ∧
      ∀ ino, forest.resolve ino = start.resolve ino) ∧
        Absent parentId entry.name forest) act
  have whiteout :
      ∀ name,
        Holds
          (fun sys => StillFrom start sys ∧
            Absent parentId entry.name sys.forest)
          (modifyNode parentId fun parent => parent.insertWhiteout name)
          fun _ => StillFrom start :=
    fun name sys holds =>
      Still.of_mild (mild_insertWhiteout parentId name) start sys holds.1
  refine Holds.bind (lifted _) (fun whited => ?_) (fun _ _ holds => holds.1)
  split
  · exact whiteout entry.name
  · split
    · refine Holds.bind (Keeps.gets _) (fun parent => ?_)
        (fun _ _ holds => holds.1)
      unfold Act.runIf
      split
      · exact whiteout _
      · exact Holds.pure fun _ holds => holds.1
    · refine Holds.bind (lifted _) (fun device => ?_)
        (fun _ _ holds => holds.1)
      split
      · exact whiteout entry.name
      · exact still_loadNormalEntry parentId path layerIdx entry

theorem still_loadEntry
    (parentId : NodeId)
    (path : Path)
    (layerIdx : Nat)
    (entry : DirEntry) :
    Still (loadEntry env parentId path layerIdx entry) := by
  intro start
  unfold loadEntry
  split
  · exact Keeps.pure _
  · refine Holds.getsBind fun parent => ?_
    cases found : parent.bind (·.getChild entry.name) with
    | some existingId =>
        rintro sys ⟨holds, -⟩
        exact Still.of_calm (calm_setLastLayer existingId layerIdx)
          start sys holds
    | none =>
        simp only
        split
        · exact Holds.pure fun _ holds => holds.1
        · rintro sys ⟨holds, rfl⟩
          refine still_loadNewEntry parentId path layerIdx entry sys
            ⟨holds, ?_⟩
          rintro child ⟨node, stored, isChild⟩
          change sys.nodes.get? parentId = some node at stored
          rw [stored, Option.bind_some, isChild] at found
          cases found

theorem still_loadStream
    (parentId : NodeId)
    (path : Path)
    (layerIdx : Nat)
    (stop : Bool) :
    Still (loadStream env parentId path layerIdx stop) := by
  refine .bind (.of_calm (.lift _)) fun stream => ?_
  cases stream with
  | error errno =>
      exact .of_calm (.pure stop)
  | ok entries =>
      refine .bind (fun start => Keeps.each (fun entry =>
        still_loadEntry parentId path layerIdx entry start) entries)
        fun _ => ?_
      exact .bind (.of_calm (.lift _)) fun cut => .of_calm (.pure _)

theorem still_loadLayer
    (parentId : NodeId)
    (path : Path)
    (lastLayerStop : Option Nat)
    (layerIdx : Nat) :
    Still (loadLayer env parentId path lastLayerStop layerIdx) := by
  refine .bind (.of_calm (.lift _)) fun found => ?_
  split
  · split
    · exact .map (still_loadStream parentId path layerIdx _)
    · exact .of_calm (.pure none)
  all_goals exact .of_calm (.pure _)

theorem still_loadLayers
    (parentId : NodeId)
    (path : Path)
    (lastLayerStop : Option Nat)
    (layers : List Nat) :
    Still (loadLayers env parentId path lastLayerStop layers) := by
  induction layers with
  | nil =>
      exact .of_calm (.pure ())
  | cons layerIdx rest inductionHypothesis =>
      refine .bind
        (still_loadLayer parentId path lastLayerStop layerIdx) fun next => ?_
      split
      · exact inductionHypothesis
      · exact .of_calm (.pure ())

theorem still_loadDirImpl
    (parentId : NodeId)
    (path : Path)
    (lastLayerStop : Option Nat) :
    Still (loadDirImpl env parentId path lastLayerStop) :=
  .bind (still_loadLayers parentId path lastLayerStop _) fun _ =>
    .of_calm (.modifyNode parentId (by simp) (by simp))

theorem still_reloadDir
    (nodeId : NodeId) :
    Still (reloadDir env nodeId) := by
  refine .bind (.of_calm (.gets _)) fun found => ?_
  cases found with
  | none =>
      exact .of_calm (.pure true)
  | some node =>
      simp only
      split
      · exact .of_calm (.pure true)
      · refine .bind (.of_calm (.nodePath nodeId)) fun path => ?_
        refine .bind (still_loadDirImpl nodeId path _) fun _ => ?_
        exact .of_calm (.pure true)

/-! ## Lazy lookup -/

/-- A node that is ready to become the child `name` of `parentId`. -/
def Candidate
    (parentId : NodeId)
    (name : Name)
    (child : OvlNode) : Prop :=
  child.parent = some parentId ∧ child.name = name ∧ Bare child ∧
    child.hidden = false

/-- A calm step whose found node, if any, is a candidate. -/
def LazyPost
    (start : Forest)
    (parentId : NodeId)
    (name : Name)
    (outcome : Except Errno LazyStep)
    (sys : Sys) : Prop :=
  CalmFrom start sys ∧
    ∀ child stop, outcome = .ok (.next (some child) stop) →
      Candidate parentId name child

theorem lazyPost_of_mild
    {start : Forest}
    {parentId : NodeId}
    {name : Name}
    {act : Daemon LazyStep}
    (mild : Mild act)
    (nothing :
      ∀ sys child stop, (act sys).1 ≠ .ok (.next (some child) stop)) :
    Holds (CalmFrom start) act (LazyPost start parentId name) :=
  fun sys holds =>
    ⟨mild start sys holds, fun child stop found =>
      (nothing sys child stop found).elim⟩

theorem lazy_whitedOut
    {start : Forest}
    {parentId : NodeId}
    {name : Name}
    (whited : Name) :
    Holds (CalmFrom start) (whitedOut parentId whited)
      (LazyPost start parentId name) := by
  refine lazyPost_of_mild
    (fun start => Keeps.bind (mild_insertWhiteout parentId whited start)
      fun _ => Keeps.pure _) ?_
  intro sys child stop found
  cases found

/-- The first layer that holds the name gives a candidate. -/
theorem lazy_lazyFound
    {start : Forest}
    (parentId : NodeId)
    (parentPath : Path)
    (name : Name)
    (layerIdx : Nat)
    (stop : Bool)
    (st : Stat) :
    Holds (CalmFrom start)
      (lazyFound env parentId parentPath name layerIdx stop st)
      (LazyPost start parentId name) := by
  have candidate :
      ∀ cut, Holds (CalmFrom start)
        (pure (.next (some
          { OvlNode.new name layerIdx st.ino st.dev st.mode.isDir with
            mode := st.mode
            lastLayerIdx := layerIdx
            parent := some parentId }) cut) : Daemon LazyStep)
        (LazyPost start parentId name) := by
    refine fun cut => Holds.pure fun sys holds => ⟨holds, ?_⟩
    intro child later found
    cases found
    exact ⟨rfl, rfl, bare_of_dirState rfl, rfl⟩
  refine Holds.bind (Calm.lift _ start) (fun whited => ?_)
    (fun _ _ holds => ⟨holds, fun _ _ found => by cases found⟩)
  split
  · exact lazy_whitedOut name
  · split
    · exact lazy_whitedOut _
    · split
      · exact lazy_whitedOut name
      · split
        · refine Holds.bind (Calm.lift _ start) (fun cut => ?_)
            (fun _ _ holds => ⟨holds, fun _ _ found => by cases found⟩)
          exact candidate _
        · exact candidate stop

theorem lazy_lazyMissing
    {start : Forest}
    (parentId : NodeId)
    (parentPath : Path)
    (name : Name)
    (layerIdx : Nat)
    (stop : Bool) :
    Holds (CalmFrom start)
      (lazyMissing parentId parentPath name layerIdx stop)
      (LazyPost start parentId name) := by
  refine Holds.bind (Calm.lift _ start) (fun whited => ?_)
    (fun _ _ holds => ⟨holds, fun _ _ found => by cases found⟩)
  split
  · exact lazy_whitedOut name
  · exact Holds.pure fun sys holds =>
      ⟨holds, fun _ _ found => by cases found⟩

theorem lazy_lazyLayer
    {start : Forest}
    (parentId : NodeId)
    (parentPath : Path)
    (name : Name)
    (lastLayerIdx layerIdx : Nat)
    {found : Option OvlNode}
    (ready : ∀ child, found = some child → Candidate parentId name child) :
    Holds (CalmFrom start)
      (lazyLayer env parentId parentPath name lastLayerIdx layerIdx found)
      (LazyPost start parentId name) := by
  refine Holds.bind (Calm.lift _ start) (fun outcome => ?_)
    (fun _ _ holds => ⟨holds, fun _ _ found => by cases found⟩)
  cases found with
  | some child =>
      have again :
          ∀ stop,
            Holds (CalmFrom start)
              (pure (.next (some child) stop) : Daemon LazyStep)
              (LazyPost start parentId name) := by
        intro stop
        refine Holds.pure fun sys holds => ⟨holds, ?_⟩
        intro later halt same
        cases same
        exact ready child rfl
      split
      · exact again _
      · exact again _
      · exact again _
      · exact Holds.pure fun sys holds =>
          ⟨holds, fun _ _ found => by cases found⟩
      · refine Holds.pure fun sys holds => ⟨holds, ?_⟩
        intro later stop same
        cases same
        exact ready child rfl
  | none =>
      split
      · exact lazy_lazyMissing parentId parentPath name layerIdx _
      · exact lazy_lazyMissing parentId parentPath name layerIdx _
      · exact lazy_lazyMissing parentId parentPath name layerIdx _
      · exact Holds.pure fun sys holds =>
          ⟨holds, fun _ _ found => by cases found⟩
      · exact lazy_lazyFound parentId parentPath name layerIdx _ _

theorem lazy_lazyLayers
    {start : Forest}
    (parentId : NodeId)
    (parentPath : Path)
    (name : Name)
    (lastLayerIdx : Nat)
    (layers : List Nat)
    {found : Option OvlNode}
    (ready : ∀ child, found = some child → Candidate parentId name child) :
    Holds (CalmFrom start)
      (lazyLayers env parentId parentPath name lastLayerIdx layers found)
      fun outcome sys => CalmFrom start sys ∧
        ∀ child, outcome = .ok (some child) →
          Candidate parentId name child := by
  induction layers generalizing found with
  | nil =>
      refine Holds.pure fun sys holds => ⟨holds, ?_⟩
      intro child same
      cases same
      exact ready child rfl
  | cons layerIdx rest inductionHypothesis =>
      refine Holds.bind
        (lazy_lazyLayer parentId parentPath name lastLayerIdx layerIdx ready)
        (fun step => ?_)
        (fun _ _ holds => ⟨holds.1, fun _ found => by cases found⟩)
      cases step with
      | done =>
          exact Holds.pure fun sys holds =>
            ⟨holds.1, fun _ found => by cases found⟩
      | next found stop =>
          intro sys holds
          have ready :
              ∀ child, found = some child → Candidate parentId name child := by
            rintro child rfl
            exact holds.2 child stop rfl
          cases stop with
          | true =>
              refine ⟨holds.1, fun child same => ?_⟩
              cases same
              exact ready child rfl
          | false =>
              exact inductionHypothesis ready sys holds.1

/-- The new node is stored, perhaps registered, and attached. -/
theorem adoptChild_eq
    (parentId : NodeId)
    (child : OvlNode)
    (sys : Sys) :
    ∃ inodes,
      adoptChild env parentId child sys =
        (.ok (some sys.nodes.nextId),
          { sys with
            nodes := (sys.nodes.insert child).2.modify parentId
              (·.insertChild child.name sys.nodes.nextId)
            inodes := inodes }) ∧
      (inodes = sys.inodes ∨ ∃ number,
        sys.inodes.register env.order (sys.nodes.insert child).2
          sys.nodes.nextId child.tmpIno child.tmpDev child.mode =
            some (number, inodes)) := by
  by_cases numbered : child.tmpIno = 0
  · refine ⟨sys.inodes, ?_, .inl rfl⟩
    simp only [adoptChild, Act.runIf, numbered, ne_eq, not_true_eq_false,
      decide_false, Bool.false_eq_true, ↓reduceIte]
    rfl
  · cases registered : sys.inodes.register env.order
        (sys.nodes.insert child).2 sys.nodes.nextId child.tmpIno child.tmpDev
        child.mode with
    | none =>
        refine ⟨sys.inodes, ?_, .inl rfl⟩
        simp only [adoptChild, Act.runIf, numbered, ne_eq, not_false_eq_true,
          decide_true, ↓reduceIte, Act.bind_apply, insertNode, register,
          registered]
        rfl
    | some answer =>
        refine ⟨answer.2, ?_, .inr ⟨answer.1, rfl⟩⟩
        simp only [adoptChild, Act.runIf, numbered, ne_eq, not_false_eq_true,
          decide_true, ↓reduceIte, Act.bind_apply, insertNode, register,
          registered]
        rfl

/-- Where a number leads after a lookup that made the node `new`. -/
def Redirected
    (start now : Forest)
    (new : NodeId) : Prop :=
  ∀ {ino id}, start.resolve ino = some id →
    now.resolve ino = some id ∨
      (¬ start.nodes.DirNode id ∧
        ∀ later, now.resolve ino = some later →
          later = new ∨ ¬ now.nodes.DirNode later)

/-- What a lookup that made the node `new` under `name` leaves. -/
structure Adopted
    (start now : Forest)
    (parentId : NodeId)
    (name : Name)
    (new : NodeId) : Prop where
  sound : Forest.Sound start now
  live : now.nodes.Live new
  fresh : start.nodes.nextId ≤ new
  childless : ∀ query below, ¬ now.nodes.Entry new query below
  attached :
    start.nodes.DirNode parentId → now.nodes.Entry parentId name new
  detached : ¬ start.nodes.DirNode parentId → now.nodes.Orphan new
  redirected : Redirected start now new

theorem adopted_adoptChild
    {parentId : NodeId}
    {name : Name}
    {child : OvlNode}
    {sys : Sys}
    (ok : sys.forest.Ok)
    (parentLive : sys.nodes.Live parentId)
    (candidate : Candidate parentId name child)
    (absent : Absent parentId name sys.forest) :
    (adoptChild env parentId child sys).1 = .ok (some sys.nodes.nextId) ∧
      Adopted sys.forest (adoptChild env parentId child sys).2.forest
        parentId name sys.nodes.nextId := by
  obtain ⟨points, rfl, bare, -⟩ := candidate
  obtain ⟨inodes, outcome, table⟩ := @adoptChild_eq env parentId child sys
  rw [outcome]
  refine ⟨rfl, ?_⟩
  have stored :
      (sys.nodes.insert child).2.get? sys.nodes.nextId = some child :=
    (NodeArena.get?_insert ..).trans (if_pos rfl)
  have inserted : Forest.Sound sys.forest
      ⟨(sys.nodes.insert child).2, sys.inodes⟩ :=
    Forest.Sound.insert ok bare
  have apart : parentId ≠ sys.nodes.nextId :=
    Nat.ne_of_lt (ok.tree.bounded parentLive)
  have kindKept :
      (sys.nodes.insert child).2.DirNode parentId ↔
        sys.nodes.DirNode parentId :=
    ⟨fun dir => inserted.grown.kinds dir (ok.tree.bounded parentLive),
      inserted.grown.dirs⟩
  have registered : Forest.Sound sys.forest
      ⟨(sys.nodes.insert child).2, inodes⟩ ∧
      Redirected sys.forest ⟨(sys.nodes.insert child).2, inodes⟩
        sys.nodes.nextId := by
    rcases table with rfl | ⟨number, registered⟩
    · refine ⟨inserted, fun resolved => .inl ?_⟩
      exact (Forest.Sound.resolve_insert ok child _).trans resolved
    · refine ⟨inserted.register (Nat.lt_succ_self _) registered, ?_⟩
      intro ino id resolved
      have before :
          Forest.resolve ⟨(sys.nodes.insert child).2, sys.inodes⟩ ino =
            some id :=
        (Forest.Sound.resolve_insert ok child _).trans resolved
      rcases Forest.resolve_register registered before with
        kept | ⟨noDir, others⟩
      · exact .inl kept
      · exact .inr ⟨fun dir => noDir (inserted.grown.dirs dir), others⟩
  have entries :
      ∀ {above query below},
        ((sys.nodes.insert child).2.modify parentId
          (·.insertChild child.name sys.nodes.nextId)).Entry above query
            below ↔ _ :=
    NodeArena.TreeBut.entry_attach
  refine ⟨?_, ?_, le_rfl, ?_, ?_, ?_, ?_⟩
  · exact registered.1.attach stored points rfl bare le_rfl absent
  · exact NodeArena.live_modify.mpr ⟨child, stored⟩
  · intro query below entry
    rcases entries.mp entry with ⟨isParent, -⟩ | ⟨-, found, found', isChild⟩
    · exact apart isParent.symm
    · rw [stored] at found'
      cases found'
      rw [bare] at isChild
      cases isChild
  · intro dir
    exact entries.mpr (.inl ⟨rfl, kindKept.mpr dir, rfl, rfl⟩)
  · intro noDir above query entry
    rcases entries.mp entry with ⟨-, dir, -⟩ | ⟨-, older⟩
    · exact noDir (kindKept.mp dir)
    · rcases NodeArena.entry_insert.mp older with ⟨-, isChild⟩ | ⟨-, oldest⟩
      · rw [bare] at isChild
        cases isChild
      · exact ok.tree.orphan_nextId above query oldest
  · intro ino id resolved
    have same :
        Forest.resolve
          ⟨(sys.nodes.insert child).2.modify parentId
            (·.insertChild child.name sys.nodes.nextId), inodes⟩ ino =
          Forest.resolve ⟨(sys.nodes.insert child).2, inodes⟩ ino :=
      Forest.resolve_modify ..
    rcases registered.2 resolved with kept | ⟨noDir, others⟩
    · exact .inl (same.trans kept)
    · refine .inr ⟨noDir, fun later found => ?_⟩
      rcases others later (same.symm.trans found) with isNew | laterNoDir
      · exact .inl isNew
      · exact .inr fun dir =>
          laterNoDir (Forest.dirNode_insertChild.mp dir)

/-- The lookup of a cached name answers from the cache. -/
theorem doLookupFile_cached
    {sys : Sys}
    {parent : UInt64}
    {above id : NodeId}
    {name : Name}
    (resolved : sys.forest.resolve parent = some above)
    (entry : sys.nodes.Entry above name id) :
    doLookupFile env parent name sys = (.ok (some id), sys) := by
  obtain ⟨node, stored, isChild⟩ := entry
  unfold doLookupFile
  rw [Act.bind_ok (show resolveIno parent sys = (.ok (some above), sys) by
    rw [← resolved]; rfl)]
  simp only
  rw [Act.bind_ok (show getNode above sys = (.ok (some node), sys) by
    rw [← stored]; rfl)]
  simp only [isChild]
  rfl

/-- What `do_lookup_file` leaves, by its answer. -/
inductive LookedUp
    (start : Forest)
    (ino : UInt64)
    (name : Name) :
    Except Errno (Option NodeId) → Forest → Prop where
  | nothing
      {outcome : Except Errno (Option NodeId)}
      {nodes : NodeArena} :
      (∀ id, outcome ≠ .ok (some id)) →
      NodeArena.SameShape start.nodes nodes →
      LookedUp start ino name outcome ⟨nodes, start.inodes⟩
  | cached
      {parent id : NodeId} :
      start.resolve ino = some parent →
      start.nodes.Entry parent name id →
      LookedUp start ino name (.ok (some id)) start
  | adopted
      {parent id : NodeId}
      {now : Forest} :
      start.resolve ino = some parent →
      Adopted start now parent name id →
      LookedUp start ino name (.ok (some id)) now

theorem lookedUp_of_calm
    {start : Forest}
    {ino : UInt64}
    {name : Name}
    {outcome : Except Errno (Option NodeId)}
    {sys : Sys}
    (calm : CalmFrom start sys)
    (nothing : ∀ id, outcome ≠ .ok (some id)) :
    LookedUp start ino name outcome sys.forest := by
  obtain ⟨same, sameTable⟩ := calm
  unfold Sys.forest
  rw [sameTable]
  exact .nothing nothing same

theorem lookedUp_doLazyLookup
    {start : Forest}
    (ok : start.Ok)
    {ino : UInt64}
    {parentId : NodeId}
    {name : Name}
    (resolved : start.resolve ino = some parentId)
    (absent : Absent parentId name start) :
    Holds (fun sys => sys.forest = start)
      (doLazyLookup env parentId name)
      fun outcome sys => LookedUp start ino name outcome sys.forest := by
  rintro sys rfl
  obtain ⟨parent, stored⟩ := Forest.live_of_resolve ok resolved
  change sys.nodes.get? parentId = some parent at stored
  have calmStart : CalmFrom sys.forest sys :=
    ⟨NodeArena.SameShape.refl _, rfl⟩
  have searched :=
    @lazy_lazyLayers env sys.forest parentId (nodeParts sys.nodes parentId)
      name parent.lastLayerIdx (layerIndices env) none
      (by simp) sys calmStart
  unfold doLazyLookup
  rw [Act.bind_ok (show getNode parentId sys = (.ok (some parent), sys) by
    rw [← stored]; rfl)]
  simp only
  rw [Act.bind_ok (show nodePath parentId sys =
    (.ok (nodeParts sys.nodes parentId), sys) from rfl)]
  rw [Act.bind_apply]
  rcases run : lazyLayers env parentId (nodeParts sys.nodes parentId) name
      parent.lastLayerIdx (layerIndices env) none sys with ⟨outcome, later⟩
  rw [run] at searched
  obtain ⟨calm, candidate⟩ := searched
  cases outcome with
  | error errno =>
      exact lookedUp_of_calm calm (by simp)
  | ok found =>
      cases found with
      | none =>
          exact lookedUp_of_calm calm (by simp)
      | some child =>
          obtain ⟨same, sameTable⟩ := calm
          have grown : Forest.Sound sys.forest ⟨later.nodes, sys.inodes⟩ :=
            Forest.Sound.sameShape ok same
          have laterForest : later.forest = ⟨later.nodes, sys.inodes⟩ := by
            unfold Sys.forest
            rw [sameTable]
            rfl
          rw [← laterForest] at grown
          have answer :=
            @adopted_adoptChild env parentId name child later grown.ok
              (same.live ⟨parent, stored⟩) (candidate child rfl)
              fun query entry => absent query (same.symm.entry entry)
          simp only
          rw [answer.1]
          refine .adopted resolved ?_
          have adopted := answer.2
          refine ⟨grown.trans adopted.sound, adopted.live, ?_,
            adopted.childless, fun dir => adopted.attached (same.dirNode dir),
            fun noDir => adopted.detached fun dir =>
              noDir (same.symm.dirNode dir), ?_⟩
          · exact same.nextId.symm.le.trans adopted.fresh
          · intro query id queried
            have kept : later.forest.resolve query = some id := by
              rw [laterForest]
              exact (Forest.resolve_congr fun _ _ => same.live_iff).trans
                queried
            rcases adopted.redirected kept with stays | ⟨noDir, others⟩
            · exact .inl stays
            · exact .inr ⟨fun dir => noDir (same.dirNode dir), others⟩

theorem lookedUp_doLookupFile
    {start : Forest}
    (ok : start.Ok)
    (ino : UInt64)
    (name : Name) :
    Holds (fun sys => sys.forest = start)
      (doLookupFile env ino name)
      fun outcome sys => LookedUp start ino name outcome sys.forest := by
  have unchanged :
      ∀ {sys : Sys}, sys.forest = start →
        LookedUp start ino name (.ok none) sys.forest := by
    rintro sys rfl
    exact .nothing (by simp) (.refl _)
  refine Holds.getsBind fun resolved => ?_
  cases resolved with
  | none =>
      exact Holds.pure fun sys holds => unchanged holds.1
  | some parentId =>
      refine Holds.getsBind fun found => ?_
      cases found with
      | none =>
          exact Holds.pure fun sys holds => unchanged holds.1.1
      | some parent =>
          rintro sys ⟨⟨rfl, resolved⟩, stored⟩
          simp only
          cases isChild : parent.getChild name with
          | some childId =>
              exact .cached resolved ⟨parent, stored, isChild⟩
          | none =>
              simp only
              split
              · exact unchanged rfl
              · refine lookedUp_doLazyLookup ok resolved ?_ sys rfl
                rintro child ⟨node, nodeStored, nodeChild⟩
                change sys.nodes.get? parentId = some node at nodeStored
                rw [stored] at nodeStored
                cases nodeStored
                rw [isChild] at nodeChild
                cases nodeChild

/-- A lookup only adds to the tree. -/
theorem LookedUp.sound
    {start now : Forest}
    {ino : UInt64}
    {name : Name}
    {outcome : Except Errno (Option NodeId)}
    (ok : start.Ok)
    (looked : LookedUp start ino name outcome now) :
    Forest.Sound start now := by
  cases looked with
  | nothing _ same =>
      exact .sameShape ok same
  | cached _ _ =>
      exact .refl ok
  | adopted _ adopted =>
      exact adopted.sound

end Daemon

end FuseOverlay
