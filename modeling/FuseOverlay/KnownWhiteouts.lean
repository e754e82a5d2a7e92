import FuseOverlay.TreeInvariant

namespace FuseOverlay

/-!
# Known whiteouts and children

A directory node knows children and whiteouts, and no name should be both.
`insert_child` takes the whiteout of its name away and the loader asks for a
child before it records a whiteout.  `do_lazy_lookup` records the whiteout that
a name `.wh.x` stands for without asking for the child `x`: this is the one
step that can make a name both.
-/

open Act (Keeps Holds)

namespace NodeArena

/--
No name of a node is both a child and a whiteout, and what a child leads to is
not hidden, unless it is the loose node.
-/
structure ClearBut
    (loose : Option NodeId)
    (arena : NodeArena) : Prop where
  apart :
    ∀ {id node name}, arena.get? id = some node →
      node.isWhiteout name = true → node.getChild name = none
  shows :
    ∀ {parent name child node}, arena.Entry parent name child →
      loose ≠ some child → arena.get? child = some node →
      node.hidden = false

/-- Children and whiteouts are apart, and children are shown. -/
abbrev Clear (arena : NodeArena) : Prop :=
  arena.ClearBut none

/-- The node, if it is there, is not hidden. -/
def ShownAt
    (arena : NodeArena)
    (id : NodeId) : Prop :=
  ∀ node, arena.get? id = some node → node.hidden = false

theorem ShownAt.modify
    {arena : NodeArena}
    {id : NodeId}
    (shown : arena.ShownAt id)
    (other : NodeId)
    {change : OvlNode → OvlNode}
    (sameHidden : ∀ node, (change node).hidden = node.hidden) :
    (arena.modify other change).ShownAt id := by
  intro node stored
  rw [get?_modify] at stored
  split at stored
  · next same =>
      subst same
      obtain ⟨old, oldStored, rfl⟩ := Option.map_eq_some_iff.mp stored
      rw [sameHidden]
      exact shown old oldStored
  · exact shown node stored

namespace ClearBut

variable {loose : Option NodeId} {arena : NodeArena}

/-- A change of one node that adds no child. -/
theorem modify
    (clear : arena.ClearBut loose)
    (id : NodeId)
    {change : OvlNode → OvlNode}
    (sameHidden : ∀ node, (change node).hidden = node.hidden)
    (fewer :
      ∀ node name child, (change node).getChild name = some child →
        node.getChild name = some child)
    (apart :
      ∀ node name, arena.get? id = some node →
        (change node).isWhiteout name = true →
        node.isWhiteout name = true ∨ node.getChild name = none) :
    (arena.modify id change).ClearBut loose where
  apart := by
    intro query node name stored isWhite
    rw [get?_modify] at stored
    split at stored
    · next same =>
        subst same
        obtain ⟨old, oldStored, rfl⟩ := Option.map_eq_some_iff.mp stored
        have absent : old.getChild name = none := by
          rcases apart old name oldStored isWhite with older | absent
          · exact clear.apart oldStored older
          · exact absent
        cases isChild : (change old).getChild name with
        | none =>
            rfl
        | some child =>
            rw [fewer old name child isChild] at absent
            cases absent
    · exact clear.apart stored isWhite
  shows := by
    intro parent name child node entry tight stored
    have older : arena.Entry parent name child := by
      rcases entry_modify.mp entry with
        ⟨rfl, above, aboveStored, isChild⟩ | ⟨-, older⟩
      · exact ⟨above, aboveStored, fewer above name child isChild⟩
      · exact older
    rw [get?_modify] at stored
    split at stored
    · next same =>
        subst same
        obtain ⟨old, oldStored, rfl⟩ := Option.map_eq_some_iff.mp stored
        rw [sameHidden]
        exact clear.shows older tight oldStored
    · exact clear.shows older tight stored

/-- A change of one node that keeps its children and whiteouts. -/
theorem settle
    (clear : arena.ClearBut loose)
    (id : NodeId)
    {change : OvlNode → OvlNode}
    (sameChildren :
      ∀ node name, (change node).getChild name = node.getChild name)
    (sameMarks :
      ∀ node name, (change node).isWhiteout name = node.isWhiteout name)
    (sameHidden : ∀ node, (change node).hidden = node.hidden) :
    (arena.modify id change).ClearBut loose := by
  refine clear.modify id sameHidden (fun node name child isChild => ?_)
    fun node name _ isWhite => ?_
  · rwa [sameChildren] at isChild
  · rw [sameMarks] at isWhite
    exact .inl isWhite

/-- A whiteout of a name that is no child. -/
theorem mark
    (clear : arena.ClearBut loose)
    (id : NodeId)
    {white : Name}
    (free : ∀ child, ¬ arena.Entry id white child) :
    (arena.modify id (·.insertWhiteout white)).ClearBut loose := by
  have sameChildren :
      ∀ node name, (OvlNode.insertWhiteout node white).getChild name =
        node.getChild name :=
    fun node => OvlNode.getChild_of_shape (OvlNode.shape_insertWhiteout ..)
  refine clear.modify id (by simp) (fun node name child isChild => ?_)
    fun node name stored isWhite => ?_
  · rwa [sameChildren] at isChild
  · cases kind : node.dirState with
    | notADir =>
        exact .inr (by simp [OvlNode.getChild, kind])
    | dir children whiteouts loaded =>
        have isDir : node.isDir = true := by simp [OvlNode.isDir, kind]
        rw [OvlNode.isWhiteout_insertWhiteout isDir] at isWhite
        simp only [Bool.or_eq_true, decide_eq_true_eq] at isWhite
        rcases isWhite with rfl | older
        · refine .inr (Option.eq_none_iff_forall_ne_some.mpr ?_)
          intro child isChild
          exact free child ⟨node, stored, isChild⟩
        · exact .inl older

/-- A child that is not hidden. -/
theorem attach
    (clear : arena.ClearBut loose)
    (id : NodeId)
    (name : Name)
    {child : NodeId}
    (shown : arena.ShownAt child) :
    (arena.modify id (·.insertChild name child)).ClearBut loose where
  apart := by
    intro query node asked stored isWhite
    rw [get?_modify] at stored
    split at stored
    · next same =>
        subst same
        obtain ⟨old, oldStored, rfl⟩ := Option.map_eq_some_iff.mp stored
        rw [OvlNode.isWhiteout_insertChild] at isWhite
        simp only [Bool.and_eq_true, decide_eq_true_eq] at isWhite
        rw [OvlNode.getChild_insertChild, if_neg]
        · exact clear.apart oldStored isWhite.2
        · rintro ⟨isDir, rfl⟩
          rcases isWhite.1 with other | noDir
          · exact other rfl
          · rw [noDir] at isDir
            cases isDir
    · exact clear.apart stored isWhite
  shows := by
    intro parent asked below node entry tight stored
    have before : ∃ old, arena.get? below = some old ∧
        old.hidden = node.hidden := by
      rw [get?_modify] at stored
      split at stored
      · next same =>
          subst same
          obtain ⟨old, oldStored, rfl⟩ := Option.map_eq_some_iff.mp stored
          exact ⟨old, oldStored, (OvlNode.hidden_insertChild ..).symm⟩
      · exact ⟨node, stored, rfl⟩
    obtain ⟨old, oldStored, same⟩ := before
    rw [← same]
    rcases TreeBut.entry_attach.mp entry with ⟨-, -, -, rfl⟩ | ⟨-, older⟩
    · exact shown old oldStored
    · exact clear.shows older tight oldStored

theorem detach
    (clear : arena.ClearBut loose)
    (id : NodeId)
    (name : Name) :
    (arena.modify id (·.removeChild name)).ClearBut loose := by
  refine clear.modify id (by simp) (fun node query child isChild => ?_)
    fun node query _ isWhite => ?_
  · rw [OvlNode.getChild_removeChild] at isChild
    split at isChild
    · cases isChild
    · exact isChild
  · rw [OvlNode.isWhiteout_removeChild] at isWhite
    exact .inl isWhite

/-- A new node without children. -/
theorem insert
    (clear : arena.ClearBut loose)
    {new : OvlNode}
    (bare : Daemon.Bare new)
    (shown : new.hidden = false) :
    (arena.insert new).2.ClearBut loose where
  apart := by
    intro id node name stored isWhite
    rw [get?_insert] at stored
    split at stored
    · cases stored
      exact bare name
    · exact clear.apart stored isWhite
  shows := by
    intro parent name child node entry tight stored
    have older : arena.Entry parent name child := by
      rcases entry_insert.mp entry with ⟨-, isChild⟩ | ⟨-, older⟩
      · rw [bare] at isChild
        cases isChild
      · exact older
    rw [get?_insert] at stored
    split at stored
    · cases stored
      exact shown
    · exact clear.shows older tight stored

/-- A node that becomes hidden is loose. -/
theorem hide
    (clear : arena.ClearBut none)
    (id : NodeId)
    {change : OvlNode → OvlNode}
    (sameDir : ∀ node, (change node).dirState = node.dirState) :
    (arena.modify id change).ClearBut (some id) where
  apart := by
    intro query node name stored isWhite
    rw [get?_modify] at stored
    split at stored
    · next same =>
        subst same
        obtain ⟨old, oldStored, rfl⟩ := Option.map_eq_some_iff.mp stored
        unfold OvlNode.isWhiteout at isWhite
        unfold OvlNode.getChild
        rw [sameDir] at isWhite ⊢
        exact clear.apart oldStored isWhite
    · exact clear.apart stored isWhite
  shows := by
    intro parent name child node entry tight stored
    have older : arena.Entry parent name child := by
      refine (entry_modify_of_children fun found query => ?_).mp entry
      unfold OvlNode.getChild
      rw [sameDir]
    rw [get?_modify, if_neg (fun same => tight (congrArg some same.symm))]
      at stored
    exact clear.shows older (by simp) stored

/-- Nothing leads to the loose node any more. -/
theorem tighten
    {id : NodeId}
    (clear : arena.ClearBut (some id))
    (gone : ∀ parent name, ¬ arena.Entry parent name id) :
    arena.ClearBut none where
  apart := clear.apart
  shows := by
    intro parent name child node entry _ stored
    refine clear.shows entry ?_ stored
    rintro ⟨⟩
    exact gone parent name entry

theorem remove
    (clear : arena.ClearBut loose)
    (id : NodeId) :
    (arena.remove id).ClearBut loose where
  apart := by
    intro query node name stored
    rw [get?_remove] at stored
    split at stored
    · cases stored
    · exact clear.apart stored
  shows := by
    intro parent name child node entry tight stored
    rw [get?_remove] at stored
    split at stored
    · cases stored
    · exact clear.shows (entry_remove.mp entry).2 tight stored

end ClearBut

end NodeArena

namespace Daemon

open Syscall Whiteout

variable {env : Env}

theorem keeps_register
    (kept : NodeArena → Prop)
    (id : NodeId)
    (ino dev : UInt64)
    (mode : Mode) :
    Keeps (fun sys => kept sys.nodes) (register env id ino dev mode) := by
  intro sys holds
  unfold register
  split <;> exact holds

theorem Calm.clear
    {α : Type}
    {act : Daemon α}
    {loose : Option NodeId}
    (calm : Calm act) :
    Keeps (fun sys => sys.nodes.ClearBut loose) act := by
  intro sys clear
  obtain ⟨same, -⟩ := calm sys.forest sys ⟨.refl _, rfl⟩
  have marked := calm.marked sys.nodes sys fun _ _ => rfl
  constructor
  · intro id node name stored isWhite
    obtain ⟨old, oldStored, sameShape⟩ := same.symm.get?_of_get? stored
    have sameMark := marked id name
    rw [stored, show sys.nodes.get? id = some old from oldStored] at sameMark
    have older : node.isWhiteout name = old.isWhiteout name :=
      Option.some.inj sameMark
    rw [older] at isWhite
    rw [← OvlNode.getChild_of_shape sameShape name]
    exact clear.apart oldStored isWhite
  · intro parent name child node entry tight stored
    obtain ⟨old, oldStored, sameShape⟩ := same.symm.get?_of_get? stored
    have shown := clear.shows (same.symm.entry entry) tight oldStored
    rw [← shown]
    exact (congrArg (·.2.2.2.1) sameShape).symm

/-! ## Loading -/

/-- What holds while children and whiteouts of one node are added. -/
structure LoadRule
    (parentId : NodeId)
    (kept : NodeArena → Prop) : Prop where
  adds :
    ∀ {arena child}, Bare child → child.hidden = false → kept arena →
      kept ((arena.insert child).2.modify parentId
        (·.insertChild child.name arena.nextId))
  marks :
    ∀ {arena name}, kept arena →
      (∀ child, ¬ arena.Entry parentId name child) →
      kept (arena.modify parentId (·.insertWhiteout name))
  dates :
    ∀ {arena} id layerIdx, kept arena →
      kept (arena.modify id fun existing =>
        { existing with lastLayerIdx := layerIdx })
  ends :
    ∀ {arena}, kept arena →
      kept (arena.modify parentId OvlNode.markLoaded)

theorem loadRule_clear
    (parentId : NodeId) :
    LoadRule parentId NodeArena.Clear where
  adds := by
    intro arena child bare shown clear
    refine (clear.insert bare shown).attach parentId child.name ?_
    intro node stored
    rw [NodeArena.get?_insert, if_pos rfl] at stored
    cases stored
    exact shown
  marks := fun clear absent => clear.mark parentId absent
  dates := fun id layerIdx clear =>
    clear.settle id (fun _ _ => rfl) (fun _ _ => rfl) fun _ => rfl
  ends := fun clear => clear.settle parentId
    (fun node => OvlNode.getChild_of_shape (OvlNode.shape_markLoaded node))
    OvlNode.isWhiteout_markLoaded OvlNode.hidden_markLoaded

namespace LoadRule

variable
  {parentId : NodeId}
  {kept : NodeArena → Prop}
  (rule : LoadRule parentId kept)

include rule

theorem loadNewEntry
    (path : Path)
    (layerIdx : Nat)
    (entry : DirEntry) :
    Holds
      (fun sys => kept sys.nodes ∧ Absent parentId entry.name sys.forest)
      (Daemon.loadNewEntry env parentId path layerIdx entry)
      fun _ sys => kept sys.nodes := by
  have lifted :
      ∀ {α : Type} (act : Syscall α),
        Keeps
          (fun sys => kept sys.nodes ∧ Absent parentId entry.name sys.forest)
          (liftM act : Daemon α) :=
    fun act => keeps_lift (fun forest => kept forest.nodes ∧
      Absent parentId entry.name forest) act
  have whiteout :
      Holds
        (fun sys => kept sys.nodes ∧ Absent parentId entry.name sys.forest)
        (modifyNode parentId fun parent => parent.insertWhiteout entry.name)
        fun _ sys => kept sys.nodes :=
    fun sys holds => rule.marks holds.1 holds.2
  refine Holds.bind (lifted _) (fun whited => ?_) fun _ _ holds => holds.1
  split
  · exact whiteout
  · split
    · next white _ =>
        refine Holds.getsBind fun parent => ?_
        cases child : parent.bind (·.getChild white) with
        | some child =>
            exact Holds.pure fun _ holds => holds.1.1
        | none =>
            rintro sys ⟨⟨holds, -⟩, rfl⟩
            refine rule.marks holds ?_
            rintro below ⟨node, stored, isChild⟩
            change (sys.nodes.get? parentId).bind _ = none at child
            rw [stored, Option.bind_some, isChild] at child
            cases child
    · refine Holds.bind (lifted _) (fun device => ?_) fun _ _ holds => holds.1
      split
      · exact whiteout
      · refine Holds.bind (lifted _) (fun found => ?_)
          fun _ _ holds => holds.1
        obtain ⟨ino, dev, mode⟩ := found
        have adds :
            Holds
              (fun sys => kept sys.nodes ∧
                Absent parentId entry.name sys.forest)
              (insertChildNode parentId
                { OvlNode.new entry.name layerIdx ino dev
                    (mode.isDir || entry.dtype = some .dir) with
                  mode := mode
                  lastLayerIdx := layerIdx
                  parent := some parentId })
              fun _ sys => kept sys.nodes :=
          fun sys holds => rule.adds (bare_of_dirState rfl) rfl holds.1
        exact Holds.bind adds (fun _ => Keeps.pure _) fun _ _ holds => holds

theorem loadEntry
    (path : Path)
    (layerIdx : Nat)
    (entry : DirEntry) :
    Keeps (fun sys => kept sys.nodes)
      (Daemon.loadEntry env parentId path layerIdx entry) := by
  unfold Daemon.loadEntry
  split
  · exact Keeps.pure _
  · refine Holds.getsBind fun parent => ?_
    cases found : parent.bind (·.getChild entry.name) with
    | some existingId =>
        rintro sys ⟨holds, -⟩
        exact rule.dates existingId layerIdx holds
    | none =>
        simp only
        split
        · exact Holds.pure fun _ holds => holds.1
        · rintro sys ⟨holds, rfl⟩
          refine rule.loadNewEntry path layerIdx entry sys ⟨holds, ?_⟩
          rintro child ⟨node, stored, isChild⟩
          change sys.nodes.get? parentId = some node at stored
          rw [stored, Option.bind_some, isChild] at found
          cases found

theorem loadLayer
    (path : Path)
    (lastLayerStop : Option Nat)
    (layerIdx : Nat) :
    Keeps (fun sys => kept sys.nodes)
      (Daemon.loadLayer env parentId path lastLayerStop layerIdx) := by
  refine Keeps.bind (fun _ holds => holds) fun found => ?_
  split
  · split
    · refine Keeps.map (Keeps.bind (fun _ holds => holds) fun stream => ?_)
      cases stream with
      | error errno =>
          exact Keeps.pure _
      | ok entries =>
          refine Keeps.bind
            (Keeps.each (rule.loadEntry path layerIdx) entries) fun _ => ?_
          exact Keeps.bind (fun _ holds => holds) fun cut => Keeps.pure _
    · exact Keeps.pure none
  all_goals exact Keeps.pure _

theorem loadLayers
    (path : Path)
    (lastLayerStop : Option Nat)
    (layers : List Nat) :
    Keeps (fun sys => kept sys.nodes)
      (Daemon.loadLayers env parentId path lastLayerStop layers) := by
  induction layers with
  | nil =>
      exact Keeps.pure ()
  | cons layerIdx rest inductionHypothesis =>
      refine Keeps.bind (rule.loadLayer path lastLayerStop layerIdx)
        fun next => ?_
      split
      · exact inductionHypothesis
      · exact Keeps.pure ()

theorem loadDirImpl
    (path : Path)
    (lastLayerStop : Option Nat) :
    Keeps (fun sys => kept sys.nodes)
      (Daemon.loadDirImpl env parentId path lastLayerStop) :=
  Keeps.bind (rule.loadLayers path lastLayerStop _) fun _ _ holds =>
    rule.ends holds

end LoadRule

/-! ## Lazy lookup -/

/-- A name that a lookup of `name` may record as a whiteout. -/
def WhitedBy
    (name white : Name) : Prop :=
  white = name ∨ whPrefixName name = some white

/-- A layer loop leaves the arena alone, or ends with one whiteout more. -/
def LazyNodes
    {α : Type}
    (start : NodeArena)
    (parentId : NodeId)
    (name : Name)
    (going : α → Prop)
    (outcome : Except Errno α)
    (sys : Sys) : Prop :=
  sys.nodes = start ∨
    (∃ white, WhitedBy name white ∧
      sys.nodes = start.modify parentId (·.insertWhiteout white)) ∧
    ∀ value, outcome = .ok value → ¬ going value

/-- The step hands on to the next layer or ends the loop with a node. -/
def LazyStep.goesOn : LazyStep → Prop
  | .done => False
  | .next .. => True

section LazyNodes

variable
  {start : NodeArena}
  {parentId : NodeId}
  {name : Name}

theorem lazyNodes_whitedOut
    {white : Name}
    (isWhite : WhitedBy name white) :
    Holds (fun sys => sys.nodes = start) (whitedOut parentId white)
      (LazyNodes start parentId name LazyStep.goesOn) := by
  rintro sys rfl
  refine .inr ⟨⟨white, isWhite, rfl⟩, ?_⟩
  rintro step same
  cases same
  exact id

theorem lazyNodes_lazyFound
    (parentPath : Path)
    (layerIdx : Nat)
    (stop : Bool)
    (st : Stat) :
    Holds (fun sys => sys.nodes = start)
      (lazyFound env parentId parentPath name layerIdx stop st)
      (LazyNodes start parentId name LazyStep.goesOn) := by
  have lifted :
      ∀ {α : Type} (act : Syscall α),
        Keeps (fun sys => sys.nodes = start) (liftM act : Daemon α) :=
    fun act => keeps_lift (fun forest => forest.nodes = start) act
  refine Holds.bind (lifted _) (fun whited => ?_) fun _ _ holds => .inl holds
  split
  · exact lazyNodes_whitedOut (.inl rfl)
  · split
    · next white isPrefixed =>
        exact lazyNodes_whitedOut (.inr isPrefixed)
    · split
      · exact lazyNodes_whitedOut (.inl rfl)
      · split
        · refine Holds.bind (lifted _) (fun cut => ?_)
            fun _ _ holds => .inl holds
          exact Holds.pure fun _ holds => .inl holds
        · exact Holds.pure fun _ holds => .inl holds

theorem lazyNodes_lazyLayer
    (parentPath : Path)
    (lastLayerIdx layerIdx : Nat)
    (found : Option OvlNode) :
    Holds (fun sys => sys.nodes = start)
      (lazyLayer env parentId parentPath name lastLayerIdx layerIdx found)
      (LazyNodes start parentId name LazyStep.goesOn) := by
  have lifted :
      ∀ {α : Type} (act : Syscall α),
        Keeps (fun sys => sys.nodes = start) (liftM act : Daemon α) :=
    fun act => keeps_lift (fun forest => forest.nodes = start) act
  have missing :
      ∀ stop, Holds (fun sys => sys.nodes = start)
        (lazyMissing parentId parentPath name layerIdx stop)
        (LazyNodes start parentId name LazyStep.goesOn) := by
    intro stop
    refine Holds.bind (lifted _) (fun whited => ?_)
      fun _ _ holds => .inl holds
    split
    · exact lazyNodes_whitedOut (.inl rfl)
    · exact Holds.pure fun _ holds => .inl holds
  refine Holds.bind (lifted _) (fun outcome => ?_) fun _ _ holds => .inl holds
  cases found with
  | some child =>
      split <;> exact Holds.pure fun _ holds => .inl holds
  | none =>
      split
      · exact missing _
      · exact missing _
      · exact missing _
      · exact Holds.pure fun _ holds => .inl holds
      · exact lazyNodes_lazyFound parentPath layerIdx _ _

theorem lazyNodes_lazyLayers
    (parentPath : Path)
    (lastLayerIdx : Nat)
    (layers : List Nat)
    (found : Option OvlNode) :
    Holds (fun sys => sys.nodes = start)
      (lazyLayers env parentId parentPath name lastLayerIdx layers found)
      (LazyNodes start parentId name (·.isSome)) := by
  induction layers generalizing found with
  | nil =>
      exact Holds.pure fun _ holds => .inl holds
  | cons layerIdx rest inductionHypothesis =>
      refine Holds.bind
        (lazyNodes_lazyLayer parentPath lastLayerIdx layerIdx found)
        (fun step => ?_) ?_
      · cases step with
        | done =>
            refine Holds.pure fun sys holds => ?_
            rcases holds with same | ⟨marked, -⟩
            · exact .inl same
            · refine .inr ⟨marked, ?_⟩
              rintro value same
              cases same
              simp
        | next found stop =>
            rintro sys (same | ⟨-, ended⟩)
            · cases stop with
              | true =>
                  exact .inl same
              | false =>
                  exact inductionHypothesis found sys same
            · exact (ended _ rfl trivial).elim
      · rintro errno sys (same | ⟨marked, -⟩)
        · exact .inl same
        · refine .inr ⟨marked, ?_⟩
          rintro value same
          cases same

end LazyNodes

/-- What `do_lookup_file` does to the arena. -/
inductive ArenaLookup
    (start : Forest)
    (parent : UInt64)
    (name : Name) :
    NodeArena → Prop where
  | same :
      ArenaLookup start parent name start.nodes
  | marked
      {pnode : NodeId}
      {node : OvlNode}
      {white : Name} :
      start.resolve parent = some pnode →
      start.nodes.get? pnode = some node →
      node.getChild name = none →
      node.isLoaded = false →
      WhitedBy name white →
      ArenaLookup start parent name
        (start.nodes.modify pnode (·.insertWhiteout white))
  | adopted
      {pnode : NodeId}
      {child : OvlNode} :
      start.resolve parent = some pnode →
      Candidate pnode name child →
      ArenaLookup start parent name
        ((start.nodes.insert child).2.modify pnode
          (·.insertChild child.name start.nodes.nextId))

theorem arenaLookup_doLazyLookup
    {parent : UInt64}
    {name : Name}
    {pnode : NodeId}
    {node : OvlNode}
    {sys : Sys}
    (resolved : sys.forest.resolve parent = some pnode)
    (stored : sys.nodes.get? pnode = some node)
    (absent : node.getChild name = none)
    (unloaded : node.isLoaded = false) :
    ArenaLookup sys.forest parent name
      (doLazyLookup env pnode name sys).2.nodes := by
  have nodes := @lazyNodes_lazyLayers env sys.nodes pnode name
    (nodeParts sys.nodes pnode) node.lastLayerIdx (layerIndices env) none
    sys rfl
  have candidates := @lazy_lazyLayers env sys.forest pnode
    (nodeParts sys.nodes pnode) name node.lastLayerIdx (layerIndices env)
    none (by simp) sys ⟨.refl _, rfl⟩
  unfold doLazyLookup
  rw [Act.bind_ok (show getNode pnode sys = (.ok (some node), sys) by
    rw [← stored]; rfl)]
  simp only
  rw [Act.bind_ok (show nodePath pnode sys =
    (.ok (nodeParts sys.nodes pnode), sys) from rfl), Act.bind_apply]
  rcases run : lazyLayers env pnode (nodeParts sys.nodes pnode) name
      node.lastLayerIdx (layerIndices env) none sys with ⟨outcome, later⟩
  rw [run] at nodes candidates
  have ended :
      (∀ child, outcome ≠ .ok (some child)) →
        ArenaLookup sys.forest parent name later.nodes := by
    intro nothing
    rcases nodes with same | ⟨⟨white, isWhite, same⟩, -⟩
    · rw [show later.nodes = sys.nodes from same]
      exact .same
    · rw [show later.nodes = _ from same]
      exact .marked resolved stored absent unloaded isWhite
  cases outcome with
  | error errno =>
      exact ended (by simp)
  | ok found =>
      cases found with
      | none =>
          exact ended (by simp)
      | some child =>
          obtain ⟨inodes, adopts, -⟩ := @adoptChild_eq env pnode child later
          simp only
          rw [adopts]
          rcases nodes with same | ⟨-, nothing⟩
          · rw [show later.nodes = sys.nodes from same]
            exact .adopted resolved (candidates.2 child rfl)
          · exact (nothing _ rfl rfl).elim

theorem arenaLookup_doLookupFile
    (parent : UInt64)
    (name : Name)
    (sys : Sys) :
    ArenaLookup sys.forest parent name
      (doLookupFile env parent name sys).2.nodes := by
  unfold doLookupFile
  rw [Act.bind_ok (show resolveIno parent sys =
    (.ok (sys.forest.resolve parent), sys) from rfl)]
  cases resolved : sys.forest.resolve parent with
  | none =>
      exact .same
  | some pnode =>
      simp only
      rw [Act.bind_ok (show getNode pnode sys =
        (.ok (sys.nodes.get? pnode), sys) from rfl)]
      cases stored : sys.nodes.get? pnode with
      | none =>
          exact .same
      | some node =>
          simp only
          cases absent : node.getChild name with
          | some childId =>
              exact .same
          | none =>
              simp only
              split
              · exact .same
              · next unknown =>
                  have unloaded : node.isLoaded = false := by
                    simp only [Bool.or_eq_true, not_or,
                      Bool.not_eq_true] at unknown
                    exact unknown.2
                  exact arenaLookup_doLazyLookup resolved stored absent
                    unloaded

end Daemon

namespace Sys

open Daemon

/-- A lookup of `.wh.x` finds no child `x`, or does not look. -/
def Unmasked
    (sys : Sys)
    (parent : UInt64)
    (name : Name) : Prop :=
  ∀ pnode node white, sys.forest.resolve parent = some pnode →
    sys.nodes.get? pnode = some node → whPrefixName name = some white →
    node.isLoaded = true ∨ node.getChild white = none

end Sys

namespace Daemon

open Syscall Whiteout

variable {env : Env}

theorem clear_doLookupFile
    (parent : UInt64)
    (name : Name) :
    Holds (fun sys => sys.nodes.Clear ∧ sys.Unmasked parent name)
      (doLookupFile env parent name)
      fun _ sys => sys.nodes.Clear := by
  rintro sys ⟨clear, unmasked⟩
  have looked := @arenaLookup_doLookupFile env parent name sys
  generalize (doLookupFile env parent name sys).2.nodes = nodes at looked
  cases looked with
  | same =>
      exact clear
  | @marked pnode node white resolved stored absent unloaded isWhite =>
      refine clear.mark pnode ?_
      rintro child ⟨above, aboveStored, isChild⟩
      change sys.nodes.get? pnode = some above at aboveStored
      change sys.nodes.get? pnode = some node at stored
      rw [stored] at aboveStored
      cases aboveStored
      rcases isWhite with rfl | isPrefixed
      · rw [absent] at isChild
        cases isChild
      · rcases unmasked pnode node white resolved stored isPrefixed with
          loaded | free
        · rw [unloaded] at loaded
          cases loaded
        · rw [free] at isChild
          cases isChild
  | adopted resolved candidate =>
      exact (loadRule_clear _).adds candidate.2.2.1 candidate.2.2.2 clear

/-! ## Requests that remove nothing -/

theorem clear_createAndRegisterChild
    (parentId : NodeId)
    (name : Name)
    (st : Stat)
    (isDir : Bool) :
    Keeps (fun sys => sys.nodes.Clear)
      (createAndRegisterChild env parentId name st isDir) := by
  have inserts :
      ∀ new : OvlNode, Bare new → new.hidden = false →
        Holds (fun sys => sys.nodes.Clear) (insertNode new)
          fun outcome sys => sys.nodes.Clear ∧
            ∀ id, outcome = .ok id → sys.nodes.ShownAt id := by
    intro new bare shown sys clear
    refine ⟨clear.insert bare shown, ?_⟩
    rintro id same node stored
    cases same
    change (sys.nodes.insert new).2.get? sys.nodes.nextId = _ at stored
    rw [NodeArena.get?_insert, if_pos rfl] at stored
    cases stored
    exact shown
  refine Holds.bind (inserts _ ?_ ?_) (fun childId => ?_)
    fun _ _ holds => holds.1
  · intro query
    rw [OvlNode.getChild_of_shape (OvlNode.shape_markLoaded _)]
    exact bare_of_dirState rfl query
  · exact congrArg (·.2.2.2.1) (OvlNode.shape_markLoaded _)
  · refine Holds.imp
      (?_ : Holds (fun sys => sys.nodes.Clear ∧ sys.nodes.ShownAt childId) _
        fun _ sys => sys.nodes.Clear)
      (fun sys holds => ⟨holds.1, holds.2 childId rfl⟩) fun _ _ holds => holds
    have weaken :
        ∀ (errno : Errno) (sys : Sys),
          sys.nodes.Clear ∧ sys.nodes.ShownAt childId → sys.nodes.Clear :=
      fun _ _ holds => holds.1
    refine Holds.bind
      (keeps_register (fun nodes => nodes.Clear ∧ nodes.ShownAt childId)
        childId _ _ _)
      (fun answer => ?_) weaken
    refine Holds.bind (Keeps.orFail answer _) (fun fuseIno => ?_) weaken
    refine Holds.bind (Keeps.modify fun _ holds => holds) (fun _ => ?_) weaken
    refine Holds.bind (Keeps.gets _) (fun parent => ?_) weaken
    refine Holds.bind (Keeps.check _ _) (fun _ => ?_) weaken
    refine Holds.modifyBind (fun sys => sys.nodes.Clear) ?_ (Keeps.pure _)
    exact fun sys holds => holds.1.attach parentId name holds.2

theorem fillRule_clear :
    FillRule env fun sys => sys.nodes.Clear where
  calm := Calm.clear
  loads := fun nodeId => (loadRule_clear nodeId).loadDirImpl
  clears := by
    intro nodeId sys clear
    exact clear.modify nodeId (by simp) (by simp) (by simp)
  registers := fun id ino dev mode =>
    keeps_register (fun nodes => nodes.Clear ∧ nodes.Live id) id ino dev mode
  counts := fun _ _ clear => clear
  creates := clear_createAndRegisterChild

theorem unmasked_plain
    {name : Name}
    (plain : whPrefixName name = none)
    (parent : UInt64)
    (sys : Sys) :
    sys.Unmasked parent name := by
  intro pnode node white _ _ prefixed
  rw [plain] at prefixed
  cases prefixed

/-- A change of a node that leaves its children and whiteouts alone. -/
theorem unmasked_modify
    {sys : Sys}
    {parent : UInt64}
    {name : Name}
    (unmasked : sys.Unmasked parent name)
    (id : NodeId)
    {change : OvlNode → OvlNode}
    (sameDir : ∀ node, (change node).dirState = node.dirState) :
    { sys with nodes := sys.nodes.modify id change }.Unmasked parent name := by
  intro pnode node white resolved stored prefixed
  have before : sys.forest.resolve parent = some pnode :=
    (Forest.resolve_modify sys.nodes sys.inodes id change parent).symm.trans
      resolved
  change (sys.nodes.modify id change).get? pnode = some node at stored
  rw [NodeArena.get?_modify] at stored
  split at stored
  · next same =>
      subst same
      obtain ⟨old, oldStored, rfl⟩ := Option.map_eq_some_iff.mp stored
      unfold OvlNode.isLoaded OvlNode.getChild
      rw [sameDir]
      exact unmasked _ old white before oldStored prefixed
  · exact unmasked pnode node white before stored prefixed

theorem askRule_clear
    (parent : UInt64)
    (name : Name) :
    AskRule env (fun sys => sys.nodes.Clear)
      (fun sys => sys.nodes.Clear ∧ sys.Unmasked parent name) parent
      name where
  lifts := fun _ _ holds => holds
  marks := fun nodeId sys holds =>
    ⟨(calm_markUpper nodeId).clear sys holds.1,
      unmasked_modify holds.2 nodeId fun _ => rfl⟩
  weaken := fun _ holds => holds.1
  looksUp := clear_doLookupFile parent name

/-! ## Removals -/

theorem clear_hideNode
    {id : NodeId} :
    Holds (fun sys => sys.nodes.Clear) (hideNode env id true)
      fun outcome sys =>
        (∃ errno, outcome = .error errno ∧ sys.nodes.Clear) ∨
          outcome = .ok () ∧ sys.nodes.ClearBut (some id) := by
  have early :
      ∀ (errno : Errno) (sys : Sys), sys.nodes.Clear →
        (∃ errno', (Except.error errno : Except Errno Unit) = .error errno' ∧
          sys.nodes.Clear) ∨
        (Except.error errno : Except Errno Unit) = .ok () ∧
          sys.nodes.ClearBut (some id) :=
    fun errno sys clear => .inl ⟨errno, rfl, clear⟩
  refine Holds.bind (Calm.check _ _).clear (fun _ => ?_) early
  refine Holds.bind (Calm.lift _).clear (fun wd => ?_) early
  refine Holds.bind (Calm.runIf ?_).clear (fun _ => ?_) early
  · refine .bind (.nodePath id) fun path => ?_
    refine .bind (.node id) fun found => ?_
    refine .bind (.gets _) fun whited => ?_
    exact .bind (.gets _) fun parentPath => .lift _
  · refine node_bind (fun found => ?_) fun sys clear => early _ sys clear
    rintro sys ⟨clear, -⟩
    have hidden :
        (sys.nodes.modify id (hiddenAs wd)).ClearBut (some id) :=
      clear.hide id fun _ => rfl
    refine .inr ?_
    cases found.parent with
    | none =>
        exact ⟨rfl, hidden⟩
    | some parentId =>
        refine ⟨rfl, ?_⟩
        exact (Calm.modifyNode parentId (by simp) (by simp)).clear
          { sys with nodes := sys.nodes.modify id (hiddenAs wd) } hidden

theorem clear_removeNode
    (id : NodeId) :
    Keeps (fun sys => sys.nodes.Clear) (removeNode id) := by
  refine Keeps.bind (Keeps.gets _) fun found => ?_
  cases found with
  | none =>
      exact Keeps.pure ()
  | some node =>
      refine Keeps.bind (Keeps.modify fun sys clear => clear.remove id)
        fun _ => ?_
      exact (calm_dropNode node).clear

/-- The loose node is out of the tree once its directory lost the name. -/
theorem clear_removeFromTree
    {pnode id : NodeId}
    {name : Name} :
    Holds
      (fun sys => Loosened pnode name id sys ∧ sys.nodes.ClearBut (some id))
      (removeFromTree pnode name)
      fun _ sys => sys.nodes.Clear := by
  refine Holds.getsBind fun parent => ?_
  cases child : parent.bind (·.getChild name) with
  | none =>
      refine Holds.pure ?_
      rintro sys ⟨⟨loosened, clear⟩, rfl⟩
      refine clear.tighten fun above label entry => ?_
      obtain ⟨rfl, rfl⟩ := loosened.held entry
      obtain ⟨node, stored, isChild⟩ := entry
      change (sys.nodes.get? above).bind _ = none at child
      rw [stored, Option.bind_some, isChild] at child
      cases child
  | some removed =>
      refine Holds.modifyBind (fun sys => sys.nodes.Clear) ?_ ?_
      · rintro sys ⟨⟨loosened, clear⟩, -⟩
        refine (clear.detach pnode name).tighten fun above label entry => ?_
        obtain ⟨apart, older⟩ := NodeArena.TreeBut.entry_detach.mp entry
        exact apart (loosened.held older)
      · refine Keeps.bind (Keeps.gets _) fun found => ?_
        cases found with
        | none =>
            exact Keeps.pure ()
        | some node =>
            refine Keeps.bind (Keeps.modify fun _ clear => clear) fun _ => ?_
            exact clear_removeNode removed

theorem clear_doRm
    (parent : UInt64)
    (name : Name)
    (isDir : Bool) :
    Holds
      (fun sys => TreeOk sys ∧ sys.nodes.Clear ∧ sys.Unmasked parent name)
      (doRm env parent name isDir)
      fun _ sys => sys.nodes.Clear := by
  have looks :
      Holds
        (fun sys => TreeOk sys ∧ sys.nodes.Clear ∧ sys.Unmasked parent name)
        (doLookupFile env parent name)
        fun outcome sys => sys.nodes.Clear ∧
          ∀ id, outcome = .ok (some id) → sys.nodes.Live id →
            Found parent name id sys :=
    fun sys holds =>
      ⟨clear_doLookupFile parent name sys holds.2,
        (found_doLookupFile parent name sys holds.1).2⟩
  refine Holds.bind looks (fun found => ?_) fun _ _ holds => holds.1
  refine presentOr_bind (fun nodeId isFound => ?_) fun _ holds => holds.1
  have both :
      ∀ {act : Daemon Unit}, Still act →
        Keeps (fun sys => sys.nodes.Clear) act →
        Keeps (fun sys => Found parent name nodeId sys ∧ sys.nodes.Clear)
          act :=
    fun still keeps sys holds =>
      ⟨still.found sys holds.1, keeps sys holds.2⟩
  have rest :
      Holds (fun sys => Found parent name nodeId sys ∧ sys.nodes.Clear) (do
        Act.runIf isDir (checkEmpty env nodeId)
        getNodeUp env nodeId
        let pnodeId ← Act.orFail (← resolveIno parent) .ENOENT
        getNodeUp env pnodeId
        hideNode env nodeId true
        removeFromTree pnodeId name
        pure .ok : Daemon Reply)
        fun _ sys => sys.nodes.Clear := by
    refine Holds.bind (both (still_checkEmpty nodeId).runIf ?_) (fun _ => ?_)
      fun _ _ holds => holds.2
    · refine Keeps.runIf (Keeps.bind (fillRule_clear.reloadDir nodeId) ?_)
      exact fun _ => (Calm.bind (.gets _) fun _ => .check _ _).clear
    refine Holds.bind
      (both (.of_calm (calm_getNodeUp nodeId)) (calm_getNodeUp nodeId).clear)
      (fun _ => ?_) fun _ _ holds => holds.2
    refine Holds.getsBind fun resolved => ?_
    cases resolved with
    | none =>
        exact fun _ holds => holds.1.2
    | some pnodeId =>
        refine Holds.imp
          (?_ : Holds
            (fun sys => Sole pnodeId name nodeId sys ∧ sys.nodes.Clear) _ _)
          (fun sys holds => ⟨⟨holds.1.1.ok, holds.1.1.notRoot,
            holds.1.1.held holds.2⟩, holds.1.2⟩)
          fun _ _ holds => holds
        have copies :
            Keeps (fun sys => Sole pnodeId name nodeId sys ∧ sys.nodes.Clear)
              (getNodeUp env pnodeId) :=
          fun sys holds => ⟨(calm_getNodeUp pnodeId).sole sys holds.1,
            (calm_getNodeUp pnodeId).clear sys holds.2⟩
        refine Holds.orFailBind (fun _ same => ?_) fun _ holds => holds.2
        cases same
        refine Holds.bind copies (fun _ => ?_) fun _ _ holds => holds.2
        rintro sys ⟨sole, clear⟩
        have loosened := @loosened_hideNode env pnodeId nodeId name true sys
          sole
        have hidden := @clear_hideNode env nodeId sys clear
        rw [Act.bind_apply]
        rcases run : hideNode env nodeId true sys with ⟨outcome, later⟩
        rw [run] at loosened hidden
        rcases hidden with ⟨errno, same, laterClear⟩ | ⟨same, laterClear⟩
        · cases same
          exact laterClear
        · cases same
          rcases loosened with ⟨errno, same, -⟩ | ⟨-, loosened⟩
          · cases same
          · exact Holds.bind clear_removeFromTree (fun _ => Keeps.pure _)
              (fun _ _ clear => clear) later ⟨loosened, laterClear⟩
  rintro sys ⟨⟨clear, holds⟩, live⟩
  exact rest sys ⟨holds nodeId (congrArg _ isFound) live, clear⟩

end Daemon

end FuseOverlay
