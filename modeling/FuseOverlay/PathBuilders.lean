import FuseOverlay.Sample
import FuseOverlay.TreeInvariant

namespace FuseOverlay

/-!
# The path builders

The source joins and splits the bytes of paths in five places, each with its
own case for the root, which is written `.`.  Here they work on bytes as they
do there; on the paths of a tree they agree, and a path is split back into what
it was joined from.
-/

namespace PathBuilders

/-- `child_path` -/
def childPath
    (parentPath name : List UInt8) :
    List UInt8 :=
  if parentPath = dotName then name else parentPath ++ slash :: name

/-- One turn of `build_dir_entries` on its reused buffer. -/
def fillPathBuf
    (dirPath childName pathBuf : List UInt8) :
    List UInt8 :=
  let pathBuf := pathBuf.take 0
  let pathBuf :=
    if dirPath ≠ dotName then pathBuf ++ dirPath ++ [slash] else pathBuf
  pathBuf ++ childName

/-- The path that `is_wh_file` tests. -/
def whPath
    (parentPath name : List UInt8) :
    List UInt8 :=
  let whPath :=
    if parentPath = dotName then whPrefix
    else parentPath ++ slash :: whPrefix
  whPath ++ name

/-- `path.iter().rposition(|&b| b == b'/')` -/
def rposition : List UInt8 → Option Nat
  | [] => none
  | byte :: rest =>
      match rposition rest with
      | some pos => some (pos + 1)
      | none => if byte = slash then some 0 else none

/-- The path whose directory `open_parent_safe` opens, and the last name. -/
def openParentSafe (path : List UInt8) : Option (List UInt8) × List UInt8 :=
  match rposition path with
  | some pos => (some (path.take pos), path.drop (pos + 1))
  | none => (none, path)

/-- A name that can be a component of a path. -/
structure Component (name : Name) : Prop where
  filled : name ≠ []
  noSlash : slash ∉ name
  notDot : name ≠ dotName

/-! ## Splitting -/

theorem rposition_none
    {bytes : List UInt8}
    (noSlash : slash ∉ bytes) :
    rposition bytes = none := by
  induction bytes with
  | nil =>
      rfl
  | cons byte rest inductionHypothesis =>
      rw [List.mem_cons, not_or] at noSlash
      rw [rposition, inductionHypothesis noSlash.2]
      exact if_neg (Ne.symm noSlash.1)

theorem rposition_append
    (lead : List UInt8)
    {name : List UInt8}
    (noSlash : slash ∉ name) :
    rposition (lead ++ slash :: name) = some lead.length := by
  induction lead with
  | nil =>
      rw [List.nil_append, rposition, rposition_none noSlash]
      rfl
  | cons byte rest inductionHypothesis =>
      rw [List.cons_append, rposition, inductionHypothesis]
      rfl

/-- A name alone has no parent to open. -/
theorem openParentSafe_name
    {name : List UInt8}
    (noSlash : slash ∉ name) :
    openParentSafe name = (none, name) := by
  unfold openParentSafe
  rw [rposition_none noSlash]

/-- The split at the last slash. -/
theorem openParentSafe_append
    (lead : List UInt8)
    {name : List UInt8}
    (noSlash : slash ∉ name) :
    openParentSafe (lead ++ slash :: name) = (some lead, name) := by
  unfold openParentSafe
  rw [rposition_append lead noSlash]
  simp

/-! ## Joining -/

theorem joinPath_append
    {path : Path}
    (filled : path ≠ [])
    (name : Name) :
    joinPath (path ++ [name]) = joinPath path ++ slash :: name := by
  induction path with
  | nil =>
      exact absurd rfl filled
  | cons first rest inductionHypothesis =>
      cases rest with
      | nil =>
          rfl
      | cons second rest =>
          have later := inductionHypothesis (by simp)
          have joins (names : Path) :
              joinPath (first :: second :: names) =
                first ++ slash :: joinPath (second :: names) :=
            rfl
          rw [List.cons_append] at later
          rw [List.cons_append, List.cons_append, joins, joins, later,
            List.append_assoc]
          rfl

theorem renderPath_of_filled
    {path : Path}
    (filled : path ≠ []) :
    renderPath path = joinPath path := by
  cases path with
  | nil =>
      exact absurd rfl filled
  | cons first rest =>
      rfl

/-- Only the root is written `.`. -/
theorem renderPath_ne_dot
    {path : Path}
    {name : Name}
    (component : Component name) :
    renderPath (path ++ [name]) ≠ dotName := by
  rw [renderPath_of_filled (by simp)]
  cases path with
  | nil =>
      exact component.notDot
  | cons first rest =>
      rw [joinPath_append (by simp)]
      intro same
      have slashes := congrArg (slash ∈ ·) same
      simp [dotName, slash] at slashes

/-- `child_path` goes one name down. -/
theorem renderPath_append
    {path : Path}
    (components : ∀ name ∈ path, Component name)
    (name : Name) :
    renderPath (path ++ [name]) = childPath (renderPath path) name := by
  unfold childPath
  rcases List.eq_nil_or_concat path with rfl | ⟨before, last, rfl⟩
  · rfl
  · have component := components last (by simp)
    rw [List.concat_eq_append, if_neg (renderPath_ne_dot component),
      renderPath_of_filled (by simp), renderPath_of_filled (by simp),
      joinPath_append (by simp)]

/-- The buffer holds the child's path, whatever it held before. -/
theorem fillPathBuf_eq
    (dirPath childName pathBuf : List UInt8) :
    fillPathBuf dirPath childName pathBuf = childPath dirPath childName := by
  unfold fillPathBuf childPath
  by_cases isRoot : dirPath = dotName
  · simp [isRoot]
  · simp [isRoot]

/-- The tested path is that of a child with the prefixed name. -/
theorem whPath_eq
    (parentPath name : List UInt8) :
    whPath parentPath name = childPath parentPath (whName name) := by
  unfold whPath childPath whName
  split <;> simp

/-- The components in the model of `is_wh_file` are the bytes it tests. -/
theorem renderPath_whName
    {path : Path}
    (components : ∀ name ∈ path, Component name)
    (name : Name) :
    renderPath (path ++ [whName name]) = whPath (renderPath path) name := by
  rw [whPath_eq, renderPath_append components]

/-- The split gives back what was joined. -/
theorem openParentSafe_renderPath
    {path : Path}
    {name : Name}
    (component : Component name) :
    openParentSafe (renderPath (path ++ [name])) =
      (if path = [] then none else some (renderPath path), name) := by
  by_cases atRoot : path = []
  · rw [if_pos atRoot, atRoot]
    exact openParentSafe_name component.noSlash
  · rw [if_neg atRoot, renderPath_of_filled (by simp),
      renderPath_of_filled atRoot, joinPath_append atRoot]
    exact openParentSafe_append (joinPath path) component.noSlash

/-- Bytes of one path only. -/
theorem renderPath_injective
    {first second : Path}
    (firstComponents : ∀ name ∈ first, Component name)
    (secondComponents : ∀ name ∈ second, Component name)
    (same : renderPath first = renderPath second) :
    first = second := by
  induction first using List.reverseRecOn generalizing second with
  | nil =>
      rcases List.eq_nil_or_concat second with rfl | ⟨before, last, rfl⟩
      · rfl
      · rw [List.concat_eq_append] at secondComponents same
        have component := secondComponents last (by simp)
        exact absurd same.symm (renderPath_ne_dot component)
  | append_singleton path name inductionHypothesis =>
      have component := firstComponents name (by simp)
      rcases List.eq_nil_or_concat second with rfl | ⟨before, last, rfl⟩
      · exact absurd same (renderPath_ne_dot component)
      · rw [List.concat_eq_append] at secondComponents same ⊢
        have splits := congrArg openParentSafe same
        rw [openParentSafe_renderPath component,
          openParentSafe_renderPath (secondComponents last (by simp))] at splits
        obtain ⟨parents, rfl⟩ := Prod.mk.inj splits
        have above : path = before := by
          apply inductionHypothesis
          · exact fun other member =>
              firstComponents other (List.mem_append_left _ member)
          · exact fun other member =>
              secondComponents other (List.mem_append_left _ member)
          · split_ifs at parents with first second second
            · rw [first, second]
            · exact Option.some.inj parents
        rw [above]

end PathBuilders

namespace NodeArena

open PathBuilders

variable {arena : NodeArena}

namespace Walk

/-- The names on a walk are names of nodes. -/
theorem components
    (linked : arena.LinkedTree)
    (named :
      ∀ id node,
        arena.get? id = some node → node.parent ≠ none →
        Component node.name)
    {path : Path}
    {id : NodeId}
    (walk : arena.Walk path id) :
    ∀ name ∈ path, Component name := by
  induction walk with
  | root =>
      simp
  | step before entry inductionHypothesis =>
      obtain ⟨node, stored, isParent, rfl⟩ := linked.linked before entry
      intro name member
      rcases List.mem_append.mp member with above | last
      · exact inductionHypothesis name above
      · rw [List.mem_singleton.mp last]
        exact named _ node stored (by simp [isParent])

/-- The names of a walk lead to one node only. -/
theorem ends_at
    {path : Path}
    {first second : NodeId}
    (firstWalk : arena.Walk path first)
    (secondWalk : arena.Walk path second) :
    first = second := by
  generalize same : path = other at secondWalk
  induction firstWalk generalizing other second with
  | root =>
      cases secondWalk with
      | root =>
          rfl
      | step _ _ =>
          simp at same
  | step before entry inductionHypothesis =>
      cases secondWalk with
      | root =>
          simp at same
      | step otherBefore otherEntry =>
          obtain ⟨rfl, names⟩ := List.append_inj' same rfl
          obtain rfl := List.singleton_inj.mp names
          obtain rfl := inductionHypothesis _ rfl otherBefore
          exact entry.unique otherEntry

/-- Where a node of the tree has a parent, the walk passes it. -/
theorem above
    (linked : arena.LinkedTree)
    {path : Path}
    {id parent : NodeId}
    {node : OvlNode}
    (walk : arena.Walk path id)
    (stored : arena.get? id = some node)
    (isParent : node.parent = some parent) :
    ∃ before, path = before ++ [node.name] ∧ arena.Walk before parent := by
  cases walk with
  | root =>
      obtain ⟨root, storedRoot, noParent⟩ := linked.root
      rw [stored] at storedRoot
      cases storedRoot
      rw [isParent] at noParent
      cases noParent
  | @step before _ _ _ walkAbove entry =>
      obtain ⟨child, storedChild, isAbove, rfl⟩ :=
        linked.linked walkAbove entry
      rw [stored] at storedChild
      cases storedChild
      rw [isParent] at isAbove
      cases isAbove
      exact ⟨before, rfl, walkAbove⟩

/-- The walk to the root has no names. -/
theorem eq_nil_iff
    (linked : arena.LinkedTree)
    {path : Path}
    {id : NodeId}
    (walk : arena.Walk path id) :
    path = [] ↔ id = rootId := by
  cases walk with
  | root =>
      simp
  | step before entry =>
      obtain ⟨child, stored, isParent, -⟩ := linked.linked before entry
      constructor
      · simp
      · rintro rfl
        obtain ⟨root, storedRoot, noParent⟩ := linked.root
        rw [stored] at storedRoot
        cases storedRoot
        rw [isParent] at noParent
        cases noParent

end Walk

/--
On every node of the tree but the root the five builders agree: the path is
`child_path` of the parent's, the buffer of a listing holds it, it is split
back into the parent's path and the name, and the path of the whiteout file is
that of a sibling.  Distinct nodes have distinct paths.
-/
theorem path_builders_agree
    (linked : arena.LinkedTree)
    (named :
      ∀ id node,
        arena.get? id = some node → node.parent ≠ none →
        Component node.name) :
    (∀ path id node parent,
      arena.Walk path id →
      arena.get? id = some node →
      node.parent = some parent →
      computePath arena id =
          childPath (computePath arena parent) node.name ∧
        (∀ pathBuf,
          fillPathBuf (computePath arena parent) node.name pathBuf =
            computePath arena id) ∧
        openParentSafe (computePath arena id) =
          (if parent = rootId then none
            else some (computePath arena parent), node.name) ∧
        whPath (computePath arena parent) node.name =
          childPath (computePath arena parent) (whPrefix ++ node.name)) ∧
    (∀ first second firstId secondId,
      arena.Walk first firstId →
      arena.Walk second secondId →
      firstId ≠ secondId →
      computePath arena firstId ≠ computePath arena secondId) := by
  constructor
  · intro path id node parent walk stored isParent
    obtain ⟨before, rfl, above⟩ := walk.above linked stored isParent
    have components := above.components linked named
    have component := named id node stored (by simp [isParent])
    have joined :
        computePath arena id =
          childPath (computePath arena parent) node.name := by
      rw [walk.computePath_eq linked, above.computePath_eq linked]
      exact renderPath_append components node.name
    refine ⟨joined, fun pathBuf => ?_, ?_, whPath_eq _ _⟩
    · rw [fillPathBuf_eq, joined]
    · rw [walk.computePath_eq linked, above.computePath_eq linked,
        openParentSafe_renderPath component]
      simp only [above.eq_nil_iff linked]
  · intro first second firstId secondId firstWalk secondWalk different same
    rw [firstWalk.computePath_eq linked,
      secondWalk.computePath_eq linked] at same
    have samePath := renderPath_injective
      (firstWalk.components linked named)
      (secondWalk.components linked named) same
    subst samePath
    exact different (firstWalk.ends_at secondWalk)

end NodeArena

/-- The tree of every run is one. -/
theorem Sys.linkedTree_run
    (env : Env)
    (disk : Disk)
    (calls : List Call) :
    ((Sys.mount env disk).run env calls).nodes.LinkedTree := by
  have ok : Daemon.TreeOk ((Sys.mount env disk).run env calls) :=
    Daemon.treeOk_run (Daemon.treeOk_mount env disk) calls
  exact ok.tree.linkedTree

namespace Sample

/-- A file in a directory, both looked up. -/
def foundBelow : Sys :=
  .run (env 0)
    (.mount (env 0) (disk 0 [(⟨.layer 0, [ascii "d"]⟩, obj .dir [] 12),
      (⟨.layer 0, [ascii "d", ascii "f"]⟩, obj .reg [] 13)]))
    [call (.lookup 1 (ascii "d")), call (.lookup 12 (ascii "f"))]

theorem linkedTree_foundBelow :
    foundBelow.nodes.LinkedTree :=
  Sys.linkedTree_run ..

theorem named_foundBelow :
    ∀ id node,
      foundBelow.nodes.get? id = some node → node.parent ≠ none →
      PathBuilders.Component node.name := by
  have checked :
      ∀ entry ∈ foundBelow.nodes.map.toList,
        entry.2.parent ≠ none →
        entry.2.name ≠ [] ∧ slash ∉ entry.2.name ∧
          entry.2.name ≠ dotName := by
    decide +kernel
  intro id node stored notRoot
  have entry := checked (id, node) (FMap.mem_toList_iff.mpr stored) notRoot
  exact ⟨entry.1, entry.2.1, entry.2.2⟩

/-- The path of the file joins and splits. -/
theorem path_builders_agree_below :
    foundBelow.nodes.Walk [ascii "d", ascii "f"] 3 ∧
    (∀ path id node parent,
      foundBelow.nodes.Walk path id →
      foundBelow.nodes.get? id = some node →
      node.parent = some parent →
      computePath foundBelow.nodes id =
          PathBuilders.childPath (computePath foundBelow.nodes parent)
            node.name ∧
        (∀ pathBuf,
          PathBuilders.fillPathBuf (computePath foundBelow.nodes parent)
              node.name pathBuf =
            computePath foundBelow.nodes id) ∧
        PathBuilders.openParentSafe (computePath foundBelow.nodes id) =
          (if parent = rootId then none
            else some (computePath foundBelow.nodes parent), node.name) ∧
        PathBuilders.whPath (computePath foundBelow.nodes parent) node.name =
          PathBuilders.childPath (computePath foundBelow.nodes parent)
            (whPrefix ++ node.name)) := by
  refine ⟨?_, (NodeArena.path_builders_agree linkedTree_foundBelow
    named_foundBelow).1⟩
  have entry (parent child : NodeId) (name : Name)
      (found : (foundBelow.nodes.get? parent).bind
        (OvlNode.getChild · name) = some child) :
      foundBelow.nodes.Entry parent name child := by
    obtain ⟨node, stored, isChild⟩ := Option.bind_eq_some_iff.mp found
    exact ⟨node, stored, isChild⟩
  exact .step (.step .root (entry 1 2 (ascii "d") (by decide +kernel)))
    (entry 2 3 (ascii "f") (by decide +kernel))

end Sample

end FuseOverlay
