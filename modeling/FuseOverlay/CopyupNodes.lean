import FuseOverlay.CopyupCopies
import FuseOverlay.TreeInvariant

namespace FuseOverlay

/-!
# Copy-up of a node

The parents of a node come to the upper layer one by one, then the node itself.
On the way the lower layers stay, the names still to come in the work directory
are free, and the upper layer has nothing but directories where the path goes.
-/

namespace Syscall

open Disk Whiteout

/-! ## On the way -/

/-- No temporary name that is still to come is in use. -/
def WorkVacant
    (disk : Disk)
    (counter : Nat) : Prop :=
  ∀ later, counter ≤ later → Vacant disk (wdName later)

/-- What holds while copies along a path are made. -/
structure Climbing
    (start : Disk)
    (path : Path)
    (os : Os) : Prop where
  faults : os.faults = []
  kept : Kept start os.disk
  vacant : WorkVacant os.disk os.wdCounter
  straight : os.disk.Straight (.layer 0) path.dropLast

section

variable {env : Env} {start before : Disk} {path below : Path} {os : Os}
  {counter layerIdx : Nat} {id : ObjId} {obj : Obj}

theorem Climbing.ready
    (climbing : Climbing start path os) :
    Ready os.disk os.wdCounter os :=
  ⟨climbing.faults, rfl, rfl⟩

/-- Two temporary names have no location in common. -/
theorem temp_inj
    {first second : Nat}
    {loc : Loc}
    (one : Temp (wdName first) loc)
    (other : Temp (wdName second) loc) :
    first = second := by
  have oneFirst : [wdName first] <+: loc.path := (Loc.isUnder_iff.mp one).2
  have otherFirst : [wdName second] <+: loc.path :=
    (Loc.isUnder_iff.mp other).2
  obtain ⟨rest, shape⟩ := oneFirst
  obtain ⟨others, otherShape⟩ := otherFirst
  rw [← shape] at otherShape
  exact (wdName_injective (List.cons.inj otherShape).1).symm

/-- A copy on the way changes nothing on the way but its own place. -/
theorem fixed_onWay
    {wd : Name}
    {names : Path}
    (proper : isSpecial (lastName below) = false)
    (onWay : below <+: path)
    (alsoOnWay : names <+: path)
    (apart : ¬ below <+: names) :
    ¬ (placeScope wd (parentAt below) (lastName below)).changed
      ⟨.layer 0, names⟩ := by
  have place := child_parentAt proper
  rintro (temp | under | isWh)
  · exact not_temp_of_root (by simp) wd temp
  · rw [place] at under
    exact apart (Loc.isUnder_iff.mp under).2
  · have isWh : names = below.dropLast ++ [whName (lastName below)] :=
      congrArg Loc.path isWh
    have whole : below.dropLast ++ [lastName below] = below :=
      congrArg Loc.path place
    have lengths : below.length = names.length := by
      have lengths := congrArg List.length whole
      rw [isWh]
      simpa using lengths.symm
    exact apart (List.prefix_of_prefix_length_le onWay alsoOnWay lengths.le)

/-- What is on the way to a copy is no place below it. -/
theorem not_below
    {parents : Path}
    {name : Name}
    (isPrefix : parents ++ [name] <+: below.dropLast) :
    ¬ below <+: parents ++ [name] := by
  intro again
  have lengths := (again.trans isPrefix).length_le
  have longer := isPrefix.length_le
  rw [List.length_dropLast] at lengths longer
  rw [List.length_append, List.length_singleton] at longer
  omega

/-- After a copy on the way, the way goes on. -/
theorem Installed.climbing
    (apart : Kept start before)
    (vacant : WorkVacant before counter)
    (straight : before.Straight (.layer 0) path.dropLast)
    (onWay : below <+: path)
    (isDir : below = path ∨ obj.kind = .dir)
    (installed :
      Installed (wdName counter) (parentAt below) (lastName below) before
        (counter + 1) id obj os) :
    Climbing start path os := by
  have place := child_parentAt installed.proper
  refine ⟨installed.faults, apart.trans installed.frame.kept, ?_, ?_⟩
  · rw [installed.counted]
    intro later isLater loc temp
    have notUpper : loc.root ≠ .layer 0 := by
      rw [(Loc.isUnder_iff.mp temp).1]
      exact nofun
    have fixed :
        ¬ (placeScope (wdName counter) (parentAt below)
          (lastName below)).changed loc := by
      rintro (earlier | under | same)
      · have := temp_inj earlier temp
        omega
      · exact notUpper (Loc.isUnder_iff.mp under).1
      · exact notUpper (congrArg Loc.root same)
    rw [installed.frame.names loc fixed]
    exact vacant later (by omega) loc temp
  · intro parents name isPrefix kind found
    have alsoOnWay : parents ++ [name] <+: path :=
      isPrefix.trans (List.dropLast_prefix path)
    by_cases under : below <+: parents ++ [name]
    · by_cases same : parents ++ [name] = below
      · have notPath : below ≠ path := by
          rintro rfl
          exact not_below isPrefix under
        have isKind := installed.owns.kindAt
        rw [place, ← same, found] at isKind
        rw [Option.some.inj isKind]
        exact isDir.resolve_left notPath
      · have gone := installed.alone ⟨.layer 0, parents ++ [name]⟩
        rw [place] at gone
        have gone := gone (Loc.isUnder_iff.mpr ⟨rfl, under⟩)
          fun equal => same (congrArg Loc.path equal)
        unfold kindAt find? at found
        rw [gone] at found
        cases found
    · rw [installed.frame.kinds _
        (fixed_onWay installed.proper onWay alsoOnWay under)] at found
      exact straight parents name isPrefix kind found

/-- The way to the copy is as before. -/
theorem Installed.reached
    {wd : Name}
    (installed :
      Installed wd (parentAt below) (lastName below) before counter id obj os)
    (reached : Reached before below) :
    Reached os.disk below := by
  intro parents name isPrefix
  rw [installed.frame.kinds _ (fixed_onWay installed.proper List.prefix_rfl
    (isPrefix.trans (List.dropLast_prefix below)) (not_below isPrefix))]
  exact reached parents name isPrefix

/-! ## Whiteouts beside a new directory -/

/-- A directory was just made on the way. -/
structure Standing
    (start : Disk)
    (path below : Path)
    (id : ObjId)
    (obj : Obj)
    (os : Os) : Prop where
  climbing : Climbing start path os
  proper : isSpecial (lastName below) = false
  owns : os.disk.Owns ⟨.layer 0, below⟩ id obj
  isDir : obj.kind = .dir
  place : os.disk.kindAt (parentAt below) = some .dir
  reached : Reached os.disk below

theorem unlinkat_notDir
    {disk later : Disk}
    {dir : Loc}
    {name : Name}
    (returned : disk.unlinkat dir name false = .ok later) :
    disk.kindAt (dir.child name) ≠ some .dir := by
  intro isDir
  unfold Disk.unlinkat at returned
  rw [isDir] at returned
  split at returned <;> cases returned

theorem kindAt_dropName
    (disk : Disk)
    (gone loc : Loc) :
    (disk.dropName gone).kindAt loc =
      if loc = gone then none else disk.kindAt loc := by
  unfold kindAt find?
  rw [names_dropName]
  split <;> rfl

/-- A file that goes from the directory around the new one. -/
theorem Standing.unlink
    (standing : Standing start path below id obj os)
    {name : Name}
    (notDir :
      os.disk.kindAt ((parentAt below).child name) ≠ some .dir) :
    Standing start path below id obj
      { os with disk := (os.disk.dropName
        ((parentAt below).child name)).touch (parentAt below) } := by
  have high : ∀ names, ¬ Loc.Lower ⟨.layer 0, names⟩ :=
    fun names => not_lower_upper rfl
  have keepsName :
      (⟨.layer 0, below⟩ : Loc) ≠ (parentAt below).child name := by
    intro same
    rw [← same, standing.owns.kindAt, standing.isDir] at notDir
    exact notDir rfl
  have notAround : parentAt below ≠ ⟨.layer 0, below⟩ := by
    rw [← child_parentAt standing.proper]
    exact (Loc.child_ne _ _).symm
  have place :
      (os.disk.dropName ((parentAt below).child name)).kindAt
        (parentAt below) = some .dir := by
    rw [kindAt_dropName, if_neg (Loc.child_ne _ _).symm]
    exact standing.place
  have dropped :
      Kept os.disk (os.disk.dropName ((parentAt below).child name)) :=
    .dropName standing.climbing.kept.apart (high _)
  have touched := Kept.touch dropped.apart (high _) place
  refine ⟨⟨standing.climbing.faults, ?_, ?_, ?_⟩, standing.proper, ?_,
    standing.isDir, ?_, ?_⟩
  · exact (standing.climbing.kept.trans dropped).trans touched
  · intro later isLater loc temp
    rw [names_touch, names_dropName]
    split
    · rfl
    · exact standing.climbing.vacant later isLater loc temp
  · intro parents last isPrefix kind found
    rw [kindAt_touch, kindAt_dropName] at found
    split at found
    · cases found
    · exact standing.climbing.straight parents last isPrefix kind found
  · exact (standing.owns.dropName_ne keepsName).touch_ne notAround
  · rw [kindAt_touch]
    exact place
  · intro parents last isPrefix
    have isDir := standing.reached parents last isPrefix
    rw [kindAt_touch, kindAt_dropName, if_neg]
    · exact isDir
    · intro same
      rw [← same] at notDir
      exact notDir isDir

theorem keeps_unlinkBeside
    (name : Name) :
    Act.Keeps (Standing start path below id obj)
      (unlinkat (parentAt below) name false) := by
  intro os standing
  unfold unlinkat
  rw [change_noFaults standing.climbing.faults]
  cases unlinked : os.disk.unlinkat (parentAt below) name false with
  | ok later =>
      rw [unlinkat_returns unlinked]
      exact standing.unlink (unlinkat_notDir unlinked)
  | error errno =>
      exact standing

theorem keeps_queryBeside
    {α : Type}
    (read : Disk → Except Errno α) :
    Act.Keeps (Standing start path below id obj) (query read) := by
  intro os standing
  rw [query_noFaults standing.climbing.faults]
  exact standing

theorem keeps_deleteWhiteoutAt
    (name : Name) :
    Act.Keeps (Standing start path below id obj)
      (deleteWhiteoutAt (parentAt below) name) := by
  refine Act.Keeps.bind (Act.Keeps.gets _) fun canMknod => ?_
  refine Act.Keeps.bind (Act.Keeps.runIf ?_) fun _ => ?_
  · refine Act.Keeps.bind (keeps_queryBeside _).attempt fun found => ?_
    cases found with
    | ok st =>
        exact Act.Keeps.runIf (keeps_unlinkBeside name)
    | error errno =>
        exact Act.Keeps.pure ()
  · refine Act.Keeps.bind (keeps_unlinkBeside _).attempt fun unlinked => ?_
    split
    · exact Act.Keeps.pure ()
    · exact Act.Keeps.pure ()
    · exact Act.Keeps.fail _

/-- The directory around the new one is where its whiteouts are. -/
theorem holds_whiteoutDir
    (onWay : below.dropLast <+: path.dropLast)
    (proper : Proper path) :
    Act.Holds (Standing start path below id obj)
      (whiteoutDir upperRoot below.dropLast)
      fun outcome os => (∀ dir, outcome = .ok dir → dir = parentAt below) ∧
        Standing start path below id obj os := by
  intro os standing
  unfold whiteoutDir
  split
  · next empty =>
      refine ⟨fun dir returned => ?_, standing⟩
      cases returned
      unfold parentAt
      rw [empty]
      rfl
  · unfold openDirAt
    rw [query_noFaults standing.climbing.faults]
    refine ⟨fun dir returned => ?_, standing⟩
    simp only [↓reduceIte] at returned
    have properDir : Proper below.dropLast := fun name among =>
      proper name ((onWay.trans (List.dropLast_prefix path)).subset among)
    cases located : os.disk.locate upperRoot below.dropLast with
    | error errno =>
        rw [located] at returned
        cases returned
    | ok loc =>
        rw [located] at returned
        simp only at returned
        split at returned
        · cases returned
        · next isDir =>
            cases returned
            exact (openDir_straight (standing.climbing.straight.shorter onWay)
              properDir ((openDir_of_locate properDir located).2 isDir)).1
        · cases returned

/-- No whiteout that goes is the new directory. -/
theorem keeps_deleteWhiteout
    (onWay : below.dropLast <+: path.dropLast)
    (proper : Proper path)
    (name : Name) :
    Act.Keeps (Standing start path below id obj)
      (deleteWhiteout upperRoot none below.dropLast name) := by
  refine Act.Holds.bind (holds_whiteoutDir onWay proper) (fun dir => ?_)
    fun errno os failed => failed.2
  intro os found
  obtain ⟨same, standing⟩ := found
  rw [same dir rfl]
  exact keeps_deleteWhiteoutAt name os standing

/-- The parents of what is on the way are on the way. -/
theorem parents_onWay
    (onWay : below <+: path) :
    below.dropLast <+: path.dropLast := by
  have lengths := onWay.length_le
  refine List.prefix_of_prefix_length_le
    ((List.dropLast_prefix below).trans onWay) (List.dropLast_prefix path) ?_
  simp only [List.length_dropLast]
  omega

theorem proper_onWay
    (proper : Proper path)
    (onWay : below <+: path) :
    Proper below.dropLast :=
  fun name among =>
    proper name (((List.dropLast_prefix below).trans onWay).subset among)

/-- A directory on the way is copied. -/
theorem gives_climbDirectory
    (isLow : layerIdx ≠ 0)
    (onWay : below <+: path)
    (proper : Proper path) :
    Act.Gives (Climbing start path) (copyDirectory env layerIdx below)
      fun _ os => ∃ id obj loc src,
        (LeadsTo start layerIdx below false loc src ∧
          (src.kind = .dir → CopyOf env src obj)) ∧
        Standing start path below id obj os := by
  intro os value later climbing returned
  have copied := gives_copyDirectory climbing.kept.apart
    (climbing.vacant _ le_rfl) isLow
    (climbing.straight.shorter (parents_onWay onWay))
    (proper_onWay proper onWay) os value later climbing.ready returned
  obtain ⟨reached, loc, src, id, copy, leads, isDir, isCopy, installed⟩ := copied
  have owns := installed.owns
  rw [child_parentAt installed.proper] at owns
  have after := installed.climbing climbing.kept climbing.vacant
    climbing.straight onWay (.inr isDir)
  exact ⟨id, copy, loc, src,
    ⟨(leads.of_kept isLow climbing.kept).1, isCopy⟩,
    after, installed.proper, owns, isDir, installed.place,
    installed.reached reached⟩

/-! ## The node itself -/

/-- What is no link is found with links followed too. -/
theorem LeadsTo.follow
    {disk : Disk}
    {loc : Loc}
    (proper : Proper path)
    (leads : LeadsTo disk layerIdx path true loc obj)
    (noLink : obj.kind ≠ .lnk) :
    LeadsTo disk layerIdx path false loc obj := by
  obtain ⟨located, found⟩ := leads
  refine ⟨?_, found⟩
  simp only [↓reduceIte, Bool.false_eq_true] at located ⊢
  unfold locate openDir at located
  unfold locateFollow
  cases ends : path.getLast? with
  | none =>
      rw [ends] at located
      exact located
  | some name =>
      have properName := proper name (List.mem_of_getLast? ends)
      have plain : ¬ (name = dotName ∨ name = dotDotName ∨ name = []) := by
        simpa [isSpecial, not_or, and_assoc] using properName
      rw [ends] at located
      simp only [plain, ↓reduceIte] at located ⊢
      cases walked :
          disk.resolveDir ⟨.layer layerIdx, []⟩ linkLimit [] path.dropLast with
      | error errno =>
          rw [walked] at located
          cases located
      | ok dir =>
          rw [walked] at located
          cases located
          simp only [entry_of_ne (ne_dotName properName), Loc.child]
            at found ⊢
          rw [found]
          simp only [noLink, ↓reduceIte]

/-- `statat` shows what the path leads to. -/
theorem gives_statat
    {layerIdx : Nat} :
    Act.Gives (Climbing start path) (statat (.layer layerIdx) path)
      fun st os => ∃ loc src,
        (LeadsTo os.disk layerIdx path true loc src ∧ st.Shows src) ∧
          Climbing start path os := by
  intro os st later climbing returned
  unfold statat at returned
  rw [query_noFaults climbing.faults] at returned
  obtain ⟨answer, rfl⟩ := Prod.mk.inj returned
  unfold Disk.statat statLoc at answer
  cases located : os.disk.locate ⟨.layer layerIdx, []⟩ path with
  | error errno =>
      rw [located] at answer
      cases answer
  | ok loc =>
      rw [located] at answer
      simp only at answer
      cases named : os.disk.names.get? loc with
      | none =>
          rw [named] at answer
          cases answer
      | some id =>
          obtain ⟨src, stored, found⟩ := find?_isSome named
          rw [named] at answer
          simp only [stored] at answer
          cases answer
          exact ⟨loc, src, ⟨⟨located, found⟩, shows_statObj _ _ _ _⟩, climbing⟩

/-- Lower layers are walked as before. -/
theorem LeadsTo.keep
    {before after : Disk}
    {noFollow : Bool}
    {loc : Loc}
    (isLow : layerIdx ≠ 0)
    (kept : Kept before after)
    (leads : LeadsTo before layerIdx path noFollow loc obj) :
    LeadsTo after layerIdx path noFollow loc obj := by
  have same : WalksAlike before after ⟨.layer layerIdx, []⟩ :=
    .of_find? fun path => kept.finds _ (lower_layer isLow path)
  obtain ⟨located, found⟩ := leads
  have root : loc.root = .layer layerIdx := by
    split at located
    · exact root_of_locate located
    · exact root_of_locateFollow located
  have low : loc.Lower :=
    Loc.lower_of_root root.symm (lower_layer isLow [])
  refine ⟨?_, (kept.finds loc low).trans found⟩
  rw [← located]
  split
  · exact locate_congr same path
  · exact locateFollow_congr same linkLimit [] path

/-- The path of the upper layer leads to a copy of what a lower layer has
there, which has no other name. -/
def CopiedUp
    (env : Env)
    (start after : Disk)
    (layerIdx : Nat)
    (path : Path) : Prop :=
  ∃ loc src id copy,
    LeadsTo start layerIdx path true loc src ∧ CopyOf env src copy ∧
      after.Owns ⟨.layer 0, path⟩ id copy ∧ Reached after path

/-- A copy at its place. -/
theorem Copied.up
    {loc : Loc}
    {src : Obj}
    (kept : Kept start before)
    (vacant : WorkVacant before counter)
    (straight : before.Straight (.layer 0) path.dropLast)
    (leads : LeadsTo start layerIdx path true loc src)
    (copied : Copied env (wdName counter) before (counter + 1) src path os) :
    Climbing start path os ∧ CopiedUp env start os.disk layerIdx path := by
  obtain ⟨reached, id, copy, isCopy, installed⟩ := copied
  have owns := installed.owns
  rw [child_parentAt installed.proper] at owns
  exact ⟨installed.climbing kept vacant straight List.prefix_rfl (.inl rfl),
    loc, src, id, copy, leads, isCopy, owns, installed.reached reached⟩

/-- What a way to copy gives from the trees of the moment. -/
theorem gives_climbing
    {act : Syscall Unit}
    {loc : Loc}
    {src : Obj}
    (leads : LeadsTo start layerIdx path true loc src)
    (gives :
      ∀ os, Climbing start path os →
        Act.Gives (Ready os.disk os.wdCounter) act
          fun _ => Copied env (wdName os.wdCounter) os.disk
            (os.wdCounter + 1) src path) :
    Act.Gives (Climbing start path) act
      fun _ os => Climbing start path os ∧
        CopiedUp env start os.disk layerIdx path := by
  intro os value later climbing returned
  exact Copied.up climbing.kept climbing.vacant climbing.straight leads
    (gives os climbing os value later climbing.ready returned)

/-- A path through directories leads to its own location. -/
theorem openDir_dirs
    {disk : Disk}
    {root : Root}
    (proper : Proper path)
    (dirs :
      ∀ parents name, (parents ++ [name]) <+: path →
        disk.kindAt ⟨root, parents ++ [name]⟩ = some .dir) :
    disk.openDir ⟨root, []⟩ path = .ok ⟨root, path⟩ := by
  induction path using List.reverseRecOn with
  | nil =>
      rfl
  | append_singleton parents name inductionHypothesis =>
      have reached := inductionHypothesis
        (fun part among => proper part (List.mem_append_left _ among))
        fun first last isPrefix =>
          dirs first last (isPrefix.trans (List.prefix_append _ _))
      obtain ⟨-, -, found⟩ :=
        openDir_append_name reached (proper name (by simp))
      obtain ⟨obj, stored, isDir⟩ :=
        kindAt_eq_some_iff.mp (dirs parents name List.prefix_rfl)
      exact (found obj stored).1 isDir

/-- The path of the upper layer leads to the copy. -/
theorem leadsTo_copy
    {after : Disk}
    {copy : Obj}
    (proper : Proper path)
    (owns : after.Owns ⟨.layer 0, path⟩ id copy)
    (reached : Reached after path) :
    LeadsTo after 0 path true ⟨.layer 0, path⟩ copy := by
  refine ⟨?_, owns.find?⟩
  simp only [↓reduceIte]
  unfold locate
  cases ends : path.getLast? with
  | none =>
      rw [List.getLast?_eq_none_iff] at ends
      rw [ends]
  | some name =>
      simp only
      rw [openDir_dirs (proper_onWay proper List.prefix_rfl) reached]
      simp only [entry_of_ne (ne_dotName (proper name
        (List.mem_of_getLast? ends))), Loc.child]
      rw [List.dropLast_append_getLast? name ends]

end

end Syscall

namespace NodeArena

theorem SameShape.walk
    {first second : NodeArena}
    (same : SameShape first second)
    {path : Path}
    {id : NodeId}
    (walk : first.Walk path id) :
    second.Walk path id := by
  induction walk with
  | root =>
      exact .root
  | step before entry inductionHypothesis =>
      exact .step inductionHypothesis (same.entry entry)

/-- The way to the parent of a node. -/
theorem Walk.parent
    {arena : NodeArena}
    (tree : arena.Tree)
    {path : Path}
    {id parentId : NodeId}
    {node : OvlNode}
    (walk : arena.Walk path id)
    (stored : arena.get? id = some node)
    (isParent : node.parent = some parentId) :
    arena.Walk path.dropLast parentId := by
  cases walk with
  | root =>
      obtain ⟨root, rootStored, noParent, -⟩ := tree.root
      rw [stored] at rootStored
      cases rootStored
      rw [noParent] at isParent
      cases isParent
  | step before entry =>
      obtain ⟨isAbove, -⟩ := tree.linked entry stored (by simp)
      rw [isParent] at isAbove
      cases isAbove
      rw [List.dropLast_concat]
      exact before

/-- The layer of a node. -/
def layerAt
    (arena : NodeArena)
    (id : NodeId) :
    Option Nat :=
  (arena.get? id).map (·.layerIdx)

end NodeArena

namespace Daemon

open Syscall Whiteout Disk

section

variable {env : Env} {start : Disk} {path below : Path} {shape : NodeArena}
  {id : NodeId} {layerIdx : Nat} {sys : Sys}

/-- Copies are made along a path, and the tree stays. -/
structure Ascending
    (start : Disk)
    (path : Path)
    (shape : NodeArena)
    (sys : Sys) : Prop where
  climbing : Climbing start path sys.os
  same : shape.SameShape sys.nodes

/-- The path of a node on the way. -/
theorem Ascending.nodeParts_eq
    (ascending : Ascending start path shape sys)
    (tree : shape.Tree)
    (walk : shape.Walk below id) :
    nodeParts sys.nodes id = below :=
  (ascending.same.walk walk).nodeParts_eq
    (NodeArena.Tree.linkedTree (ascending.same.treeBut tree))

/-- The nodes after one of them came to the upper layer. -/
def raised
    (arena : NodeArena)
    (id : NodeId) :
    NodeArena :=
  arena.modify id fun node => { node with layerIdx := 0 }

theorem layerAt_raised
    (arena : NodeArena)
    (id query : NodeId) :
    (raised arena id).layerAt query =
      if query = id then (arena.layerAt id).map fun _ => 0
      else arena.layerAt query := by
  unfold raised NodeArena.layerAt
  rw [NodeArena.get?_modify]
  split
  · next same =>
      subst same
      cases arena.get? query <;> rfl
  · rfl

theorem sameShape_raised
    (arena : NodeArena)
    (id : NodeId) :
    arena.SameShape (raised arena id) :=
  .modify arena id fun _ _ => rfl

/-- The way to the parent of a node, which the node is not on. -/
theorem walk_parent
    (tree : shape.Tree)
    (same : shape.SameShape sys.nodes)
    (walk : shape.Walk below id)
    {found : OvlNode}
    {parentId : NodeId}
    (stored : sys.nodes.get? id = some found)
    (isParent : found.parent = some parentId) :
    shape.Walk below.dropLast parentId ∧
      ∀ shorter, shorter <+: below.dropLast → ¬ shape.Walk shorter id := by
  have now : sys.nodes.Tree := same.treeBut tree
  have nowWalk := same.walk walk
  refine ⟨same.symm.walk (nowWalk.parent now stored isParent), ?_⟩
  intro shorter isPrefix again
  have isBelow := again.unique tree walk
  subst isBelow
  cases nowWalk with
  | root =>
      obtain ⟨root, rootStored, noParent, -⟩ := now.root
      rw [stored] at rootStored
      cases rootStored
      rw [noParent] at isParent
      cases isParent
  | step before entry =>
      have lengths := isPrefix.length_le
      rw [List.dropLast_concat, List.length_append, List.length_singleton]
        at lengths
      omega

/-- One directory comes to the upper layer. -/
theorem createOneDirectory_returns
    (tree : shape.Tree)
    (proper : Proper path)
    (walk : shape.Walk below id)
    (onWay : below <+: path)
    (ascending : Ascending start path shape sys)
    (layer : sys.nodes.layerAt id = some layerIdx)
    (isLow : layerIdx ≠ 0)
    {later : Sys}
    (returned : createOneDirectory env id sys = (.ok (), later)) :
    Ascending start path shape later ∧
      later.nodes = raised sys.nodes id ∧
      ∃ objId obj loc src,
        (LeadsTo start layerIdx below false loc src ∧
          (src.kind = .dir → CopyOf env src obj)) ∧
        Standing start path below objId obj later.os := by
  unfold createOneDirectory nodePath at returned
  rw [Act.bind_ok (Act.gets_apply _ sys), ascending.nodeParts_eq tree walk]
    at returned
  obtain ⟨found, between, looked, rest⟩ :=
    Act.bind_returns (congrArg Prod.fst returned)
  obtain ⟨stored, still⟩ := node_returns looked
  rw [rest, still] at returned
  have isLayer : found.layerIdx = layerIdx := by
    unfold NodeArena.layerAt at layer
    rw [stored] at layer
    exact Option.some.inj layer
  rw [isLayer] at returned
  obtain ⟨_, copied, ran, rest⟩ :=
    Act.bind_returns (congrArg Prod.fst returned)
  obtain ⟨ran, same⟩ := lift_returns ran
  rw [rest] at returned
  obtain ⟨objId, obj, loc, src, leads, standing⟩ :=
    gives_climbDirectory isLow onWay proper _ _ _ ascending.climbing ran
  have marked : markUpper id copied = (.ok (),
      { sys with os := copied.os, nodes := raised sys.nodes id }) := by
    rw [same]
    rfl
  rw [Act.bind_ok marked] at returned
  have shapes : shape.SameShape (raised sys.nodes id) :=
    ascending.same.trans (sameShape_raised sys.nodes id)
  cases isParent : found.parent with
  | none =>
      rw [isParent] at returned
      cases returned
      exact ⟨⟨standing.climbing, shapes⟩, rfl, objId, obj, loc, src, leads,
        standing⟩
  | some parentId =>
      rw [isParent] at returned
      have parentWalk := (walk_parent tree ascending.same walk stored
        isParent).1
      have after : Ascending start path shape
          { sys with os := copied.os, nodes := raised sys.nodes id } :=
        ⟨standing.climbing, shapes⟩
      simp only at returned
      rw [Act.bind_ok (Act.gets_apply _ _), after.nodeParts_eq tree parentWalk]
        at returned
      have cleaned : Standing start path below objId obj
          ((deleteWhiteout upperRoot none below.dropLast found.name).attempt
            copied.os).2 :=
        keeps_deleteWhiteout (parents_onWay onWay) proper found.name
          copied.os standing
      obtain ⟨_, done, ran, rest⟩ :=
        Act.bind_returns (congrArg Prod.fst returned)
      obtain ⟨ran, same⟩ := lift_returns ran
      rw [rest] at returned
      cases returned
      rw [ran] at cleaned
      rw [same]
      exact ⟨⟨cleaned.climbing, shapes⟩, rfl, objId, obj, loc, src, leads,
        cleaned⟩

/-- A node with its parents on the way to the upper layer. -/
structure Raised
    (env : Env)
    (start : Disk)
    (path : Path)
    (shape : NodeArena)
    (below : Path)
    (id : NodeId)
    (sys later : Sys) : Prop where
  ascending : Ascending start path shape later
  others :
    ∀ other, (∀ shorter, shorter <+: below → ¬ shape.Walk shorter other) →
      later.nodes.layerAt other = sys.nodes.layerAt other
  layer : later.nodes.layerAt id = some 0
  copied :
    ∀ layerIdx, sys.nodes.layerAt id = some layerIdx → layerIdx ≠ 0 →
      ∃ objId obj loc src,
        (LeadsTo start layerIdx below false loc src ∧
          (src.kind = .dir → CopyOf env src obj)) ∧
        Standing start path below objId obj later.os

/-- A node comes to the upper layer after its parents. -/
theorem Raised.ofOne
    (tree : shape.Tree)
    (proper : Proper path)
    (walk : shape.Walk below id)
    (onWay : below <+: path)
    {middle later : Sys}
    (ascending : Ascending start path shape middle)
    (others :
      ∀ other, other = id ∨
          (∀ shorter, shorter <+: below → ¬ shape.Walk shorter other) →
        middle.nodes.layerAt other = sys.nodes.layerAt other)
    (layer : sys.nodes.layerAt id = some layerIdx)
    (isLow : layerIdx ≠ 0)
    (returned : createOneDirectory env id middle = (.ok (), later)) :
    Raised env start path shape below id sys later := by
  have middleLayer : middle.nodes.layerAt id = some layerIdx :=
    (others id (.inl rfl)).trans layer
  obtain ⟨after, nodes, copied⟩ := createOneDirectory_returns tree proper walk
    onWay ascending middleLayer isLow returned
  refine ⟨after, fun other apart => ?_, ?_, fun named same _ => ?_⟩
  · have different : other ≠ id := by
      rintro rfl
      exact apart below List.prefix_rfl walk
    rw [nodes, layerAt_raised, if_neg different]
    exact others other (.inr apart)
  · rw [nodes, layerAt_raised, if_pos rfl, middleLayer]
    rfl
  · rw [layer] at same
    cases same
    exact copied

theorem createNodeDirectory_returns
    (tree : shape.Tree)
    (upper : hasUpper env = true)
    (proper : Proper path)
    (fuel : Nat)
    (walk : shape.Walk below id)
    (onWay : below <+: path)
    (ascending : Ascending start path shape sys)
    {later : Sys}
    (returned : createNodeDirectory env fuel id sys = (.ok (), later)) :
    Raised env start path shape below id sys later := by
  induction fuel generalizing below id sys later with
  | zero =>
      cases returned
  | succ fuel inductionHypothesis =>
      unfold createNodeDirectory at returned
      obtain ⟨found, between, looked, rest⟩ :=
        Act.bind_returns (congrArg Prod.fst returned)
      obtain ⟨stored, still⟩ := node_returns looked
      rw [rest, still, upper] at returned
      have layer : sys.nodes.layerAt id = some found.layerIdx := by
        unfold NodeArena.layerAt
        rw [stored]
        rfl
      by_cases isUpper : found.layerIdx = 0
      · simp only [isUpper, decide_true, Bool.and_self, ↓reduceIte]
          at returned
        cases returned
        rw [isUpper] at layer
        refine ⟨ascending, fun _ _ => rfl, layer, fun other named isLow => ?_⟩
        rw [layer] at named
        exact (isLow (Option.some.inj named).symm).elim
      · simp only [isUpper, decide_false, Bool.false_and, Bool.false_eq_true,
          ↓reduceIte, Bool.not_true, Bool.or_false] at returned
        cases isParent : found.parent with
        | none =>
            rw [isParent] at returned
            exact .ofOne tree proper walk onWay ascending (fun _ _ => rfl) layer
              isUpper returned
        | some parentId =>
            rw [isParent] at returned
            obtain ⟨parentWalk, apart⟩ := walk_parent tree ascending.same walk
              stored isParent
            simp only at returned
            rw [Act.bind_ok (show getNode parentId sys = (.ok _, sys) from rfl)]
              at returned
            obtain ⟨_, middle, ran, rest⟩ :=
              Act.bind_returns (congrArg Prod.fst returned)
            rw [rest] at returned
            unfold Act.runIf at ran
            split at ran
            · have raised := inductionHypothesis parentWalk
                ((List.dropLast_prefix below).trans onWay) ascending ran
              refine .ofOne tree proper walk onWay raised.ascending ?_ layer
                isUpper returned
              rintro other (rfl | away)
              · exact raised.others other apart
              · exact raised.others other fun shorter isPrefix =>
                  away shorter (isPrefix.trans (List.dropLast_prefix below))
            · cases ran
              exact .ofOne tree proper walk onWay ascending (fun _ _ => rfl)
                layer isUpper returned

/-- What is no directory is copied and its node comes to the upper layer. -/
theorem raised_of_copy
    {act : Syscall Unit}
    (gives :
      Act.Gives (Climbing start path) act
        fun _ os => Climbing start path os ∧
          CopiedUp env start os.disk layerIdx path)
    (ascending : Ascending start path shape sys)
    {named : Nat}
    (layer : sys.nodes.layerAt id = some named)
    {later : Sys}
    (returned :
      ((liftM act : Daemon Unit) >>= fun _ => markUpper id) sys =
        (.ok (), later)) :
    Ascending start path shape later ∧ later.nodes.layerAt id = some 0 ∧
      CopiedUp env start later.os.disk layerIdx path := by
  obtain ⟨_, copied, ran, rest⟩ :=
    Act.bind_returns (congrArg Prod.fst returned)
  obtain ⟨ran, same⟩ := lift_returns ran
  rw [rest] at returned
  obtain ⟨climbing, up⟩ := gives _ _ _ ascending.climbing ran
  cases returned
  have nodes : copied.nodes = sys.nodes := by rw [same]
  refine ⟨⟨climbing, ?_⟩, ?_, up⟩
  · change shape.SameShape (raised copied.nodes id)
    rw [nodes]
    exact ascending.same.trans (sameShape_raised sys.nodes id)
  · change (raised copied.nodes id).layerAt id = some 0
    rw [nodes, layerAt_raised, if_pos rfl, layer]
    rfl

theorem createNodeDirectoryOf_returns
    (tree : shape.Tree)
    (upper : hasUpper env = true)
    (proper : Proper path)
    (walk : shape.Walk below id)
    (onWay : below <+: path)
    (ascending : Ascending start path shape sys)
    {later : Sys}
    (returned : createNodeDirectoryOf env id sys = (.ok (), later)) :
    Raised env start path shape below id sys later := by
  unfold createNodeDirectoryOf at returned
  rw [Act.bind_ok (Act.gets_apply _ sys)] at returned
  exact createNodeDirectory_returns tree upper proper _ walk onWay ascending
    returned

/-- A directory that was raised is a copy. -/
theorem Raised.copiedUp
    {later : Sys}
    (raised : Raised env start path shape path id sys later)
    (proper : Proper path)
    (layer : sys.nodes.layerAt id = some layerIdx)
    (isLow : layerIdx ≠ 0)
    {loc : Loc}
    {src : Obj}
    (leads : LeadsTo start layerIdx path true loc src)
    (isDir : src.kind = .dir) :
    CopiedUp env start later.os.disk layerIdx path := by
  obtain ⟨objId, obj, other, found, ⟨opened, isCopy⟩, standing⟩ :=
    raised.copied layerIdx layer isLow
  have follows := leads.follow proper (by simp [isDir])
  cases follows.1.symm.trans opened.1
  cases follows.2.symm.trans opened.2
  exact ⟨loc, src, objId, obj, leads, isCopy isDir, standing.owns,
    standing.reached⟩

/-- The parent of a node comes to the upper layer. -/
theorem copyupParent_returns
    (tree : shape.Tree)
    (upper : hasUpper env = true)
    (proper : Proper path)
    (walk : shape.Walk path id)
    (ascending : Ascending start path shape sys)
    {found : OvlNode}
    (stored : sys.nodes.get? id = some found)
    {later : Sys}
    (returned : copyupParent env found sys = (.ok (), later)) :
    Ascending start path shape later ∧
      later.nodes.layerAt id = sys.nodes.layerAt id := by
  unfold copyupParent at returned
  cases isParent : found.parent with
  | none =>
      rw [isParent] at returned
      cases returned
      exact ⟨ascending, rfl⟩
  | some parentId =>
      rw [isParent] at returned
      obtain ⟨parentWalk, apart⟩ := walk_parent tree ascending.same walk stored
        isParent
      have raised := createNodeDirectoryOf_returns tree upper proper parentWalk
        (List.dropLast_prefix path) ascending returned
      exact ⟨raised.ascending, raised.others id apart⟩

theorem copyup_returns
    (tree : shape.Tree)
    (proper : Proper path)
    (walk : shape.Walk path id)
    (ascending : Ascending start path shape sys)
    (layer : sys.nodes.layerAt id = some layerIdx)
    (isLow : layerIdx ≠ 0)
    {later : Sys}
    (returned : copyup env id sys = (.ok (), later)) :
    Ascending start path shape later ∧ later.nodes.layerAt id = some 0 ∧
      CopiedUp env start later.os.disk layerIdx path := by
  unfold copyup nodePath at returned
  obtain ⟨_, checked, ran, rest⟩ :=
    Act.bind_returns (congrArg Prod.fst returned)
  obtain ⟨upper, still⟩ := Act.check_returns ran
  rw [rest, still, Act.bind_ok (Act.gets_apply _ sys),
    ascending.nodeParts_eq tree walk] at returned
  obtain ⟨found, looked, ran, rest⟩ :=
    Act.bind_returns (congrArg Prod.fst returned)
  obtain ⟨stored, still⟩ := node_returns ran
  have isLayer : found.layerIdx = layerIdx := by
    unfold NodeArena.layerAt at layer
    rw [stored] at layer
    exact Option.some.inj layer
  rw [rest, still, isLayer] at returned
  obtain ⟨_, layered, ran, rest⟩ :=
    Act.bind_returns (congrArg Prod.fst returned)
  obtain ⟨-, still⟩ := layer_returns ran
  rw [rest, still] at returned
  obtain ⟨st, shown, ran, rest⟩ :=
    Act.bind_returns (congrArg Prod.fst returned)
  obtain ⟨ran, still⟩ := lift_returns ran
  obtain ⟨loc, src, ⟨leads, shows⟩, climbing⟩ :=
    gives_statat _ _ _ ascending.climbing ran
  have leads := (leads.of_kept isLow climbing.kept).1
  have nodes : shown.nodes = sys.nodes := by rw [still]
  have ascending : Ascending start path shape shown :=
    ⟨climbing, by rw [nodes]; exact ascending.same⟩
  rw [← nodes] at stored layer
  rw [rest] at returned
  obtain ⟨_, raised, ran, rest⟩ :=
    Act.bind_returns (congrArg Prod.fst returned)
  obtain ⟨ascending, sameLayer⟩ :=
    copyupParent_returns tree upper proper walk ascending stored ran
  rw [layer] at sameLayer
  have properParents := proper_onWay proper List.prefix_rfl
  rw [rest, shows.mode] at returned
  cases kind : src.kind with
  | dir =>
      rw [kind] at returned
      have up := createNodeDirectoryOf_returns tree upper proper walk
        List.prefix_rfl ascending returned
      exact ⟨up.ascending, up.layer,
        up.copiedUp proper sameLayer isLow leads kind⟩
  | lnk =>
      rw [kind] at returned
      refine raised_of_copy (gives_climbing leads fun os climbing => ?_)
        ascending sameLayer returned
      exact gives_copySymlink climbing.kept.apart
        (climbing.vacant _ le_rfl) (leads.keep isLow climbing.kept) kind shows
        climbing.straight properParents
  | reg =>
      rw [kind] at returned
      refine raised_of_copy (gives_climbing leads fun os climbing => ?_)
        ascending sameLayer returned
      exact gives_copyRegular climbing.kept.apart
        (climbing.vacant _ le_rfl) isLow (leads.keep isLow climbing.kept) kind
        shows climbing.straight properParents
  | chr | blk | fifo | sock =>
      rw [kind] at returned
      refine raised_of_copy (gives_climbing leads fun os climbing => ?_)
        ascending sameLayer returned
      exact gives_copySpecial climbing.kept.apart
        (climbing.vacant _ le_rfl) (by simp [kind]) shows climbing.straight
        properParents _

end

end Daemon

end FuseOverlay
