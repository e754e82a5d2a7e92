import FuseOverlay.LookupAgreement
import FuseOverlay.RefreshListing
import FuseOverlay.Lib.Layered

namespace FuseOverlay

/-!
# The union of the layers, as loading computes it

The reference is `Layered`: the first layer that holds a name or a whiteout of
it decides the name, and a directory is merged down to an opaque one or to a
whiteout.  The program keeps no list of layers: a directory node has the last
layer that its name was seen on, and loading asks every layer up to that one by
the whole path.  On a tidy stack the two read the same layers.
-/

open Syscall Whiteout Ledger

namespace Disk

/-- The layer has nothing at the path. -/
def Lacks
    (disk : Disk)
    (layerIdx : Nat)
    (path : Path) : Prop :=
  disk.statat (.layer layerIdx) path = .error .ENOENT ∨
    disk.statat (.layer layerIdx) path = .error .ENOTDIR

variable {disk : Disk} {layerIdx : Nat} {path : Path} {name : Name}

/-- Below a path that the layer lacks there is nothing either. -/
theorem Lacks.append
    (lacks : disk.Lacks layerIdx path)
    (proper : Proper path)
    (below : path ≠ [])
    (name : Name) :
    disk.Lacks layerIdx (path ++ [name]) := by
  have failed :
      ∃ errno, disk.openDir ⟨.layer layerIdx, []⟩ path = .error errno ∧
        (errno = .ENOENT ∨ errno = .ENOTDIR) := by
    obtain ⟨parents, last, rfl⟩ := List.eq_nil_or_concat path |>.resolve_left
      below
    rw [List.concat_eq_append] at proper lacks ⊢
    have properLast : isSpecial last = false := proper last (by simp)
    unfold Lacks at lacks
    rw [statat_append] at lacks
    cases reached : disk.openDir ⟨.layer layerIdx, []⟩ parents with
    | error errno =>
        rw [reached] at lacks
        refine ⟨errno, openDir_append_error reached [last], ?_⟩
        simpa using lacks
    | ok dir =>
        rw [reached] at lacks
        refine ⟨.ENOENT, ?_, .inl rfl⟩
        apply (openDir_append_name reached properLast).2.1
        rw [← entry_of_ne (ne_dotName properLast)]
        simp only [statLoc] at lacks
        unfold find?
        cases stored : disk.names.get? (dir.entry last) with
        | none =>
            rfl
        | some id =>
            obtain ⟨obj, objStored⟩ :=
              Option.isSome_iff_exists.mp (disk.named stored)
            simp [stored, objStored] at lacks
  obtain ⟨errno, failed, rfl | rfl⟩ := failed
  · left
    rw [statat_append, failed]
  · right
    rw [statat_append, failed]

end Disk

namespace Daemon

/-- What a layer has under a name of a directory. -/
def markAt
    (env : Env)
    (disk : Disk)
    (path : Path)
    (name : Name)
    (layerIdx : Nat) :
    Option Mark :=
  match verdictAt disk path name layerIdx with
  | .silent => none
  | .whiteout => some .whiteout
  | .object false => some .file
  | .object true =>
      some (.dir (opaqueAt env disk layerIdx (path ++ [name])))

/-- The layers of a mount. -/
def stack
    (env : Env)
    (disk : Disk) :
    Layered Name where
  count := env.layers.length
  root layerIdx := some (.dir (opaqueAt env disk layerIdx []))
  mark := markAt env disk

/--
What the program relies on.  Two of the conditions name a place where loading
by paths reads more than the union: a `.wh.` file on a layer between two layers
of a directory ends no loop, and the last layer of a directory that only the
top layer has is no bound.
-/
structure TidyStack
    (env : Env)
    (disk : Disk) : Prop where
  rooted :
    ∀ layerIdx < env.layers.length, ∃ dir,
      disk.placeAt (.layer layerIdx) [] = .dir dir
  typed :
    ∀ layerIdx < env.layers.length,
      (!env.config.fastInoCheck || reportsType env layerIdx) = true
  named :
    ∀ layerIdx path, disk.objAt layerIdx path [] = none
  simple :
    ∀ layerIdx path name,
      disk.objAt layerIdx path (whName (whName name)) = none
  hidden :
    ∀ path name upper layerIdx lower, Plain name →
      upper ∈ (stack env disk).dirs path →
      layerIdx ∈ (stack env disk).dirs path →
      lower ∈ (stack env disk).dirs path →
      upper < layerIdx → layerIdx ≤ lower →
      (∃ isOpaque, markAt env disk path name upper = some (.dir isOpaque)) →
      disk.objAt layerIdx path (whName name) ≠ none →
      disk.objAt lower path name = none
  alone :
    ∀ path name, Plain name →
      (stack env disk).shown path name = some (0, true) →
      (∀ layerIdx ∈ (stack env disk).dirs path, 0 < layerIdx →
        disk.objAt layerIdx path name = none) →
      opaqueAt env disk 0 (path ++ [name]) = true ∨
        ∀ layerIdx < env.layers.length, 0 < layerIdx →
          disk.Lacks layerIdx (path ++ [name])

variable {env : Env} {disk : Disk} {path : Path} {name : Name}

/-! ## The layers that a load reads -/

/-- The layers whose directories the loop reads, in order. -/
def layersRead
    (env : Env)
    (disk : Disk)
    (path : Path)
    (lastLayerStop : Option Nat) :
    List Nat → List Nat
  | [] => []
  | layerIdx :: rest =>
      match disk.statat (.layer layerIdx) path with
      | .ok st =>
          if st.mode.isDir then
            layerIdx ::
              if opaqueAt env disk layerIdx path
                  || stopsAt lastLayerStop layerIdx then []
              else layersRead env disk path lastLayerStop rest
          else []
      | .error .ENOENT | .error .ENOTDIR =>
          if stopsAt lastLayerStop layerIdx then []
          else layersRead env disk path lastLayerStop rest
      | .error _ => []

theorem layersRead_of_dir
    {layerIdx : Nat}
    {st : Stat}
    (answer : disk.statat (.layer layerIdx) path = .ok st)
    (isDir : st.mode.isDir = true)
    (lastLayerStop : Option Nat)
    (rest : List Nat) :
    layersRead env disk path lastLayerStop (layerIdx :: rest) =
      layerIdx ::
        if opaqueAt env disk layerIdx path
            || stopsAt lastLayerStop layerIdx then []
        else layersRead env disk path lastLayerStop rest := by
  rw [layersRead, answer]
  simp only [isDir, ↓reduceIte]

theorem layersRead_of_lack
    {layerIdx : Nat}
    (lacks : disk.Lacks layerIdx path)
    (lastLayerStop : Option Nat)
    (rest : List Nat) :
    layersRead env disk path lastLayerStop (layerIdx :: rest) =
      if stopsAt lastLayerStop layerIdx then []
      else layersRead env disk path lastLayerStop rest := by
  rw [layersRead]
  rcases lacks with missing | missing
  · rw [missing]
  · rw [missing]

theorem layersRead_of_break
    {layerIdx : Nat}
    (notDir :
      ∀ st, disk.statat (.layer layerIdx) path = .ok st →
        st.mode.isDir = false)
    (there : ¬ disk.Lacks layerIdx path)
    (lastLayerStop : Option Nat)
    (rest : List Nat) :
    layersRead env disk path lastLayerStop (layerIdx :: rest) = [] := by
  rw [layersRead]
  cases answer : disk.statat (.layer layerIdx) path with
  | ok st =>
      simp only [notDir st answer, Bool.false_eq_true, ↓reduceIte]
  | error errno =>
      unfold Disk.Lacks at there
      rw [answer] at there
      cases errno <;> simp_all

theorem loadRecord_eq
    (lastLayerStop : Option Nat)
    (layers : List Nat)
    (ledger : Ledger) :
    loadRecord env disk path lastLayerStop layers ledger =
      addLayers env disk path ledger
        (layersRead env disk path lastLayerStop layers) := by
  induction layers generalizing ledger with
  | nil =>
      rfl
  | cons layerIdx rest inductionHypothesis =>
      unfold loadRecord layerEffect layersRead
      cases disk.statat (.layer layerIdx) path with
      | error errno =>
          cases errno <;> try rfl
          all_goals
            simp only
            split
            · rfl
            · exact inductionHypothesis ledger
      | ok st =>
          simp only
          cases st.mode.isDir with
          | false =>
              rfl
          | true =>
              simp only [↓reduceIte, addLayers_cons]
              cases opaqueAt env disk layerIdx path with
              | true =>
                  rfl
              | false =>
                  simp only [Bool.false_or]
                  cases stopsAt lastLayerStop layerIdx with
                  | true => rfl
                  | false => exact inductionHypothesis _

/-! ## One name in the record -/

/-- A `.wh.` name is never recorded. -/
theorem free_whName
    {ledger : Ledger}
    {layerIdx : Nat}
    (simple : disk.objAt layerIdx path (whName (whName name)) = none)
    (free : ledger.taken (whName name) = false) :
    (ledger.add layerIdx (listingAt env disk layerIdx path)).taken
      (whName name) = false := by
  have unlisted :
      (listingAt env disk layerIdx path (whName (whName name))).isSome =
        false := by
    simp [listingAt, simple]
  apply taken_eq_false
  · rw [child_add_of_free free]
    simp [shown]
  · rw [white_add_of_free free]
    simp [masked, unlisted]

/-- A layer that hides a name leaves it taken and without a child. -/
theorem hidden_of_whiteout
    {ledger : Ledger}
    {layerIdx : Nat}
    (plain : Plain name)
    (simple : disk.objAt layerIdx path (whName (whName name)) = none)
    (free : ledger.taken name = false)
    (freeMark : ledger.taken (whName name) = false)
    (hidden : verdictAt disk path name layerIdx = .whiteout) :
    (ledger.add layerIdx (listingAt env disk layerIdx path)).child name =
        none ∧
      (ledger.add layerIdx (listingAt env disk layerIdx path)).white name =
        true := by
  cases found : disk.objAt layerIdx path name with
  | some obj =>
      exact white_of_hidden plain free found hidden
  | none =>
      have whFile :
          (disk.objAt layerIdx path (whName name)).isSome = true := by
        unfold verdictAt at hidden
        split at hidden
        · assumption
        · simp [found] at hidden
      apply white_of_heeded free whFile
      simp [heeded, plain.whName_ne, freeMark, listingAt, simple]

/-- A child that is recorded moves on to the last layer with its name. -/
theorem seen_addLayers
    {ledger : Ledger}
    {found : FuseOverlay.Found}
    {layers : List Nat}
    (plain : Plain name)
    (child : ledger.child name = some found)
    (sorted : (found.lastLayerIdx :: layers).Pairwise (· < ·)) :
    ∃ later, (addLayers env disk path ledger layers).child name = some later ∧
      (later.lastLayerIdx = found.lastLayerIdx ∨
        later.lastLayerIdx ∈ layers ∧
          disk.objAt later.lastLayerIdx path name ≠ none) ∧
      found.lastLayerIdx ≤ later.lastLayerIdx ∧
      ∀ layerIdx ∈ layers, disk.objAt layerIdx path name ≠ none →
        layerIdx ≤ later.lastLayerIdx := by
  induction layers generalizing ledger found with
  | nil =>
      exact ⟨found, child, .inl rfl, le_rfl, by simp⟩
  | cons layerIdx rest inductionHypothesis =>
      obtain ⟨above, sortedRest⟩ := List.pairwise_cons.mp sorted
      have isTaken : ledger.taken name = true := by
        simp [taken, child]
      have next := child_add_of_taken isTaken layerIdx
        (listingAt env disk layerIdx path)
      rw [child, plain.not_skipped] at next
      simp only [Bool.not_false, Bool.and_true, Option.map_some] at next
      cases held : disk.objAt layerIdx path name with
      | none =>
          rw [show (listingAt env disk layerIdx path name).isSome = false by
            simp [listingAt, held]] at next
          obtain ⟨later, isLater, place, least, most⟩ :=
            inductionHypothesis next
              (List.pairwise_cons.mpr
                ⟨fun other among => above other (by simp [among]),
                  (List.pairwise_cons.mp sortedRest).2⟩)
          refine ⟨later, isLater, ?_, least, ?_⟩
          · exact place.imp_right fun seen => ⟨by simp [seen.1], seen.2⟩
          · intro other among holds
            rcases List.mem_cons.mp among with rfl | among
            · exact (holds held).elim
            · exact most other among holds
      | some obj =>
          rw [show (listingAt env disk layerIdx path name).isSome = true by
            simp [listingAt, held]] at next
          obtain ⟨later, isLater, place, least, most⟩ :=
            inductionHypothesis next sortedRest
          refine ⟨later, isLater, .inr ?_, ?_, ?_⟩
          · rcases place with same | ⟨among, holds⟩
            · rw [show later.lastLayerIdx = layerIdx from same]
              exact ⟨by simp, by simp [held]⟩
            · exact ⟨by simp [among], holds⟩
          · have before := above layerIdx (by simp)
            exact before.le.trans least
          · intro other among holds
            rcases List.mem_cons.mp among with rfl | among
            · exact least
            · exact most other among holds

/-- The last layer of a child is the last one that holds its name. -/
def LastHeld
    (disk : Disk)
    (path : Path)
    (name : Name)
    (layers : List Nat)
    (lastLayerIdx : Nat) : Prop :=
  lastLayerIdx ∈ layers ∧ disk.objAt lastLayerIdx path name ≠ none ∧
    ∀ layerIdx ∈ layers, disk.objAt layerIdx path name ≠ none →
      layerIdx ≤ lastLayerIdx

/-- What the record of some layers says of a name. -/
theorem record_addLayers
    {ledger : Ledger}
    {layers : List Nat}
    (plain : Plain name)
    (typed :
      ∀ layerIdx ∈ layers,
        (!env.config.fastInoCheck || reportsType env layerIdx) = true)
    (simple :
      ∀ layerIdx, disk.objAt layerIdx path (whName (whName name)) = none)
    (sorted : layers.Pairwise (· < ·))
    (free : ledger.taken name = false)
    (freeMark : ledger.taken (whName name) = false) :
    (addLayers env disk path ledger layers).view name =
        Mark.top (markAt env disk path name) layers ∧
      ∀ found, (addLayers env disk path ledger layers).child name =
          some found →
        LastHeld disk path name layers found.lastLayerIdx := by
  induction layers generalizing ledger with
  | nil =>
      refine ⟨view_of_free free, fun found child => ?_⟩
      rw [addLayers_nil, Scanned.child_eq_none free] at child
      cases child
  | cons layerIdx rest inductionHypothesis =>
      obtain ⟨above, sortedRest⟩ := List.pairwise_cons.mp sorted
      rw [addLayers_cons]
      unfold Mark.top markAt
      cases verdict : verdictAt disk path name layerIdx with
      | silent =>
          simp only
          obtain ⟨sameView, lastHeld⟩ := inductionHypothesis
            (fun other among => typed other (by simp [among])) sortedRest
            (free_of_silent free verdict)
            (free_whName (simple layerIdx) freeMark)
          refine ⟨sameView, fun found child => ?_⟩
          obtain ⟨among, holds, most⟩ := lastHeld found child
          refine ⟨by simp [among], holds, ?_⟩
          intro other member held
          rcases List.mem_cons.mp member with rfl | member
          · exact (above _ among).le
          · exact most other member held
      | whiteout =>
          simp only
          obtain ⟨noChild, white⟩ := @hidden_of_whiteout env disk path name
            ledger layerIdx plain (simple layerIdx) free freeMark verdict
          have kept := @view_addLayers_of_taken env disk path name
            (ledger.add layerIdx (listingAt env disk layerIdx path))
            (by simp [taken, white]) rest
          have noView :
              (addLayers env disk path
                (ledger.add layerIdx (listingAt env disk layerIdx path))
                rest).view name = none := by
            rw [kept, view, noChild]
            rfl
          refine ⟨noView, fun found child => ?_⟩
          rw [view, child] at noView
          cases noView
      | object isDir =>
          have child := @child_of_object env disk path name layerIdx ledger
            plain free isDir verdict
          rw [typed layerIdx (by simp), Bool.and_true] at child
          have kept := @view_addLayers_of_taken env disk path name
            (ledger.add layerIdx (listingAt env disk layerIdx path))
            (by simp [taken, child]) rest
          constructor
          · rw [kept, view, child]
            cases isDir <;> rfl
          · intro found isFound
            obtain ⟨later, isLater, place, least, most⟩ :=
              @seen_addLayers env disk path name _ _ rest plain child sorted
            rw [isFound] at isLater
            cases isLater
            have heldHere : disk.objAt layerIdx path name ≠ none := by
              intro none
              unfold verdictAt at verdict
              split at verdict
              · cases verdict
              · simp [none] at verdict
            refine ⟨?_, ?_, ?_⟩
            · rcases place with same | seen
              · rw [show found.lastLayerIdx = layerIdx from same]
                exact List.mem_cons_self
              · exact List.mem_cons_of_mem _ seen.1
            · rcases place with same | seen
              · rw [show found.lastLayerIdx = layerIdx from same]
                exact heldHere
              · exact seen.2
            · intro other among holds
              rcases List.mem_cons.mp among with rfl | among
              · exact least
              · exact most other among holds

/-- Only plain names are recorded as children. -/
theorem unlisted_addLayers
    {ledger : Ledger}
    {layers : List Nat}
    (special : ¬ Plain name)
    (noChild : ledger.child name = none) :
    (addLayers env disk path ledger layers).child name = none := by
  induction layers generalizing ledger with
  | nil =>
      exact noChild
  | cons layerIdx rest inductionHypothesis =>
      apply inductionHypothesis
      cases isTaken : ledger.taken name with
      | true =>
          rw [child_add_of_taken isTaken, noChild]
          simp
      | false =>
          rw [child_add_of_free isTaken]
          cases isShown : shown (listingAt env disk layerIdx path) name with
          | none =>
              rfl
          | some isDir =>
              unfold shown at isShown
              split at isShown
              · cases isShown
              · next visible =>
                  refine absurd ?_ special
                  simp only [isSkipped, Bool.or_eq_true, decide_eq_true_eq,
                    not_or, Bool.not_eq_true] at visible
                  exact ⟨visible.1.1.1.1, visible.1.1.1.2, visible.1.2⟩

/-! ## The layers of a child -/

theorem layersRead_sublist
    (lastLayerStop : Option Nat)
    (layers : List Nat) :
    (layersRead env disk path lastLayerStop layers).Sublist layers := by
  induction layers with
  | nil =>
      exact .slnil
  | cons layerIdx rest inductionHypothesis =>
      unfold layersRead
      split
      · split
        · split
          · exact .cons_cons _ (List.nil_sublist rest)
          · exact .cons_cons _ inductionHypothesis
        · exact List.nil_sublist _
      · split
        · exact List.nil_sublist _
        · exact .cons _ inductionHypothesis
      · split
        · exact List.nil_sublist _
        · exact .cons _ inductionHypothesis
      · exact List.nil_sublist _

theorem layersRead_of_lacks
    {layers : List Nat}
    (lacks : ∀ layerIdx ∈ layers, disk.Lacks layerIdx path)
    (lastLayerStop : Option Nat) :
    layersRead env disk path lastLayerStop layers = [] := by
  induction layers with
  | nil =>
      rfl
  | cons layerIdx rest inductionHypothesis =>
      have later := inductionHypothesis fun other among =>
        lacks other (by simp [among])
      unfold layersRead
      rcases lacks layerIdx (by simp) with missing | missing
      · rw [missing]
        simp [later]
      · rw [missing]
        simp [later]

/-- The root of every layer is read. -/
theorem layersRead_root
    {layers : List Nat}
    (rooted :
      ∀ layerIdx ∈ layers, ∃ st,
        disk.statat (.layer layerIdx) [] = .ok st ∧ st.mode.isDir = true) :
    layersRead env disk [] none layers =
      Mark.dirs (stack env disk).root layers := by
  induction layers with
  | nil =>
      rfl
  | cons layerIdx rest inductionHypothesis =>
      obtain ⟨st, answer, isDir⟩ := rooted layerIdx (by simp)
      have later := inductionHypothesis fun other among =>
        rooted other (by simp [among])
      unfold layersRead Mark.dirs
      rw [answer]
      simp only [isDir, ↓reduceIte, stopsAt, reduceCtorEq, decide_false,
        Bool.false_and, Bool.or_false, later]
      rfl

/-- A directory that the loop reads holds objects that `statat` finds. -/
theorem statat_child
    {layerIdx : Nat}
    {st : Stat}
    (plain : Plain name)
    (proper : Disk.Proper path)
    (answer : disk.statat (.layer layerIdx) path = .ok st)
    (isDir : st.mode.isDir = true) :
    (∀ obj, disk.objAt layerIdx path name = some obj →
      ∃ below, disk.statat (.layer layerIdx) (path ++ [name]) = .ok below ∧
        below.mode.isDir = decide (obj.kind = .dir)) ∧
    (disk.objAt layerIdx path name = none →
      disk.statat (.layer layerIdx) (path ++ [name]) = .error .ENOENT) := by
  obtain ⟨dir, place⟩ := placeAt_of_statat answer isDir
  have opened := Disk.dirAt_of_placeAt proper place
  obtain ⟨held, unheld⟩ :=
    @Disk.statat_of_objAt disk layerIdx path name plain.1
  refine ⟨fun obj found => ?_, fun none => ?_⟩
  · obtain ⟨below, answer, mode, -⟩ := held obj found
    refine ⟨below, answer, ?_⟩
    rw [mode]
    simp [Mode.isDir]
  · obtain ⟨errno, answer, failed | rfl⟩ := unheld none
    · rw [opened] at failed
      cases failed
    · exact answer

/-- What a layer without a `.wh.` file marks. -/
theorem markAt_of_clear
    {layerIdx : Nat}
    (clear : disk.objAt layerIdx path (whName name) = none) :
    markAt env disk path name layerIdx =
      match disk.objAt layerIdx path name with
      | none => none
      | some obj =>
          if obj.isWhiteoutDev then some .whiteout
          else if obj.kind = .dir then
            some (.dir (opaqueAt env disk layerIdx (path ++ [name])))
          else some .file := by
  unfold markAt verdictAt
  rw [clear]
  cases disk.objAt layerIdx path name with
  | none =>
      rfl
  | some obj =>
      cases device : obj.isWhiteoutDev with
      | true =>
          simp [device]
      | false =>
          cases kind : obj.kind <;> simp [device, kind]

/-- Layers without a directory under the name end nothing and add nothing. -/
theorem dirs_markAt_of_unheld
    {layers : List Nat}
    (unheld : ∀ layerIdx ∈ layers, disk.objAt layerIdx path name = none) :
    Mark.dirs (markAt env disk path name) layers = [] := by
  rw [List.eq_nil_iff_forall_not_mem]
  intro layerIdx member
  obtain ⟨isOpaque, marked⟩ := Mark.mark_of_mem_dirs member
  have none := unheld layerIdx ((Mark.dirs_sublist _ _).subset member)
  unfold markAt verdictAt at marked
  rw [none] at marked
  split at marked
  · cases marked
  · cases marked
  · next object =>
      split at object <;> cases object
  · next object =>
      split at object <;> cases object

/-- A layer with a directory of the child: what follows it in both loops. -/
theorem layersRead_append_dir
    {layerIdx last : Nat}
    {rest parents : List Nat}
    {st : Stat}
    (answer : disk.statat (.layer layerIdx) (path ++ [name]) = .ok st)
    (isDir : st.mode.isDir = true)
    (marked :
      markAt env disk path name layerIdx =
        some (.dir (opaqueAt env disk layerIdx (path ++ [name]))))
    (goesOn :
      last ≠ layerIdx →
        layersRead env disk (path ++ [name]) (some last) rest =
          Mark.dirs (markAt env disk path name) parents)
    (ends :
      last = layerIdx →
        ∀ other ∈ parents, disk.objAt other path name = none)
    (alone :
      last = layerIdx → layerIdx = 0 →
        opaqueAt env disk 0 (path ++ [name]) = true ∨
          ∀ other ∈ rest, disk.Lacks other (path ++ [name])) :
    layersRead env disk (path ++ [name]) (some last) (layerIdx :: rest) =
      Mark.dirs (markAt env disk path name) (layerIdx :: parents) := by
  rw [layersRead_of_dir answer isDir, Mark.dirs, marked]
  simp only
  congr 1
  cases closed : opaqueAt env disk layerIdx (path ++ [name]) with
  | true =>
      rfl
  | false =>
      simp only [Bool.false_or, Bool.false_eq_true, ↓reduceIte]
      by_cases here : last = layerIdx
      · rw [dirs_markAt_of_unheld (ends here)]
        cases stops : stopsAt (some last) layerIdx with
        | true =>
            rfl
        | false =>
            -- only the top layer is no bound
            have top : layerIdx = 0 := by
              simpa [stopsAt, here] using stops
            rw [top] at closed
            exact layersRead_of_lacks
              ((alone here top).resolve_left (by simp [closed])) _
      · rw [goesOn here]
        simp [stopsAt, here]

/--
Loading a child up to its last layer reads the layers that the union takes for
it, layer by layer along the loop that reads its parent.
-/
theorem layersRead_append
    {layers : List Nat}
    {lastLayerStop : Option Nat}
    {last : Nat}
    (plain : Plain name)
    (proper : Disk.Proper path)
    (sorted : layers.Pairwise (· < ·))
    (rooted : ∀ layerIdx ∈ layers, path = [] → ¬ disk.Lacks layerIdx [])
    (lastHeld :
      LastHeld disk path name
        (layersRead env disk path lastLayerStop layers) last)
    (clear :
      ∀ layerIdx ∈ layersRead env disk path lastLayerStop layers,
        layerIdx ≤ last → disk.objAt layerIdx path (whName name) = none)
    (alone :
      last = 0 → opaqueAt env disk 0 (path ++ [name]) = true ∨
        ∀ layerIdx ∈ layers, 0 < layerIdx →
          disk.Lacks layerIdx (path ++ [name])) :
    layersRead env disk (path ++ [name]) (some last) layers =
      Mark.dirs (markAt env disk path name)
        (layersRead env disk path lastLayerStop layers) := by
  induction layers with
  | nil =>
      cases lastHeld.1
  | cons layerIdx rest inductionHypothesis =>
      obtain ⟨above, sortedRest⟩ := List.pairwise_cons.mp sorted
      -- the layers behind this one, when the loop over the parent goes on
      have behind :
          LastHeld disk path name
              (layersRead env disk path lastLayerStop rest) last →
            (∀ other ∈ layersRead env disk path lastLayerStop rest,
              other ≤ last →
                disk.objAt other path (whName name) = none) →
            layersRead env disk (path ++ [name]) (some last) rest =
              Mark.dirs (markAt env disk path name)
                (layersRead env disk path lastLayerStop rest) :=
        fun held clear => inductionHypothesis sortedRest
          (fun other among => rooted other (by simp [among])) held clear
          fun zero => (alone zero).imp_right fun lacks other among =>
            lacks other (by simp [among])
      have later :
          ∀ other ∈ layersRead env disk path lastLayerStop rest,
            layerIdx < other :=
        fun other among =>
          above other ((layersRead_sublist _ _).subset among)
      by_cases missing : disk.Lacks layerIdx path
      · have below : path ≠ [] := by
          rintro rfl
          exact rooted layerIdx (by simp) rfl missing
        rw [layersRead_of_lack missing] at lastHeld clear ⊢
        rw [layersRead_of_lack (missing.append proper below name)]
        split at lastHeld
        · cases lastHeld.1
        · next goesOn =>
            have notLast : layerIdx ≠ last :=
              (later last lastHeld.1).ne
            rw [if_neg goesOn] at clear ⊢
            rw [if_neg (by simp [stopsAt, Ne.symm notLast])]
            exact behind lastHeld clear
      · by_cases isDir : ∃ st, disk.statat (.layer layerIdx) path = .ok st ∧
            st.mode.isDir = true
        · obtain ⟨st, answer, isDir⟩ := isDir
          obtain ⟨found, absent⟩ := @statat_child disk path name layerIdx st
            plain proper answer isDir
          rw [layersRead_of_dir answer isDir] at lastHeld clear ⊢
          obtain ⟨member, holds, most⟩ := lastHeld
          have goesOn :
              last ≠ layerIdx →
                (opaqueAt env disk layerIdx path
                  || stopsAt lastLayerStop layerIdx) = false ∧
                layersRead env disk (path ++ [name]) (some last) rest =
                  Mark.dirs (markAt env disk path name)
                    (layersRead env disk path lastLayerStop rest) := by
            intro notHere
            cases stops : opaqueAt env disk layerIdx path
                || stopsAt lastLayerStop layerIdx with
            | true =>
                rw [stops] at member
                simp [notHere] at member
            | false =>
                rw [stops] at member most clear
                simp only [Bool.false_eq_true, ↓reduceIte, List.mem_cons,
                  notHere, false_or] at member most clear
                exact ⟨rfl, behind
                  ⟨member, holds, fun other among => most other (.inr among)⟩
                  fun other among => clear other (.inr among)⟩
          cases held : disk.objAt layerIdx path name with
          | none =>
              have notHere : last ≠ layerIdx := by
                rintro rfl
                exact holds held
              obtain ⟨stays, same⟩ := goesOn notHere
              rw [stays] at member clear ⊢
              simp only [Bool.false_eq_true, ↓reduceIte, List.mem_cons,
                notHere, false_or] at member
              have before : layerIdx ≤ last := (later last member).le
              have mark := @markAt_of_clear env disk path name layerIdx
                (clear layerIdx (by simp) before)
              rw [held] at mark
              rw [layersRead_of_lack (.inl (absent held)),
                if_neg (by simp [stopsAt, notHere])]
              simp only [Bool.false_eq_true, ↓reduceIte, Mark.dirs, mark]
              exact same
          | some obj =>
              obtain ⟨below, answerBelow, kind⟩ := found obj held
              have before : layerIdx ≤ last :=
                most layerIdx (by simp) (by simp [held])
              have mark := @markAt_of_clear env disk path name layerIdx
                (clear layerIdx (by simp) before)
              rw [held] at mark
              simp only at mark
              by_cases objDir : obj.kind = .dir
              · have marked : markAt env disk path name layerIdx =
                    some (.dir (opaqueAt env disk layerIdx
                      (path ++ [name]))) := by
                  simpa [Obj.isWhiteoutDev, objDir] using mark
                apply layersRead_append_dir answerBelow
                  (by simp [kind, objDir]) marked
                · intro notHere
                  obtain ⟨stays, same⟩ := goesOn notHere
                  rw [stays]
                  exact same
                · rintro rfl other among
                  have beyond : last < other := by
                    split at among
                    · cases among
                    · exact later other among
                  by_contra holdsIt
                  have bounded := most other (List.mem_cons_of_mem _ among)
                    holdsIt
                  omega
                · rintro rfl rfl
                  exact (alone rfl).imp_right fun lacks other among =>
                    lacks other (by simp [among]) (above other among)
              · have closed : Mark.dirs (markAt env disk path name)
                    (layerIdx ::
                      if (opaqueAt env disk layerIdx path
                        || stopsAt lastLayerStop layerIdx) = true then []
                      else layersRead env disk path lastLayerStop rest) =
                    [] := by
                  rw [Mark.dirs, mark]
                  cases obj.isWhiteoutDev <;> simp [objDir]
                rw [closed]
                apply layersRead_of_break
                · intro st same
                  rw [answerBelow] at same
                  cases same
                  simp [kind, objDir]
                · unfold Disk.Lacks
                  simp [answerBelow]
        · have broken := @layersRead_of_break env disk path layerIdx
            (fun st answer => by
              by_contra isOne
              exact isDir ⟨st, answer, by simpa using isOne⟩)
            missing lastLayerStop rest
          rw [broken] at lastHeld
          cases lastHeld.1

/-- The root of a layer answers `statat`. -/
theorem TidyStack.statat_root
    (tidy : TidyStack env disk)
    {layerIdx : Nat}
    (below : layerIdx < env.layers.length) :
    ∃ st, disk.statat (.layer layerIdx) [] = .ok st ∧
      st.mode.isDir = true := by
  obtain ⟨dir, place⟩ := tidy.rooted layerIdx below
  have quiet : disk.Quiet (.layer layerIdx) [] := by
    intro errno failed
    cases failed
  have answer := Disk.statat_of_placeAt quiet
  rw [place] at answer
  exact answer

/-- The layers of the root. -/
theorem TidyStack.layersRead_root
    (tidy : TidyStack env disk) :
    layersRead env disk [] none (layerIndices env) =
      (stack env disk).dirs [] :=
  Daemon.layersRead_root fun _ member =>
    tidy.statat_root (List.mem_range.mp member)

/-- A layer that marks a name as a directory holds it. -/
theorem held_of_marked
    {layerIdx : Nat}
    {isOpaque : Bool}
    (marked : markAt env disk path name layerIdx = some (.dir isOpaque)) :
    disk.objAt layerIdx path name ≠ none := by
  intro unheld
  have noDirs := @dirs_markAt_of_unheld env disk path name [layerIdx]
    (by simpa using unheld)
  rw [Mark.dirs, marked] at noDirs
  cases noDirs

/-- The layers of a child of a directory whose layers are those of the union. -/
theorem TidyStack.layersRead_child
    (tidy : TidyStack env disk)
    {lastLayerStop : Option Nat}
    {top last : Nat}
    (plain : Plain name)
    (proper : Disk.Proper path)
    (parent :
      layersRead env disk path lastLayerStop (layerIndices env) =
        (stack env disk).dirs path)
    (isShown : (stack env disk).shown path name = some (top, true))
    (lastHeld :
      LastHeld disk path name ((stack env disk).dirs path) last) :
    layersRead env disk (path ++ [name]) (some last) (layerIndices env) =
      (stack env disk).dirs (path ++ [name]) := by
  rw [Layered.dirs_append, ← parent]
  obtain ⟨before, behind, parts, passed, -, isDir⟩ := Mark.split_of_top isShown
  obtain ⟨isOpaque, marked⟩ := isDir rfl
  have whFile :
      ∀ {layerIdx}, disk.objAt layerIdx path (whName name) ≠ none →
        markAt env disk path name layerIdx = some .whiteout := by
    intro layerIdx held
    unfold markAt verdictAt
    rw [if_pos (Option.isSome_iff_ne_none.mpr held)]
  have heldTop : disk.objAt top path name ≠ none := held_of_marked marked
  have topMember : top ∈ (stack env disk).dirs path := by
    rw [parts]
    simp
  rw [← parent] at lastHeld
  refine layersRead_append plain proper List.pairwise_lt_range ?_ lastHeld ?_ ?_
  · rintro layerIdx member rfl lacks
    obtain ⟨st, answer, -⟩ := tidy.statat_root (List.mem_range.mp member)
    unfold Disk.Lacks at lacks
    simp [answer] at lacks
  · intro layerIdx member upTo
    by_contra held
    rw [parent] at member lastHeld
    have order := (stack env disk).dirs_pairwise path
    rw [parts] at order
    have inParts := member
    rw [parts, List.mem_append, List.mem_cons] at inParts
    rcases inParts with early | rfl | late
    · have unmarked := passed layerIdx early
      rw [show (stack env disk).mark path name layerIdx = _ from whFile held]
        at unmarked
      cases unmarked
    · rw [show (stack env disk).mark path name layerIdx = _ from whFile held]
        at marked
      cases marked
    · have below : top < layerIdx :=
        (List.pairwise_cons.mp (List.pairwise_append.mp order).2.1).1
          layerIdx late
      exact lastHeld.2.1 (tidy.hidden path name top layerIdx last plain
        topMember member lastHeld.1 below upTo ⟨isOpaque, marked⟩ held)
  · rintro rfl
    rw [parent] at lastHeld
    have zero : top = 0 :=
      Nat.le_zero.mp (lastHeld.2.2 top topMember heldTop)
    rw [zero] at isShown
    refine (tidy.alone path name plain isShown ?_).imp_right ?_
    · intro layerIdx member above
      by_contra held
      have bounded := lastHeld.2.2 layerIdx member held
      omega
    · exact fun lacks layerIdx member above =>
        lacks layerIdx (List.mem_range.mp member) above

end Daemon

end FuseOverlay
