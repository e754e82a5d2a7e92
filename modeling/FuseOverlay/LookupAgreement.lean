import FuseOverlay.Loading
import FuseOverlay.Sample

namespace FuseOverlay

/-!
# Lazy lookup against full loading

Both layer loops look for the first layer that decides a name.  The lookup asks
every layer up to the cached index of the parent; the load ends before a layer
in which the directory is no directory and after one in which it is opaque.  So
the two agree unless that first layer lies behind such a cut, or the load does
not learn the type, or the load passes over a `.wh.` file that the lookup
heeds.
-/

open Act (Keeps Holds)

open Syscall Whiteout

/-- What one layer says of a name. -/
inductive Verdict where
  | silent
  | whiteout
  | object (isDir : Bool)
  deriving DecidableEq

/-- The verdict of a layer, as the lazy lookup asks for it. -/
def verdictAt
    (disk : Disk)
    (path : Path)
    (name : Name)
    (layerIdx : Nat) :
    Verdict :=
  if (disk.objAt layerIdx path (whName name)).isSome then .whiteout
  else
    match disk.objAt layerIdx path name with
    | none => .silent
    | some obj =>
        if obj.isWhiteoutDev then .whiteout
        else .object (obj.kind = .dir)

/-- The first verdict up to the layer the loop stops at. -/
def lazyOutcome
    (disk : Disk)
    (path : Path)
    (name : Name)
    (lastLayerIdx : Nat) :
    List Nat → Option (Nat × Bool)
  | [] => none
  | layerIdx :: rest =>
      match verdictAt disk path name layerIdx with
      | .whiteout => none
      | .object isDir => some (layerIdx, isDir)
      | .silent =>
          if Daemon.stopsAt (some lastLayerIdx) layerIdx then none
          else lazyOutcome disk path name lastLayerIdx rest

/-! ## One layer in the record -/

namespace Ledger

variable
  {env : Env}
  {disk : Disk}
  {path : Path}
  {name : Name}
  {layerIdx : Nat}
  {ledger : Ledger}

/-- A name that is neither special nor a `.wh.` name. -/
def Plain (name : Name) : Prop :=
  name ≠ dotName ∧ name ≠ dotDotName ∧ hasWhPrefix name = false

theorem Plain.not_skipped
    (plain : Plain name) :
    isSkipped name = false := by
  obtain ⟨notDot, notDotDot, notPrefixed⟩ := plain
  have notOpaque : name ≠ opaqueWhiteout := by
    rintro rfl
    have prefixed : hasWhPrefix opaqueWhiteout = true := by decide
    rw [prefixed] at notPrefixed
    cases notPrefixed
  simp [isSkipped, notDot, notDotDot, notOpaque]

theorem Plain.whName_ne
    (plain : Plain name) :
    whName name ≠ opaqueWhiteout := by
  intro same
  have shape : opaqueWhiteout = whName (ascii ".wh..opq") := by decide
  rw [shape] at same
  rw [whName_injective same] at plain
  exact absurd plain.2.2 (by decide)

theorem taken_eq_false
    (noChild : ledger.child name = none)
    (noWhite : ledger.white name = false) :
    ledger.taken name = false := by
  simp [taken, noChild, noWhite]

/-- A layer that is silent leaves the name free. -/
theorem free_of_silent
    (free : ledger.taken name = false)
    (silent : verdictAt disk path name layerIdx = .silent) :
    (ledger.add layerIdx (listingAt env disk layerIdx path)).taken name =
      false := by
  unfold verdictAt at silent
  split at silent
  · cases silent
  · next noWhFile =>
      split at silent
      · next noObj =>
          refine taken_eq_false ?_ ?_
          · rw [child_add_of_free free]
            simp [shown, listingAt, noObj]
          · rw [white_add_of_free free]
            simp only [Bool.not_eq_true, Option.isSome_eq_false_iff,
              Option.isNone_iff_eq_none] at noWhFile
            simp [listingAt, noObj, noWhFile]
      · split at silent <;> cases silent

/-- An object that a layer shows becomes the child. -/
theorem child_of_object
    (plain : Plain name)
    (free : ledger.taken name = false)
    {isDir : Bool}
    (object : verdictAt disk path name layerIdx = .object isDir) :
    (ledger.add layerIdx (listingAt env disk layerIdx path)).child name =
      some (.new layerIdx (isDir
        && (!env.config.fastInoCheck || reportsType env layerIdx))) := by
  unfold verdictAt at object
  split at object
  · cases object
  · next noWhFile =>
      split at object
      · cases object
      · next obj found =>
          split at object
          · cases object
          · next notDevice =>
              cases object
              simp only [Bool.not_eq_true] at noWhFile notDevice
              rw [child_add_of_free free]
              simp [shown, plain.not_skipped, plain.2.2, listingAt, noWhFile,
                found, itemOf, notDevice]

/-- A name that a layer holds and hides is whited out. -/
theorem white_of_hidden
    (plain : Plain name)
    (free : ledger.taken name = false)
    {obj : Obj}
    (found : disk.objAt layerIdx path name = some obj)
    (hidden : verdictAt disk path name layerIdx = .whiteout) :
    (ledger.add layerIdx (listingAt env disk layerIdx path)).child name =
        none ∧
      (ledger.add layerIdx (listingAt env disk layerIdx path)).white name =
        true := by
  have isMasked :
      masked (listingAt env disk layerIdx path) name = true := by
    unfold verdictAt at hidden
    simp only [found] at hidden
    split at hidden
    · next whFile =>
        simp [masked, plain.not_skipped, listingAt, whFile]
    · split at hidden
      · next device =>
          simp [masked, plain.not_skipped, plain.2.2, listingAt, found,
            itemOf, device]
      · cases hidden
  refine ⟨?_, ?_⟩
  · rw [child_add_of_free free, Scanned.shown_eq_none_of_masked isMasked]
    rfl
  · rw [white_add_of_free free, isMasked]
    simp [listingAt, found]

/-- A `.wh.` file alone whites the name out when it is heeded. -/
theorem white_of_heeded
    (free : ledger.taken name = false)
    (whFile : (disk.objAt layerIdx path (whName name)).isSome = true)
    (isHeeded :
      heeded (listingAt env disk layerIdx path) ledger name = true) :
    (ledger.add layerIdx (listingAt env disk layerIdx path)).child name =
        none ∧
      (ledger.add layerIdx (listingAt env disk layerIdx path)).white name =
        true := by
  have listed :
      (listingAt env disk layerIdx path (whName name)).isSome = true := by
    simpa [listingAt] using whFile
  refine ⟨?_, ?_⟩
  · rw [child_add_of_free free, Scanned.shown_eq_none_of_whFile listed]
    rfl
  · rw [white_add_of_free free, isHeeded, listed]
    simp

/-- A layer without the name and without a `.wh.` file that is heeded. -/
theorem free_of_unheld
    (free : ledger.taken name = false)
    (unheld : disk.objAt layerIdx path name = none)
    (unheeded :
      (disk.objAt layerIdx path (whName name)).isSome = true →
        heeded (listingAt env disk layerIdx path) ledger name = false) :
    (ledger.add layerIdx (listingAt env disk layerIdx path)).taken name =
      false := by
  apply taken_eq_false
  · rw [child_add_of_free free]
    simp [shown, listingAt, unheld]
  · rw [white_add_of_free free]
    cases whFile : (disk.objAt layerIdx path (whName name)).isSome with
    | true =>
        rw [unheeded whFile]
        simp [listingAt, unheld]
    | false =>
        simp [listingAt, unheld, whFile]

/-- The type and the first layer of a child. -/
def view
    (ledger : Ledger)
    (name : Name) :
    Option (Nat × Bool) :=
  (ledger.child name).map fun found => (found.layerIdx, found.isDir)

theorem view_of_free
    (free : ledger.taken name = false) :
    ledger.view name = none := by
  rw [view, Scanned.child_eq_none free]
  rfl

/-- What is recorded stays. -/
theorem view_add_of_taken
    (isTaken : ledger.taken name = true)
    (listing : Listing) :
    (ledger.add layerIdx listing).taken name = true ∧
      (ledger.add layerIdx listing).view name = ledger.view name := by
  have child := child_add_of_taken isTaken layerIdx listing
  have white := white_add_of_taken isTaken layerIdx listing
  unfold taken view at *
  rw [child, white]
  cases shape : ledger.child name with
  | none =>
      simpa [shape] using isTaken
  | some found =>
      split <;> simp [Found.seen]

theorem view_addLayers_of_taken
    (isTaken : ledger.taken name = true)
    (layers : List Nat) :
    (Daemon.addLayers env disk path ledger layers).view name =
      ledger.view name := by
  induction layers generalizing ledger with
  | nil =>
      rfl
  | cons layerIdx rest inductionHypothesis =>
      obtain ⟨stillTaken, sameView⟩ := @view_add_of_taken name layerIdx ledger
        isTaken (listingAt env disk layerIdx path)
      exact (inductionHypothesis stillTaken).trans sameView

/-- A `.wh.` file that is not heeded blocks the later ones. -/
theorem blocked_of_unheeded
    (plain : Plain name)
    (whFile : (disk.objAt layerIdx path (whName name)).isSome = true)
    (unheeded :
      heeded (listingAt env disk layerIdx path) ledger name = false) :
    (ledger.add layerIdx (listingAt env disk layerIdx path)).taken
      (whName name) = true := by
  cases free : ledger.taken (whName name) with
  | true =>
      exact (view_add_of_taken free _).1
  | false =>
      have again :
          (listingAt env disk layerIdx path
            (whName (whName name))).isSome = true := by
        simpa [heeded, plain.whName_ne, free] using unheeded
      have white :
          (ledger.add layerIdx (listingAt env disk layerIdx path)).white
            (whName name) = true := by
        rw [white_add_of_free free]
        have listed :
            (listingAt env disk layerIdx path (whName name)).isSome =
              true := by
          simpa [listingAt] using whFile
        simp [masked, Scanned.not_skipped_whName plain.whName_ne, listed,
          again]
      simp [taken, white]

theorem unheeded_of_blocked
    (blocked : ledger.taken (whName name) = true)
    (listing : Listing) :
    heeded listing ledger name = false := by
  simp [heeded, blocked]

end Ledger

/-! ## The layers that a load reads -/

namespace Daemon

variable
  (env : Env)
  (disk : Disk)
  (path : Path)

/-- Whether the layer loop of the load goes on behind a layer. -/
def goesOn
    (lastLayerStop : Option Nat)
    (layerIdx : Nat) : Bool :=
  !stopsAt lastLayerStop layerIdx
    && match disk.placeAt (.layer layerIdx) path with
      | .missing => true
      | .notDir => false
      | .dir _ => !opaqueAt env disk layerIdx path

variable {env disk path}

theorem readLayers_append
    {lastLayerStop : Option Nat}
    {before : List Nat}
    (passed : ∀ idx ∈ before, goesOn env disk path lastLayerStop idx = true)
    (rest : List Nat) :
    readLayers env disk path lastLayerStop (before ++ rest) =
      readLayers env disk path lastLayerStop before ++
        readLayers env disk path lastLayerStop rest := by
  induction before with
  | nil =>
      rfl
  | cons layerIdx others inductionHypothesis =>
      have here := passed layerIdx (by simp)
      have later := inductionHypothesis fun idx member =>
        passed idx (by simp [member])
      unfold goesOn at here
      simp only [Bool.and_eq_true, Bool.not_eq_true'] at here
      obtain ⟨noStop, atPlace⟩ := here
      simp only [List.cons_append, readLayers]
      cases place : disk.placeAt (.layer layerIdx) path with
      | missing =>
          simp [noStop, later]
      | notDir =>
          simp [place] at atPlace
      | dir loc =>
          simp only [place, Bool.not_eq_true'] at atPlace
          simp [noStop, atPlace, later]

theorem readLayers_append_cut
    {lastLayerStop : Option Nat}
    {before : List Nat}
    {cut : Nat}
    (member : cut ∈ before)
    (ends : goesOn env disk path lastLayerStop cut = false)
    (rest : List Nat) :
    readLayers env disk path lastLayerStop (before ++ rest) =
      readLayers env disk path lastLayerStop before := by
  induction before with
  | nil =>
      cases member
  | cons layerIdx others inductionHypothesis =>
      simp only [List.cons_append, readLayers]
      rcases List.mem_cons.mp member with rfl | later
      · simp only [goesOn, Bool.and_eq_false_iff, Bool.not_eq_false'] at ends
        cases place : disk.placeAt (.layer cut) path with
        | missing =>
            simp only [place, Bool.true_eq_false, or_false] at ends
            simp [ends]
        | notDir =>
            rfl
        | dir loc =>
            simp only [place, Bool.not_eq_false'] at ends
            have stops :
                (stopsAt lastLayerStop cut
                  || opaqueAt env disk cut path) = true := by
              simpa using ends
            simp [stops]
      · rw [inductionHypothesis later]

theorem mem_of_mem_readLayers
    {lastLayerStop : Option Nat}
    {layers : List Nat}
    {layerIdx : Nat}
    (member : layerIdx ∈ readLayers env disk path lastLayerStop layers) :
    layerIdx ∈ layers := by
  induction layers with
  | nil =>
      cases member
  | cons first rest inductionHypothesis =>
      unfold readLayers at member
      split at member
      · split at member
        · cases member
        · exact List.mem_cons_of_mem _ (inductionHypothesis member)
      · cases member
      · rcases List.mem_cons.mp member with rfl | member
        · exact List.mem_cons_self
        · split at member
          · cases member
          · exact List.mem_cons_of_mem _ (inductionHypothesis member)

/-- Layers that are silent leave the name free. -/
theorem free_addLayers
    {name : Name}
    {ledger : Ledger}
    (free : ledger.taken name = false)
    (layers : List Nat)
    (silent : ∀ idx ∈ layers, verdictAt disk path name idx = .silent) :
    (addLayers env disk path ledger layers).taken name = false := by
  induction layers generalizing ledger with
  | nil =>
      exact free
  | cons layerIdx rest inductionHypothesis =>
      exact inductionHypothesis
        (Ledger.free_of_silent free (silent layerIdx (by simp)))
        fun idx member => silent idx (by simp [member])

/-! ## Where the two differ -/

variable (env disk path)

/-- The load reads the directory of a layer. -/
def Reached
    (lastLayerIdx layerIdx : Nat) : Prop :=
  (∃ loc, disk.placeAt (.layer layerIdx) path = .dir loc) ∧
    ∀ idx < layerIdx, goesOn env disk path (some lastLayerIdx) idx = true

/-- The first layer with a verdict, up to the cached index. -/
def Decides
    (name : Name)
    (lastLayerIdx layerIdx : Nat) : Prop :=
  verdictAt disk path name layerIdx ≠ .silent ∧
    ∀ idx < layerIdx, verdictAt disk path name idx = .silent ∧
      stopsAt (some lastLayerIdx) idx = false

/-- The three ways in which the load misses what the lookup finds. -/
inductive Differs
    (ledger : Ledger)
    (name : Name)
    (lastLayerIdx layerIdx : Nat) : Prop where
  /-- The object lies behind a cut. -/
  | beyond {isDir : Bool}
      (object : verdictAt disk path name layerIdx = .object isDir)
      (unread : ¬ Reached env disk path lastLayerIdx layerIdx)
  /-- A directory whose type the load does not learn. -/
  | untyped
      (object : verdictAt disk path name layerIdx = .object true)
      (reached : Reached env disk path lastLayerIdx layerIdx)
      (fast : env.config.fastInoCheck = true)
      (unknown : reportsType env layerIdx = false)
  /-- A `.wh.` file that the load passes over, above an object. -/
  | reopened {later : Nat} {isDir : Bool}
      (reached : Reached env disk path lastLayerIdx layerIdx)
      (whFile : (disk.objAt layerIdx path (whName name)).isSome = true)
      (alone : disk.objAt layerIdx path name = none)
      (unheeded :
        Ledger.heeded (listingAt env disk layerIdx path)
          (addLayers env disk path ledger
            (readLayers env disk path (some lastLayerIdx)
              (List.range layerIdx))) name = false)
      (below : layerIdx < later)
      (inRange : later < env.layers.length)
      (laterReached : Reached env disk path lastLayerIdx later)
      (object : verdictAt disk path name later = .object isDir)
      (between :
        ∀ idx, layerIdx < idx → idx < later →
          disk.objAt idx path name = none)

variable {env disk path} {name : Name} {ledger : Ledger}

/-- A layer without the directory says nothing. -/
theorem objAt_of_missing
    {layerIdx : Nat}
    (rooted : path = [] → disk.placeAt (.layer layerIdx) path ≠ .missing)
    (proper : Disk.Proper path)
    (place : disk.placeAt (.layer layerIdx) path = .missing)
    (query : Name) :
    disk.objAt layerIdx path query = none := by
  rcases Disk.openDir_of_missing proper place with isRoot | ⟨errno, failed⟩
  · exact absurd place (rooted isRoot)
  · simp [Disk.objAt, Disk.dirAt, failed, Except.toOption]

theorem verdictAt_of_unheld
    {layerIdx : Nat}
    {isDir : Bool}
    (unheld : disk.objAt layerIdx path name = none) :
    verdictAt disk path name layerIdx ≠ .object isDir := by
  unfold verdictAt
  rw [unheld]
  split <;> simp

theorem verdictAt_of_held
    {layerIdx : Nat}
    {obj : Obj}
    (held : disk.objAt layerIdx path name = some obj) :
    verdictAt disk path name layerIdx = .whiteout ∨
      ∃ isDir, verdictAt disk path name layerIdx = .object isDir := by
  unfold verdictAt
  rw [held]
  split
  · exact .inl rfl
  · simp only
    split
    · exact .inl rfl
    · exact .inr ⟨_, rfl⟩

/-- Behind a layer that shows an object. -/
theorem view_behind_object
    (plain : Ledger.Plain name)
    (free : ledger.taken name = false)
    {layerIdx : Nat}
    {isDir : Bool}
    (object : verdictAt disk path name layerIdx = .object isDir)
    (layers : List Nat) :
    (addLayers env disk path
        (ledger.add layerIdx (listingAt env disk layerIdx path)) layers).view
          name =
      some (layerIdx, isDir
        && (!env.config.fastInoCheck || reportsType env layerIdx)) := by
  have isChild := @Ledger.child_of_object env disk path name layerIdx ledger
    plain free isDir object
  rw [Ledger.view_addLayers_of_taken (by simp [Ledger.taken, isChild]),
    Ledger.view, isChild]
  rfl

/-- Behind a layer that holds the name and hides it. -/
theorem view_behind_hidden
    (plain : Ledger.Plain name)
    (free : ledger.taken name = false)
    {layerIdx : Nat}
    {obj : Obj}
    (held : disk.objAt layerIdx path name = some obj)
    (hidden : verdictAt disk path name layerIdx = .whiteout)
    (layers : List Nat) :
    (addLayers env disk path
        (ledger.add layerIdx (listingAt env disk layerIdx path)) layers).view
          name = none := by
  obtain ⟨noChild, isWhite⟩ := @Ledger.white_of_hidden env disk path name
    layerIdx ledger plain free obj held hidden
  rw [Ledger.view_addLayers_of_taken (by simp [Ledger.taken, isWhite]),
    Ledger.view, noChild]
  rfl

/-- Behind a layer with a `.wh.` file that is heeded. -/
theorem view_behind_heeded
    (free : ledger.taken name = false)
    {layerIdx : Nat}
    (whFile : (disk.objAt layerIdx path (whName name)).isSome = true)
    (isHeeded :
      Ledger.heeded (listingAt env disk layerIdx path) ledger name = true)
    (layers : List Nat) :
    (addLayers env disk path
        (ledger.add layerIdx (listingAt env disk layerIdx path)) layers).view
          name = none := by
  obtain ⟨noChild, isWhite⟩ := @Ledger.white_of_heeded env disk path name
    layerIdx ledger free whFile isHeeded
  rw [Ledger.view_addLayers_of_taken (by simp [Ledger.taken, isWhite]),
    Ledger.view, noChild]
  rfl

/-- The first layer that holds the name is read and shows an object. -/
def Uncovers
    (env : Env)
    (disk : Disk)
    (path : Path)
    (name : Name)
    (lastLayerStop : Option Nat) :
    List Nat → Prop
  | [] => False
  | layerIdx :: rest =>
      ((∃ loc, disk.placeAt (.layer layerIdx) path = .dir loc) ∧
        ∃ isDir, verdictAt disk path name layerIdx = .object isDir) ∨
      (goesOn env disk path lastLayerStop layerIdx = true ∧
        disk.objAt layerIdx path name = none ∧
        Uncovers env disk path name lastLayerStop rest)

/-- The layers behind a `.wh.` file that was passed over. -/
theorem view_of_blocked
    (plain : Ledger.Plain name)
    (free : ledger.taken name = false)
    (blocked : ledger.taken (whName name) = true)
    (lastLayerStop : Option Nat)
    (layers : List Nat)
    (unheld :
      ∀ idx ∈ layers, disk.placeAt (.layer idx) path = .missing →
        disk.objAt idx path name = none) :
    (addLayers env disk path ledger
        (readLayers env disk path lastLayerStop layers)).view name ≠ none ↔
      Uncovers env disk path name lastLayerStop layers := by
  induction layers generalizing ledger with
  | nil =>
      simp [readLayers, Ledger.view_of_free free, Uncovers]
  | cons layerIdx rest inductionHypothesis =>
      have ended : ledger.view name = none := Ledger.view_of_free free
      have restUnheld := fun idx member =>
        unheld idx (List.mem_cons_of_mem layerIdx member)
      simp only [readLayers, Uncovers, goesOn]
      cases place : disk.placeAt (.layer layerIdx) path with
      | missing =>
          have absent := unheld layerIdx (by simp) place
          cases stopsAt lastLayerStop layerIdx with
          | true =>
              simp [ended]
          | false =>
              simpa [absent] using
                inductionHypothesis free blocked restUnheld
      | notDir =>
          simp [ended]
      | dir loc =>
          simp only [addLayers_cons]
          cases held : disk.objAt layerIdx path name with
          | none =>
              have stillFree := @Ledger.free_of_unheld env disk path name
                layerIdx ledger free held
                fun _ => Ledger.unheeded_of_blocked blocked _
              have stillBlocked := (@Ledger.view_add_of_taken (whName name)
                layerIdx ledger blocked
                (listingAt env disk layerIdx path)).1
              have noObject := fun isDir =>
                @verdictAt_of_unheld disk path name layerIdx isDir held
              have later := inductionHypothesis stillFree stillBlocked
                restUnheld
              cases stopsAt lastLayerStop layerIdx with
              | true =>
                  simp [noObject, Ledger.view_of_free stillFree]
              | false =>
                  cases opaqueAt env disk layerIdx path with
                  | true =>
                      simp [noObject, Ledger.view_of_free stillFree]
                  | false =>
                      simpa [noObject] using later
          | some obj =>
              rcases verdictAt_of_held held with hidden | ⟨isDir, object⟩
              · rw [view_behind_hidden plain free held hidden]
                simp [hidden]
              · rw [view_behind_object plain free object]
                simp [object]

theorem uncovers_range
    (lastLayerStop : Option Nat)
    (start count : Nat) :
    Uncovers env disk path name lastLayerStop (List.range' start count) ↔
      ∃ later isDir, start ≤ later ∧ later < start + count ∧
        (∃ loc, disk.placeAt (.layer later) path = .dir loc) ∧
        verdictAt disk path name later = .object isDir ∧
        ∀ idx, start ≤ idx → idx < later →
          goesOn env disk path lastLayerStop idx = true ∧
            disk.objAt idx path name = none := by
  induction count generalizing start with
  | zero =>
      simp only [List.range'_zero, Uncovers, false_iff]
      rintro ⟨later, -, atLeast, below, -⟩
      omega
  | succ count inductionHypothesis =>
      rw [List.range'_succ, Uncovers, inductionHypothesis]
      constructor
      · rintro (⟨place, isDir, object⟩ |
          ⟨passes, unheld, later, isDir, atLeast, below, place, object, others⟩)
        · exact ⟨start, isDir, le_rfl, by omega, place, object,
            fun idx atLeast below => by omega⟩
        · refine ⟨later, isDir, by omega, by omega, place, object, ?_⟩
          intro idx idxAtLeast idxBelow
          by_cases first : idx = start
          · exact first ▸ ⟨passes, unheld⟩
          · exact others idx (by omega) idxBelow
      · rintro ⟨later, isDir, atLeast, below, place, object, others⟩
        by_cases first : later = start
        · exact .inl (first ▸ ⟨place, isDir, object⟩)
        · obtain ⟨passes, unheld⟩ := others start le_rfl (by omega)
          exact .inr ⟨passes, unheld, later, isDir, by omega, by omega, place,
            object, fun idx idxAtLeast idxBelow =>
              others idx (by omega) idxBelow⟩

/-! ## The first verdict -/

/-- What the lookup makes of the verdict that it ends with. -/
def verdictOutcome
    (disk : Disk)
    (path : Path)
    (name : Name)
    (layerIdx : Nat) :
    Option (Nat × Bool) :=
  match verdictAt disk path name layerIdx with
  | .object isDir => some (layerIdx, isDir)
  | _ => none

theorem lazyOutcome_of_decides
    {lastLayerIdx layerIdx : Nat}
    (decides : Decides disk path name lastLayerIdx layerIdx)
    {start count : Nat}
    (atLeast : start ≤ layerIdx)
    (below : layerIdx < start + count) :
    lazyOutcome disk path name lastLayerIdx (List.range' start count) =
      verdictOutcome disk path name layerIdx := by
  induction count generalizing start with
  | zero =>
      omega
  | succ count inductionHypothesis =>
      rw [List.range'_succ, lazyOutcome]
      by_cases first : start = layerIdx
      · subst first
        unfold verdictOutcome
        cases verdict : verdictAt disk path name start with
        | silent =>
            exact absurd verdict decides.1
        | whiteout =>
            rfl
        | object isDir =>
            rfl
      · obtain ⟨silent, noStop⟩ := decides.2 start (by omega)
        rw [silent]
        simp only [noStop, Bool.false_eq_true, ↓reduceIte]
        exact inductionHypothesis (by omega) (by omega)

theorem lazyOutcome_of_undecided
    {lastLayerIdx : Nat}
    {start count : Nat}
    (before :
      ∀ idx < start, verdictAt disk path name idx = .silent ∧
        stopsAt (some lastLayerIdx) idx = false)
    (undecided :
      ∀ idx < start + count, ¬ Decides disk path name lastLayerIdx idx) :
    lazyOutcome disk path name lastLayerIdx (List.range' start count) =
        none ∧
      ∃ cut ≤ start + count,
        (∀ idx < cut, verdictAt disk path name idx = .silent) ∧
        (cut = start + count ∨
          ∃ idx < cut, stopsAt (some lastLayerIdx) idx = true) := by
  induction count generalizing start with
  | zero =>
      exact ⟨rfl, start, le_rfl, fun idx below => (before idx below).1,
        .inl rfl⟩
  | succ count inductionHypothesis =>
      rw [List.range'_succ, lazyOutcome]
      have silent : verdictAt disk path name start = .silent := by
        by_contra speaks
        exact undecided start (by omega) ⟨speaks, before⟩
      rw [silent]
      cases stops : stopsAt (some lastLayerIdx) start with
      | true =>
          refine ⟨rfl, start + 1, by omega, ?_, .inr ⟨start, by omega, stops⟩⟩
          intro idx below
          by_cases last : idx = start
          · exact last ▸ silent
          · exact (before idx (by omega)).1
      | false =>
          have later := @inductionHypothesis (start + 1) ?_ ?_
          · rw [show start + 1 + count = start + (count + 1) by omega] at later
            exact later
          · intro idx below
            by_cases last : idx = start
            · exact last ▸ ⟨silent, stops⟩
            · exact before idx (by omega)
          · intro idx below
            exact undecided idx (by omega)

/-! ## The two outcomes -/

/-- The record that a load leaves. -/
def loadedLedger
    (env : Env)
    (disk : Disk)
    (path : Path)
    (lastLayerIdx : Nat)
    (ledger : Ledger) :
    Ledger :=
  addLayers env disk path ledger
    (readLayers env disk path (some lastLayerIdx) (layerIndices env))

theorem layerIndices_split
    {layerIdx : Nat}
    (below : layerIdx < env.layers.length) :
    layerIndices env =
      List.range layerIdx ++ layerIdx ::
        List.range' (layerIdx + 1) (env.layers.length - (layerIdx + 1)) := by
  rw [← List.range'_succ, layerIndices, List.range_eq_range',
    List.range_eq_range']
  have joined := @List.range'_append 0 layerIdx
    (env.layers.length - (layerIdx + 1) + 1) 1
  rw [Nat.one_mul, Nat.zero_add] at joined
  rw [joined]
  congr 1
  omega

variable
  (unheld :
    ∀ idx < env.layers.length,
      disk.placeAt (.layer idx) path = .missing →
        ∀ query, disk.objAt idx path query = none)
  (plain : Ledger.Plain name)
  (free : ledger.taken name = false)
  {lastLayerIdx layerIdx : Nat}
  (below : layerIdx < env.layers.length)
  (decides : Decides disk path name lastLayerIdx layerIdx)

include free in
theorem free_before
    (silent : ∀ idx < layerIdx, verdictAt disk path name idx = .silent) :
    (addLayers env disk path ledger
      (readLayers env disk path (some lastLayerIdx)
        (List.range layerIdx))).taken name = false :=
  free_addLayers free _ fun idx member =>
    silent idx (List.mem_range.mp (mem_of_mem_readLayers member))

include unheld free below decides in
/-- The load does not find a name behind a cut. -/
theorem view_of_unread
    (unread : ¬ Reached env disk path lastLayerIdx layerIdx) :
    (loadedLedger env disk path lastLayerIdx ledger).view name = none := by
  have before := @free_before env disk path name ledger free lastLayerIdx
    layerIdx fun idx earlier => (decides.2 idx earlier).1
  unfold loadedLedger
  rw [layerIndices_split below]
  by_cases passed :
      ∀ idx < layerIdx, goesOn env disk path (some lastLayerIdx) idx = true
  · rw [readLayers_append fun idx member =>
      passed idx (List.mem_range.mp member), addLayers_append, readLayers]
    cases place : disk.placeAt (.layer layerIdx) path with
    | missing =>
        have silent : verdictAt disk path name layerIdx = .silent := by
          simp [verdictAt, unheld layerIdx below place]
        exact absurd silent decides.1
    | notDir =>
        exact Ledger.view_of_free before
    | dir loc =>
        exact absurd ⟨⟨loc, place⟩, passed⟩ unread
  · push Not at passed
    obtain ⟨cut, earlier, ends⟩ := passed
    rw [ne_eq, Bool.not_eq_true] at ends
    rw [readLayers_append_cut (List.mem_range.mpr earlier) ends]
    exact Ledger.view_of_free before

include below in
/-- The layers that are read, split at one of them. -/
theorem loadedLedger_of_reached
    (reached : Reached env disk path lastLayerIdx layerIdx) :
    loadedLedger env disk path lastLayerIdx ledger =
      addLayers env disk path
        ((addLayers env disk path ledger
            (readLayers env disk path (some lastLayerIdx)
              (List.range layerIdx))).add layerIdx
          (listingAt env disk layerIdx path))
        (if goesOn env disk path (some lastLayerIdx) layerIdx then
          readLayers env disk path (some lastLayerIdx)
            (List.range' (layerIdx + 1)
              (env.layers.length - (layerIdx + 1)))
        else []) := by
  obtain ⟨⟨loc, place⟩, passed⟩ := reached
  unfold loadedLedger
  rw [layerIndices_split below, readLayers_append fun idx member =>
    passed idx (List.mem_range.mp member), addLayers_append, readLayers, place]
  simp only [addLayers_cons, goesOn, place]
  cases stopsAt (some lastLayerIdx) layerIdx <;>
    cases opaqueAt env disk layerIdx path <;> rfl

include unheld plain free below decides in
/-- A `.wh.` file that the load passes over. -/
theorem view_of_unheeded
    (reached : Reached env disk path lastLayerIdx layerIdx)
    (whFile : (disk.objAt layerIdx path (whName name)).isSome = true)
    (alone : disk.objAt layerIdx path name = none)
    (unheeded :
      Ledger.heeded (listingAt env disk layerIdx path)
        (addLayers env disk path ledger
          (readLayers env disk path (some lastLayerIdx)
            (List.range layerIdx))) name = false) :
    (loadedLedger env disk path lastLayerIdx ledger).view name ≠ none ↔
      Differs env disk path ledger name lastLayerIdx layerIdx := by
  have before := @free_before env disk path name ledger free lastLayerIdx
    layerIdx fun idx earlier => (decides.2 idx earlier).1
  have nowFree := Ledger.free_of_unheld before alone fun _ => unheeded
  have nowBlocked := Ledger.blocked_of_unheeded plain whFile unheeded
  rw [loadedLedger_of_reached below reached]
  cases passes : goesOn env disk path (some lastLayerIdx) layerIdx with
  | false =>
      simp only [Bool.false_eq_true, ↓reduceIte, addLayers_nil, ne_eq,
        Ledger.view_of_free nowFree, not_true_eq_false, false_iff]
      intro differs
      cases differs with
      | beyond object unread =>
          exact unread reached
      | untyped object =>
          exact verdictAt_of_unheld alone object
      | reopened _ _ _ _ later _ laterReached =>
          rw [laterReached.2 layerIdx later] at passes
          cases passes
  | true =>
      simp only [↓reduceIte]
      rw [view_of_blocked plain nowFree nowBlocked (some lastLayerIdx) _
        fun idx member place => unheld idx (by
          have inRange := List.mem_range'_1.mp member
          omega) place name, uncovers_range]
      constructor
      · rintro ⟨later, isDir, atLeast, laterBelow, place, object, others⟩
        have laterReached : Reached env disk path lastLayerIdx later := by
          refine ⟨place, fun idx earlier => ?_⟩
          rcases Nat.lt_trichotomy idx layerIdx with first | rfl | behind
          · exact reached.2 idx first
          · exact passes
          · exact (others idx behind earlier).1
        exact .reopened reached whFile alone unheeded atLeast (by omega)
          laterReached object fun idx behind earlier =>
            (others idx behind earlier).2
      · intro differs
        cases differs with
        | beyond object unread =>
            exact absurd reached unread
        | untyped object =>
            exact absurd object (verdictAt_of_unheld alone)
        | @reopened later isDir _ _ _ _ behind inRange laterReached object
            between =>
            exact ⟨later, isDir, behind, by omega, laterReached.1, object,
              fun idx atLeast earlier =>
                ⟨laterReached.2 idx earlier, between idx atLeast earlier⟩⟩

include unheld plain free below decides in
/-- The two outcomes at the deciding layer. -/
theorem agrees_of_decides :
    verdictOutcome disk path name layerIdx =
        (loadedLedger env disk path lastLayerIdx ledger).view name ↔
      ¬ Differs env disk path ledger name lastLayerIdx layerIdx := by
  have before := @free_before env disk path name ledger free lastLayerIdx
    layerIdx fun idx earlier => (decides.2 idx earlier).1
  by_cases reached : Reached env disk path lastLayerIdx layerIdx
  · cases verdict : verdictAt disk path name layerIdx with
    | silent =>
        exact absurd verdict decides.1
    | object isDir =>
        rw [loadedLedger_of_reached below reached,
          view_behind_object plain before verdict]
        simp only [verdictOutcome, verdict, Option.some.injEq, Prod.mk.injEq,
          true_and]
        constructor
        · intro same differs
          cases differs with
          | beyond _ unread =>
              exact unread reached
          | untyped object _ fast unknown =>
              rw [verdict] at object
              cases object
              simp [fast, unknown] at same
          | reopened _ _ alone =>
              exact verdictAt_of_unheld alone verdict
        · intro agrees
          cases isDir with
          | false =>
              rfl
          | true =>
              by_contra unequal
              have bothFail :
                  env.config.fastInoCheck = true ∧
                    reportsType env layerIdx = false := by
                simpa using unequal
              exact agrees (.untyped verdict reached bothFail.1 bothFail.2)
    | whiteout =>
        simp only [verdictOutcome, verdict]
        have noObject :
            ∀ {isDir}, verdictAt disk path name layerIdx ≠ .object isDir := by
          simp [verdict]
        cases held : disk.objAt layerIdx path name with
        | some obj =>
            rw [loadedLedger_of_reached below reached,
              view_behind_hidden plain before held verdict]
            simp only [true_iff]
            intro differs
            cases differs with
            | beyond object => exact noObject object
            | untyped object => exact noObject object
            | reopened _ _ alone =>
                rw [held] at alone
                cases alone
        | none =>
            have whFile :
                (disk.objAt layerIdx path (whName name)).isSome = true := by
              unfold verdictAt at verdict
              split at verdict
              · assumption
              · rw [held] at verdict
                cases verdict
            cases isHeeded : Ledger.heeded (listingAt env disk layerIdx path)
                (addLayers env disk path ledger
                  (readLayers env disk path (some lastLayerIdx)
                    (List.range layerIdx))) name with
            | true =>
                rw [loadedLedger_of_reached below reached,
                  view_behind_heeded before whFile isHeeded]
                simp only [true_iff]
                intro differs
                cases differs with
                | beyond object => exact noObject object
                | untyped object => exact noObject object
                | reopened _ _ _ unheeded =>
                    rw [isHeeded] at unheeded
                    cases unheeded
            | false =>
                have shows := view_of_unheeded unheld plain free below decides
                  reached whFile held isHeeded
                rw [← shows, not_not]
                exact eq_comm
  · rw [view_of_unread unheld free below decides reached]
    unfold verdictOutcome
    constructor
    · intro noObject differs
      cases differs with
      | beyond object =>
          rw [object] at noObject
          cases noObject
      | untyped _ read => exact reached read
      | reopened read => exact reached read
    · intro agrees
      cases verdict : verdictAt disk path name layerIdx with
      | silent => rfl
      | whiteout => rfl
      | object isDir =>
          exact absurd (.beyond verdict reached) agrees

theorem decides_unique
    {other : Nat}
    (decides : Decides disk path name lastLayerIdx layerIdx)
    (otherDecides : Decides disk path name lastLayerIdx other) :
    other = layerIdx := by
  rcases Nat.lt_trichotomy other layerIdx with earlier | same | later
  · exact absurd (decides.2 other earlier).1 otherDecides.1
  · exact same
  · exact absurd (otherDecides.2 layerIdx later).1 decides.1

include unheld plain free in
/-- The lookup and the load agree but for the three ways to differ. -/
theorem outcomes_agree_iff :
    lazyOutcome disk path name lastLayerIdx (layerIndices env) =
        (loadedLedger env disk path lastLayerIdx ledger).view name ↔
      ¬ ∃ idx < env.layers.length, Decides disk path name lastLayerIdx idx ∧
        Differs env disk path ledger name lastLayerIdx idx := by
  by_cases decided :
      ∃ idx < env.layers.length, Decides disk path name lastLayerIdx idx
  · obtain ⟨idx, below, decides⟩ := decided
    have found := @lazyOutcome_of_decides disk path name lastLayerIdx idx
      decides 0 env.layers.length (by omega) (by omega)
    rw [layerIndices, List.range_eq_range', found,
      agrees_of_decides unheld plain free below decides]
    constructor
    · rintro agrees ⟨other, -, otherDecides, differs⟩
      rw [decides_unique decides otherDecides] at differs
      exact agrees differs
    · intro agrees differs
      exact agrees ⟨idx, below, decides, differs⟩
  · have undecided :
        ∀ idx < 0 + env.layers.length,
          ¬ Decides disk path name lastLayerIdx idx := by
      intro idx below decides
      exact decided ⟨idx, by omega, decides⟩
    obtain ⟨missed, cut, atMost, silent, ends⟩ :=
      lazyOutcome_of_undecided (by simp) undecided
    have loaded :
        (loadedLedger env disk path lastLayerIdx ledger).view name =
          none := by
      have before := @free_before env disk path name ledger free lastLayerIdx
        cut silent
      unfold loadedLedger
      rcases ends with all | ⟨idx, earlier, stops⟩
      · rw [layerIndices, show env.layers.length = cut by omega]
        exact Ledger.view_of_free before
      · have split :
            layerIndices env = List.range cut ++
              List.range' cut (env.layers.length - cut) := by
          have joined := @List.range'_append 0 cut
            (env.layers.length - cut) 1
          rw [Nat.one_mul, Nat.zero_add,
            show cut + (env.layers.length - cut) = env.layers.length by omega]
            at joined
          rw [layerIndices, List.range_eq_range', List.range_eq_range', joined]
        rw [split, readLayers_append_cut (List.mem_range.mpr earlier)
          (by simp [goesOn, stops])]
        exact Ledger.view_of_free before
    rw [layerIndices, List.range_eq_range', missed, loaded]
    simp only [true_iff]
    rintro ⟨idx, below, decides, -⟩
    exact decided ⟨idx, below, decides⟩

end Daemon

/-! ## The lazy lookup -/

/-- Layer and type of a node. -/
def OvlNode.view (node : OvlNode) : Nat × Bool :=
  (node.layerIdx, node.isDir)

theorem Ledger.Plain.whPrefixName
    {name : Name}
    (plain : Ledger.Plain name) :
    Daemon.whPrefixName name = none := by
  simp [Daemon.whPrefixName, plain.2.2]

namespace Daemon

variable
  {env : Env}
  {os : Os}
  {path : Path}
  {name : Name}
  {parentId : NodeId}
  {layerIdx : Nat}

/-- The first object is only seen again on the later layers. -/
theorem lazyLayers_found
    (noFaults : os.faults = [])
    (notDot : name ≠ dotName)
    (lastLayerIdx : Nat)
    (layers : List Nat)
    (quiet : ∀ idx ∈ layers, os.disk.Quiet (.layer idx) path)
    (child : OvlNode)
    (sys : Sys)
    (sameOs : sys.os = os) :
    ∃ found, lazyLayers env parentId path name lastLayerIdx layers
        (some child) sys = (.ok found, sys) ∧
      found.map OvlNode.view = some child.view := by
  induction layers generalizing child with
  | nil =>
      exact ⟨some child, rfl, rfl⟩
  | cons layerIdx rest inductionHypothesis =>
      have asked := (answers_statat noFaults (.layer layerIdx)
        (path ++ [name])).attempt
      rw [← sameOs] at asked
      have step :
          ∃ again stop, lazyLayer env parentId path name lastLayerIdx layerIdx
              (some child) sys = (.ok (.next (some again) stop), sys) ∧
            again.view = child.view := by
        unfold lazyLayer
        rw [Act.bind_ok asked.lift, sameOs]
        obtain ⟨isThere, isAbsent⟩ := @Disk.statat_of_objAt os.disk layerIdx
          path name notDot
        cases held : os.disk.objAt layerIdx path name with
        | some obj =>
            obtain ⟨st, answer, -⟩ := isThere obj held
            rw [answer]
            exact ⟨_, _, rfl, rfl⟩
        | none =>
            obtain ⟨errno, answer, reason⟩ := isAbsent held
            have isQuiet : errno = .ENOENT ∨ errno = .ENOTDIR := by
              rcases reason with walked | rfl
              · exact quiet layerIdx (by simp) errno walked
              · exact .inl rfl
            rw [answer]
            rcases isQuiet with rfl | rfl
            · exact ⟨child, _, rfl, rfl⟩
            · exact ⟨child, _, rfl, rfl⟩
      obtain ⟨again, stop, ran, sameView⟩ := step
      unfold lazyLayers
      rw [Act.bind_ok ran]
      cases stop with
      | true =>
          exact ⟨some again, rfl, by rw [Option.map_some, sameView]⟩
      | false =>
          rw [← sameView]
          exact inductionHypothesis
            (fun idx member => quiet idx (by simp [member])) again

/-- One turn of the layer loop before anything is found. -/
theorem lazyLayer_spec
    (noFaults : os.faults = [])
    (quiet : os.disk.Quiet (.layer layerIdx) path)
    (plain : Ledger.Plain name)
    (lastLayerIdx : Nat)
    (sys : Sys)
    (sameOs : sys.os = os) :
    ∃ step later, lazyLayer env parentId path name lastLayerIdx layerIdx none
        sys = (.ok step, later) ∧ later.os = os ∧
      match verdictAt os.disk path name layerIdx with
      | .silent => step = .next none (stopsAt (some lastLayerIdx) layerIdx)
      | .whiteout => step = .done
      | .object isDir =>
          ∃ child stop, step = .next (some child) stop ∧
            child.view = (layerIdx, isDir) := by
  have asked := (answers_statat noFaults (.layer layerIdx)
    (path ++ [name])).attempt
  have whAsked := @answers_isWhFile os layerIdx path noFaults name
  rw [← sameOs] at asked whAsked
  unfold lazyLayer
  rw [Act.bind_ok asked.lift, sameOs]
  obtain ⟨isThere, isAbsent⟩ := @Disk.statat_of_objAt os.disk layerIdx path
    name plain.1
  unfold verdictAt
  cases held : os.disk.objAt layerIdx path name with
  | none =>
      obtain ⟨errno, answer, reason⟩ := isAbsent held
      have isQuiet : errno = .ENOENT ∨ errno = .ENOTDIR := by
        rcases reason with walked | rfl
        · exact quiet errno walked
        · exact .inl rfl
      have missing :
          ∃ step later, lazyMissing parentId path name layerIdx
              (stopsAt (some lastLayerIdx) layerIdx) sys =
                (.ok step, later) ∧ later.os = os ∧
            if (os.disk.objAt layerIdx path (whName name)).isSome then
              step = .done
            else
              step = .next none (stopsAt (some lastLayerIdx) layerIdx) := by
        unfold lazyMissing
        rw [Act.bind_ok whAsked.lift, sameOs]
        cases (os.disk.objAt layerIdx path (whName name)).isSome with
        | true => exact ⟨_, _, rfl, sameOs, rfl⟩
        | false => exact ⟨_, _, rfl, sameOs, rfl⟩
      obtain ⟨step, later, ran, stillOs, stepIs⟩ := missing
      rw [answer]
      refine ⟨step, later, ?_, stillOs, ?_⟩
      · unfold stopsAt at ran
        simp only [Option.some.injEq] at ran
        rcases isQuiet with rfl | rfl
        · exact ran
        · exact ran
      · split at stepIs
        · next whFile => simpa [whFile] using stepIs
        · next noWhFile => simpa [noWhFile] using stepIs
  | some obj =>
      obtain ⟨st, answer, mode, rdev, -⟩ := isThere obj held
      rw [answer]
      simp only
      unfold lazyFound
      rw [Act.bind_ok whAsked.lift, sameOs]
      cases (os.disk.objAt layerIdx path (whName name)).isSome with
      | true =>
          exact ⟨_, _, rfl, sameOs, rfl⟩
      | false =>
          simp only [plain.whPrefixName, Bool.false_eq_true, ↓reduceIte,
            isChardevWhiteout_of_obj mode rdev]
          cases obj.isWhiteoutDev with
          | true =>
              exact ⟨_, _, rfl, sameOs, rfl⟩
          | false =>
              obtain ⟨cut, opaqueAsked, -⟩ := @answers_isDirectoryOpaque env
                os layerIdx (path ++ [name]) noFaults
              rw [← sameOs] at opaqueAsked
              have kind : st.mode.isDir = decide (obj.kind = .dir) := by
                simp [mode, Mode.isDir]
              cases isDir : st.mode.isDir with
              | true =>
                  simp only [Bool.false_eq_true, ↓reduceIte]
                  rw [Act.bind_ok opaqueAsked.lift]
                  refine ⟨_, sys, rfl, sameOs, ?_⟩
                  rw [isDir] at kind
                  simp [← kind, OvlNode.view, OvlNode.new, OvlNode.isDir]
              | false =>
                  refine ⟨_, sys, rfl, sameOs, ?_⟩
                  rw [isDir] at kind
                  simp [← kind, OvlNode.view, OvlNode.new, OvlNode.isDir]

theorem lazyLayers_spec
    (noFaults : os.faults = [])
    (plain : Ledger.Plain name)
    (lastLayerIdx : Nat)
    (layers : List Nat)
    (quiet : ∀ idx ∈ layers, os.disk.Quiet (.layer idx) path)
    (sys : Sys)
    (sameOs : sys.os = os) :
    ∃ found later, lazyLayers env parentId path name lastLayerIdx layers none
        sys = (.ok found, later) ∧
      found.map OvlNode.view =
        lazyOutcome os.disk path name lastLayerIdx layers := by
  induction layers generalizing sys with
  | nil =>
      exact ⟨none, sys, rfl, rfl⟩
  | cons layerIdx rest inductionHypothesis =>
      obtain ⟨step, later, ran, stillOs, stepIs⟩ := @lazyLayer_spec env os
        path name parentId layerIdx noFaults (quiet layerIdx (by simp)) plain
        lastLayerIdx sys sameOs
      have restQuiet : ∀ idx ∈ rest, os.disk.Quiet (.layer idx) path :=
        fun idx member => quiet idx (by simp [member])
      unfold lazyLayers lazyOutcome
      rw [Act.bind_ok ran]
      cases verdict : verdictAt os.disk path name layerIdx with
      | whiteout =>
          rw [verdict] at stepIs
          rw [stepIs]
          exact ⟨none, later, rfl, rfl⟩
      | silent =>
          rw [verdict] at stepIs
          rw [stepIs]
          cases stopsAt (some lastLayerIdx) layerIdx with
          | true => exact ⟨none, later, rfl, rfl⟩
          | false => exact inductionHypothesis restQuiet later stillOs
      | object isDir =>
          rw [verdict] at stepIs
          obtain ⟨child, stop, stepIs, childView⟩ := stepIs
          rw [stepIs]
          cases stop with
          | true =>
              exact ⟨some child, later, rfl, by rw [Option.map_some, childView]⟩
          | false =>
              obtain ⟨found, ranRest, foundView⟩ := @lazyLayers_found env os
                path name parentId noFaults plain.1 lastLayerIdx rest restQuiet
                child later stillOs
              exact ⟨found, later, ranRest, by rw [foundView, childView]⟩

/-- Layer and type of the node that a lookup returns. -/
def lookupView
    (answer : Except Errno (Option NodeId) × Sys) :
    Option (Nat × Bool) :=
  match answer.1 with
  | .ok (some id) => (answer.2.nodes.get? id).map OvlNode.view
  | _ => none

/-- Layer and type of a child of a node. -/
def childView
    (nodes : NodeArena)
    (parentId : NodeId)
    (name : Name) :
    Option (Nat × Bool) :=
  (((nodes.get? parentId).bind (·.getChild name)).bind nodes.get?).map
    OvlNode.view

theorem lookupView_doLazyLookup
    {sys : Sys}
    {parent : OvlNode}
    (stored : sys.nodes.get? parentId = some parent)
    (noFaults : sys.os.faults = [])
    (quiet :
      ∀ idx < env.layers.length,
        sys.os.disk.Quiet (.layer idx) (nodeParts sys.nodes parentId))
    (plain : Ledger.Plain name) :
    lookupView (doLazyLookup env parentId name sys) =
      lazyOutcome sys.os.disk (nodeParts sys.nodes parentId) name
        parent.lastLayerIdx (layerIndices env) := by
  obtain ⟨found, later, ran, foundView⟩ := @lazyLayers_spec env sys.os
    (nodeParts sys.nodes parentId) name parentId noFaults plain
    parent.lastLayerIdx (layerIndices env)
    (fun idx member => quiet idx (List.mem_range.mp member)) sys rfl
  have asked : getNode parentId sys = (.ok (some parent), sys) := by
    rw [← stored]
    rfl
  unfold doLazyLookup
  rw [Act.bind_ok asked]
  simp only
  rw [Act.bind_ok (show nodePath parentId sys =
    (.ok (nodeParts sys.nodes parentId), sys) from rfl), Act.bind_ok ran,
    ← foundView]
  cases found with
  | none =>
      rfl
  | some child =>
      obtain ⟨inodes, adopted, -⟩ := @adoptChild_eq env parentId child later
      simp only
      rw [adopted]
      simp only [lookupView, NodeArena.get?_modify, NodeArena.get?_insert,
        ↓reduceIte, Option.map_some]
      split
      · next isParent =>
        rw [if_pos isParent.symm, Option.map_some, Option.map_some]
        have same := OvlNode.found_insertChild child child.name
          later.nodes.nextId
        simp only [OvlNode.found, Found.mk.injEq] at same
        simp [OvlNode.view, same]
      · rfl

/-- What loading leaves under the name. -/
theorem childView_reloadDir
    {sys : Sys}
    {parent : OvlNode}
    (ok : TreeOk sys)
    (stored : sys.nodes.get? parentId = some parent)
    (isDir : parent.isDir = true)
    (unloaded : parent.isLoaded = false)
    (absent : parent.getChild name = none)
    (noFaults : sys.os.faults = [])
    (proper : Disk.Proper (nodeParts sys.nodes parentId))
    (quiet :
      ∀ idx < env.layers.length,
        sys.os.disk.Quiet (.layer idx) (nodeParts sys.nodes parentId)) :
    childView (reloadDir env parentId sys).2.nodes parentId name =
      (loadedLedger env sys.os.disk (nodeParts sys.nodes parentId)
        parent.lastLayerIdx (ledgerOf sys.nodes parent)).view name := by
  have records : Records sys.os parentId (ledgerOf sys.nodes parent) sys :=
    ⟨ok, rfl, parent, stored, isDir, recordedBy_ledgerOf sys.nodes parent⟩
  have loaded := @leaves_loadDirImpl env sys.os
    (nodeParts sys.nodes parentId) parentId _ noFaults proper
    (some parent.lastLayerIdx) quiet sys records
  have asked : getNode parentId sys = (.ok (some parent), sys) := by
    rw [← stored]
    rfl
  rcases ran : loadDirImpl env parentId (nodeParts sys.nodes parentId)
      (some parent.lastLayerIdx) sys with ⟨outcome, later⟩
  rw [ran] at loaded
  obtain ⟨rfl, recorded⟩ := loaded
  have reloaded : reloadDir env parentId sys = (.ok true, later) := by
    unfold reloadDir
    rw [Act.bind_ok asked]
    simp only [unloaded, Bool.false_eq_true, ↓reduceIte]
    rw [Act.bind_ok (show nodePath parentId sys =
      (.ok (nodeParts sys.nodes parentId), sys) from rfl), Act.bind_ok ran]
    rfl
  have grown := @still_reloadDir env parentId sys.forest sys (.refl ok)
  rw [reloaded] at grown ⊢
  obtain ⟨node, nowStored, -, recordedBy⟩ := recorded.parent
  simp only [childView, nowStored, Option.bind_some]
  have known := recordedBy.known name
  unfold loadedLedger Ledger.view
  cases isChild : node.getChild name with
  | none =>
      rw [isChild, Option.isSome_none, Option.isSome_eq_false_iff,
        Option.isNone_iff_eq_none] at known
      rw [known]
      rfl
  | some id =>
      have live : later.nodes.Live id := by
        rcases grown.1.grown.fresh ⟨node, nowStored, isChild⟩ with
          ⟨old, oldStored, oldChild⟩ | ⟨isLive, -⟩
        · change sys.nodes.get? parentId = some old at oldStored
          rw [stored] at oldStored
          cases oldStored
          rw [absent] at oldChild
          cases oldChild
        · exact isLive
      obtain ⟨below, belowStored⟩ := live
      change later.nodes.get? id = some below at belowStored
      rw [recordedBy.child isChild belowStored]
      simp [belowStored, OvlNode.found, OvlNode.view]

/-- What `do_lookup_file` asks of an unloaded directory without the name. -/
theorem doLookupFile_unloaded
    {sys : Sys}
    {parentIno : UInt64}
    {parent : OvlNode}
    (resolves : lookupNodeId sys.nodes sys.inodes parentIno = some parentId)
    (stored : sys.nodes.get? parentId = some parent)
    (unloaded : parent.isLoaded = false)
    (absent : parent.getChild name = none) :
    doLookupFile env parentIno name sys =
      if parent.isWhiteout name then (.ok none, sys)
      else doLazyLookup env parentId name sys := by
  have asked : resolveIno parentIno sys = (.ok (some parentId), sys) := by
    rw [← resolves]
    rfl
  have found : getNode parentId sys = (.ok (some parent), sys) := by
    rw [← stored]
    rfl
  unfold doLookupFile
  rw [Act.bind_ok asked]
  simp only
  rw [Act.bind_ok found]
  simp only [absent, unloaded, Bool.or_false]
  split <;> rfl

theorem placeAt_root
    {disk : Disk}
    (rooted : disk.kindAt ⟨.layer layerIdx, []⟩ = some .dir) :
    disk.placeAt (.layer layerIdx) [] ≠ .missing := by
  have located :
      disk.locate ⟨.layer layerIdx, []⟩ [] = .ok ⟨.layer layerIdx, []⟩ := rfl
  simp [Disk.placeAt, located, rooted]

/-- Lookup and load of an unloaded directory agree on a name exactly if the
name is recorded as whited out or no deciding layer makes them differ. -/
theorem lookup_agrees_iff
    {env : Env}
    {disk : Disk}
    {calls : List Call}
    {call : Call}
    {sys : Sys}
    (reached : sys = ((Sys.mount env disk).run env calls).begin call)
    (noFaults : call.faults = [])
    {parentIno : UInt64}
    {parentId : NodeId}
    {parent : OvlNode}
    (resolves : lookupNodeId sys.nodes sys.inodes parentIno = some parentId)
    (stored : sys.nodes.get? parentId = some parent)
    (isDir : parent.isDir = true)
    (unloaded : parent.isLoaded = false)
    {name : Name}
    (plain : Ledger.Plain name)
    (absent : parent.getChild name = none)
    (proper : Disk.Proper (nodeParts sys.nodes parentId))
    (rooted :
      ∀ idx < env.layers.length,
        sys.os.disk.kindAt ⟨.layer idx, []⟩ = some .dir)
    (quiet :
      ∀ idx < env.layers.length,
        sys.os.disk.Quiet (.layer idx) (nodeParts sys.nodes parentId)) :
    lookupView (doLookupFile env parentIno name sys) =
        childView (reloadDir env parentId sys).2.nodes parentId name ↔
      parent.isWhiteout name = true ∨
        ¬ ∃ idx < env.layers.length,
          Decides sys.os.disk (nodeParts sys.nodes parentId) name
              parent.lastLayerIdx idx ∧
            Differs env sys.os.disk (nodeParts sys.nodes parentId)
              (ledgerOf sys.nodes parent) name parent.lastLayerIdx idx := by
  have ok : TreeOk sys := by
    rw [reached]
    exact treeOk_run (treeOk_mount env disk) calls
  have quietOs : sys.os.faults = [] := by
    rw [reached]
    exact noFaults
  have unheld :
      ∀ idx < env.layers.length,
        sys.os.disk.placeAt (.layer idx) (nodeParts sys.nodes parentId) =
            .missing →
          ∀ query, sys.os.disk.objAt idx (nodeParts sys.nodes parentId)
            query = none := by
    intro idx below place query
    refine objAt_of_missing (fun isRoot => ?_) proper place query
    rw [isRoot]
    exact placeAt_root (rooted idx below)
  rw [doLookupFile_unloaded resolves stored unloaded absent,
    childView_reloadDir ok stored isDir unloaded absent quietOs proper quiet]
  have noChild : (ledgerOf sys.nodes parent).child name = none := by
    simp [ledgerOf, absent]
  cases isWhite : parent.isWhiteout name with
  | true =>
      have taken : (ledgerOf sys.nodes parent).taken name = true := by
        simp [Ledger.taken, ledgerOf, isWhite]
      simp only [↓reduceIte, true_or, iff_true]
      rw [loadedLedger, Ledger.view_addLayers_of_taken taken, Ledger.view,
        noChild]
      rfl
  | false =>
      have free : (ledgerOf sys.nodes parent).taken name = false :=
        Ledger.taken_eq_false noChild isWhite
      simp only [Bool.false_eq_true, ↓reduceIte, false_or]
      rw [lookupView_doLazyLookup stored quietOs quiet plain]
      exact outcomes_agree_iff unheld plain free

end Daemon

namespace Sample

/-- A directory on both layers, opaque on the upper one, with a file on the
lower one. -/
def cutDir : Disk :=
  disk 1
    [(⟨.layer 0, [ascii "d"]⟩, obj .dir [] 11),
      (⟨.layer 0, [ascii "d", opaqueWhiteout]⟩, obj .reg [] 12),
      (⟨.layer 1, [ascii "d"]⟩, obj .dir [] 21),
      (⟨.layer 1, [ascii "d", ascii "f"]⟩, obj .reg [] 22)]

/-- The root of a fresh mount is asked for the directory. -/
def freshRoot : Sys :=
  ((Sys.mount (env 1) cutDir).run (env 1) []).begin
    (call (.lookup 1 (ascii "d")))

/-- A file is made in the directory and removed, which unloads it. -/
def unloadDir : List Call :=
  [call (.lookup 1 (ascii "d")),
    call (.create ⟨0, 0⟩ 11 (ascii "g") ⟨some .reg, 0o644⟩
      { OpenFlags.rdonly with write := true, creat := true }),
    call (.unlink 11 (ascii "g"))]

/-- The unloaded directory is asked for the file of the lower layer. -/
def unloadedDir : Sys :=
  ((Sys.mount (env 1) cutDir).run (env 1) unloadDir).begin
    (call (.lookup 11 (ascii "f")))

end Sample

namespace Daemon

open Sample

theorem lookup_agrees_iff_freshRoot :
    lookupView (doLookupFile (env 1) 1 (ascii "d") freshRoot) =
        childView (reloadDir (env 1) 1 freshRoot).2.nodes 1 (ascii "d") ↔
      (OvlNode.new [] 0 0 0 true).isWhiteout (ascii "d") = true ∨
        ¬ ∃ idx < (env 1).layers.length,
          Decides freshRoot.os.disk (nodeParts freshRoot.nodes 1)
              (ascii "d") 0 idx ∧
            Differs (env 1) freshRoot.os.disk (nodeParts freshRoot.nodes 1)
              (ledgerOf freshRoot.nodes (OvlNode.new [] 0 0 0 true))
              (ascii "d") 0 idx := by
  have root : nodeParts freshRoot.nodes 1 = [] := by decide +kernel
  have plain : Ledger.Plain (ascii "d") :=
    ⟨by decide, by decide, by decide⟩
  refine @lookup_agrees_iff (env 1) cutDir [] (call (.lookup 1 (ascii "d")))
    freshRoot rfl rfl 1 1 (OvlNode.new [] 0 0 0 true) rfl rfl rfl rfl
    (ascii "d") plain rfl ?_ ?_ ?_
  · rw [root]
    intro name member
    cases member
  · decide +kernel
  · intro idx below errno failed
    rw [root] at failed
    cases failed

/-- The lookup finds a file behind the opaque directory, the load does not. -/
theorem lookup_disagrees_unloadedDir :
    lookupNodeId unloadedDir.nodes unloadedDir.inodes 11 = some 2 ∧
      (unloadedDir.nodes.get? 2).map (fun node =>
          (node.isDir, node.isLoaded, node.getChild (ascii "f"))) =
        some (true, false, none) ∧
      lookupView (doLookupFile (env 1) 11 (ascii "f") unloadedDir) =
        some (1, false) ∧
      childView (reloadDir (env 1) 2 unloadedDir).2.nodes 2 (ascii "f") =
        none := by
  decide +kernel

end Daemon

end FuseOverlay
