import FuseOverlay.Lookup

namespace FuseOverlay

/-!
# What a directory records

A directory node records, name by name, a child found on some layer or a
whiteout.  Reading one layer's directory adds to the record: a name that is
recorded already stays as it is.  The stream may deliver the entries in any
order; `Ledger.add` is the record afterwards, and it does not depend on the
order.
-/

/-- What a layer's directory holds under a name. -/
inductive Item where
  | whiteout
  | object (isDir : Bool)
  deriving DecidableEq

/-- One layer's directory. -/
abbrev Listing := Name → Option Item

/-- A child: the first and the last layer it was seen on, and its type. -/
structure Found where
  layerIdx : Nat
  isDir : Bool
  lastLayerIdx : Nat
  deriving DecidableEq

namespace Found

/-- A child that one layer shows. -/
def new
    (layerIdx : Nat)
    (isDir : Bool) :
    Found :=
  ⟨layerIdx, isDir, layerIdx⟩

/-- A child that is there on one more layer. -/
def seen
    (layerIdx : Nat)
    (found : Found) :
    Found :=
  { found with lastLayerIdx := layerIdx }

@[simp] theorem seen_new
    (layerIdx : Nat)
    (isDir : Bool) :
    (new layerIdx isDir).seen layerIdx = new layerIdx isDir :=
  rfl

@[simp] theorem seen_seen
    (layerIdx : Nat)
    (found : Found) :
    (found.seen layerIdx).seen layerIdx = found.seen layerIdx :=
  rfl

end Found

/-- The children and the whiteouts of a directory. -/
@[ext]
structure Ledger where
  child : Name → Option Found
  white : Name → Bool

/-- The entries that `load_dir_impl` passes over. -/
def isSkipped (name : Name) : Bool :=
  name = dotName || name = dotDotName || name = opaqueWhiteout

theorem whPrefixName_eq_some
    {name whited : Name} :
    Daemon.whPrefixName name = some whited ↔
      name = whName whited ∧ name ≠ opaqueWhiteout := by
  unfold Daemon.whPrefixName hasWhPrefix whName
  constructor
  · intro found
    split at found
    · next tests =>
        simp only [Bool.and_eq_true, List.isPrefixOf_iff_prefix,
          decide_eq_true_eq] at tests
        obtain ⟨⟨rest, rfl⟩, different⟩ := tests
        cases found
        exact ⟨rfl, different⟩
    · cases found
  · rintro ⟨rfl, different⟩
    have tests :
        (whPrefix.isPrefixOf (whPrefix ++ whited)
          && decide (whPrefix ++ whited ≠ opaqueWhiteout)) = true := by
      simp [List.isPrefixOf_iff_prefix, different]
    rw [if_pos tests]
    rfl

/-- Only the opaque sentinel has the prefix without being a whiteout. -/
theorem not_hasWhPrefix
    {name : Name}
    (whited : Daemon.whPrefixName name = none)
    (notSkipped : isSkipped name = false) :
    hasWhPrefix name = false := by
  simp only [isSkipped, Bool.or_eq_false_iff, decide_eq_false_iff_not]
    at notSkipped
  unfold Daemon.whPrefixName at whited
  split at whited
  · cases whited
  · next tests =>
      simpa [notSkipped.2] using tests

namespace Ledger

def taken
    (ledger : Ledger)
    (name : Name) : Bool :=
  (ledger.child name).isSome || ledger.white name

def setChild
    (ledger : Ledger)
    (name : Name)
    (found : Found) :
    Ledger :=
  { ledger with child := Function.update ledger.child name (some found) }

def setWhite
    (ledger : Ledger)
    (name : Name) :
    Ledger :=
  { ledger with white := Function.update ledger.white name true }

/-- One turn of the entry loop of `load_dir_impl`. -/
def enter
    (listing : Listing)
    (layerIdx : Nat)
    (ledger : Ledger)
    (name : Name) :
    Ledger :=
  if isSkipped name then ledger
  else
    match ledger.child name with
    | some found => ledger.setChild name (found.seen layerIdx)
    | none =>
        if ledger.white name then ledger
        else if (listing (whName name)).isSome then ledger.setWhite name
        else
          match Daemon.whPrefixName name with
          | some whited =>
              if (ledger.child whited).isSome then ledger
              else ledger.setWhite whited
          | none =>
              match listing name with
              | none => ledger
              | some .whiteout => ledger.setWhite name
              | some (.object isDir) =>
                  ledger.setChild name (.new layerIdx isDir)

/-- The type of the object that a directory shows under a name. -/
def shown
    (listing : Listing)
    (name : Name) :
    Option Bool :=
  if isSkipped name || hasWhPrefix name || (listing (whName name)).isSome then
    none
  else
    match listing name with
    | some (.object isDir) => some isDir
    | _ => none

/-- An entry that is recorded as a whiteout of its own name. -/
def masked
    (listing : Listing)
    (name : Name) : Bool :=
  !isSkipped name
    && ((listing (whName name)).isSome
      || (!hasWhPrefix name && listing name = some .whiteout))

/-- Whether a `.wh.` file for the name is taken as a whiteout of it. -/
def heeded
    (listing : Listing)
    (ledger : Ledger)
    (name : Name) : Bool :=
  whName name ≠ opaqueWhiteout && !ledger.taken (whName name)
    && (listing (whName (whName name))).isNone

/-- The record after one more layer. -/
def add
    (layerIdx : Nat)
    (listing : Listing)
    (ledger : Ledger) :
    Ledger where
  child name :=
    if ledger.taken name then
      if (listing name).isSome && !isSkipped name then
        (ledger.child name).map (·.seen layerIdx)
      else
        ledger.child name
    else
      (shown listing name).map (.new layerIdx)
  white name :=
    ledger.white name
      || (!ledger.taken name
        && (((listing name).isSome && masked listing name)
          || ((listing (whName name)).isSome && heeded listing ledger name)))

theorem child_add_of_taken
    {ledger : Ledger}
    {name : Name}
    (isTaken : ledger.taken name = true)
    (layerIdx : Nat)
    (listing : Listing) :
    (ledger.add layerIdx listing).child name =
      if (listing name).isSome && !isSkipped name then
        (ledger.child name).map (·.seen layerIdx)
      else
        ledger.child name := by
  simp [add, isTaken]

theorem child_add_of_free
    {ledger : Ledger}
    {name : Name}
    (free : ledger.taken name = false)
    (layerIdx : Nat)
    (listing : Listing) :
    (ledger.add layerIdx listing).child name =
      (shown listing name).map (.new layerIdx) := by
  simp [add, free]

theorem white_add_of_taken
    {ledger : Ledger}
    {name : Name}
    (isTaken : ledger.taken name = true)
    (layerIdx : Nat)
    (listing : Listing) :
    (ledger.add layerIdx listing).white name = ledger.white name := by
  simp [add, isTaken]

theorem white_add_of_free
    {ledger : Ledger}
    {name : Name}
    (free : ledger.taken name = false)
    (layerIdx : Nat)
    (listing : Listing) :
    (ledger.add layerIdx listing).white name =
      (((listing name).isSome && masked listing name)
        || ((listing (whName name)).isSome && heeded listing ledger name)) := by
  have noWhite : ledger.white name = false := by
    simp only [taken, Bool.or_eq_false_iff] at free
    exact free.2
  simp [add, free, noWhite]

/-! ## The order of the entries does not matter -/

/-- The record after some of the entries of a directory. -/
structure Scanned
    (listing : Listing)
    (layerIdx : Nat)
    (start : Ledger)
    (done : List Name)
    (now : Ledger) : Prop where
  stored : ∀ name ∈ done, isSkipped name = false → (listing name).isSome = true
  kept :
    ∀ {name}, start.taken name = true →
      now.child name =
          (if name ∈ done ∧ isSkipped name = false then
            (start.child name).map (·.seen layerIdx)
          else start.child name) ∧
        now.white name = start.white name
  child :
    ∀ {name}, start.taken name = false →
      now.child name =
        if name ∈ done then (shown listing name).map (.new layerIdx) else none
  white :
    ∀ {name}, start.taken name = false →
      (now.white name = true ↔
        (name ∈ done ∧ masked listing name = true) ∨
          (whName name ∈ done ∧ heeded listing start name = true))

namespace Scanned

variable
  {listing : Listing}
  {layerIdx : Nat}
  {start now : Ledger}
  {done : List Name}

theorem nil :
    Scanned listing layerIdx start [] start where
  stored := by simp
  kept := fun _ => ⟨by simp, rfl⟩
  child := by
    intro name free
    simp only [taken, Bool.or_eq_false_iff, Option.isSome_eq_false_iff,
      Option.isNone_iff_eq_none] at free
    simp [free]
  white := by
    intro name free
    simp only [taken, Bool.or_eq_false_iff] at free
    simp [free]

theorem taken_of_start
    (scanned : Scanned listing layerIdx start done now)
    {name : Name}
    (wasTaken : start.taken name = true) :
    now.taken name = true := by
  obtain ⟨sameChild, sameWhite⟩ := scanned.kept wasTaken
  have sameSome : (now.child name).isSome = (start.child name).isSome := by
    rw [sameChild]
    split <;> simp
  rw [taken, sameSome, sameWhite]
  exact wasTaken

theorem not_skipped_whName
    {name : Name}
    (different : whName name ≠ opaqueWhiteout) :
    isSkipped (whName name) = false := by
  simp [isSkipped, whName, whPrefix, dotName, dotDotName] at different ⊢
  exact decide_eq_false different

/-- A name with a `.wh.` file in the directory is not shown. -/
theorem shown_eq_none_of_whFile
    {name : Name}
    (whFile : (listing (whName name)).isSome = true) :
    shown listing name = none := by
  simp [shown, whFile]

theorem shown_eq_none_of_masked
    {name : Name}
    (isMasked : masked listing name = true) :
    shown listing name = none := by
  simp only [masked, Bool.and_eq_true, Bool.not_eq_true', Bool.or_eq_true,
    decide_eq_true_eq] at isMasked
  obtain ⟨-, whFile | ⟨-, device⟩⟩ := isMasked
  · exact shown_eq_none_of_whFile whFile
  · simp [shown, device]

/-- A whiteout that was recorded on the way hides the name. -/
theorem shown_eq_none_of_white
    (scanned : Scanned listing layerIdx start done now)
    {name : Name}
    (free : start.taken name = false)
    (isWhite : now.white name = true) :
    shown listing name = none := by
  rcases (scanned.white free).mp isWhite with ⟨-, isMasked⟩ | ⟨member, isHeeded⟩
  · exact shown_eq_none_of_masked isMasked
  · simp only [heeded, Bool.and_eq_true, decide_eq_true_eq] at isHeeded
    exact shown_eq_none_of_whFile
      (scanned.stored _ member (not_skipped_whName isHeeded.1.1))

/-- One more entry, by what it does to the names that were free. -/
theorem cons
    (scanned : Scanned listing layerIdx start done now)
    {entry : Name}
    {later : Ledger}
    (stored : isSkipped entry = false → (listing entry).isSome = true)
    (unseen : isSkipped entry = true ∨ now.child entry = none)
    (kept :
      ∀ {name}, start.taken name = true →
        later.child name = now.child name ∧ later.white name = now.white name)
    (child :
      ∀ {name}, start.taken name = false →
        later.child name =
          if name = entry then (shown listing name).map (.new layerIdx)
          else now.child name)
    (white :
      ∀ {name}, start.taken name = false →
        (later.white name = true ↔
          now.white name = true ∨
            (name = entry ∧ masked listing name = true) ∨
              (whName name = entry ∧ heeded listing start name = true))) :
    Scanned listing layerIdx start (entry :: done) later where
  stored := by
    intro name member notSkipped
    rcases List.mem_cons.mp member with rfl | member
    · exact stored notSkipped
    · exact scanned.stored name member notSkipped
  kept := by
    intro name wasTaken
    obtain ⟨sameChild, sameWhite⟩ := kept wasTaken
    obtain ⟨startChild, startWhite⟩ := scanned.kept wasTaken
    refine ⟨?_, sameWhite.trans startWhite⟩
    rw [sameChild]
    by_cases same : name = entry
    · subst same
      rcases unseen with skipped | noChild
      · rw [startChild]
        simp [skipped]
      · have noStart : start.child name = none := by
          rw [noChild] at startChild
          split at startChild
          · exact Option.map_eq_none_iff.mp startChild.symm
          · exact startChild.symm
        rw [noChild, noStart]
        simp
    · rw [startChild]
      simp [same]
  child := by
    intro name free
    rw [child free, scanned.child free]
    by_cases same : name = entry <;> simp [same]
  white := by
    intro name free
    rw [white free, scanned.white free]
    simp only [List.mem_cons]
    tauto

/-- A record that does not change: what the entry could do is done. -/
theorem stay
    (scanned : Scanned listing layerIdx start done now)
    {entry : Name}
    (stored : isSkipped entry = false → (listing entry).isSome = true)
    (unseen : isSkipped entry = true ∨ now.child entry = none)
    (child :
      start.taken entry = false →
        now.child entry = (shown listing entry).map (.new layerIdx))
    (masks :
      start.taken entry = false → masked listing entry = true →
        now.white entry = true)
    (unheeded :
      ∀ {name}, whName name = entry → heeded listing start name = false) :
    Scanned listing layerIdx start (entry :: done) now := by
  refine scanned.cons stored unseen (fun _ => ⟨rfl, rfl⟩) ?_ ?_
  · intro name free
    by_cases same : name = entry
    · subst same
      rw [if_pos rfl]
      exact child free
    · rw [if_neg same]
  · intro name free
    constructor
    · exact .inl
    · rintro (isWhite | ⟨rfl, isMasked⟩ | ⟨same, isHeeded⟩)
      · exact isWhite
      · exact masks free isMasked
      · rw [unheeded same] at isHeeded
        cases isHeeded

/-- An entry that is passed over. -/
theorem skip
    (scanned : Scanned listing layerIdx start done now)
    {entry : Name}
    (skipped : isSkipped entry = true) :
    Scanned listing layerIdx start (entry :: done) now := by
  refine scanned.stay (fun notSkipped => ?_) (.inl skipped) (fun free => ?_)
    (fun _ isMasked => ?_) ?_
  · rw [skipped] at notSkipped
    cases notSkipped
  · rw [scanned.child free]
    simp [shown, skipped]
  · simp [masked, skipped] at isMasked
  · rintro name rfl
    by_contra isHeeded
    simp only [Bool.not_eq_false, heeded, Bool.and_eq_true,
      decide_eq_true_eq] at isHeeded
    rw [not_skipped_whName isHeeded.1.1] at skipped
    cases skipped

/-- An entry that is a child already. -/
theorem see
    (scanned : Scanned listing layerIdx start done now)
    {entry : Name}
    {found : Found}
    (present : (listing entry).isSome = true)
    (notSkipped : isSkipped entry = false)
    (isChild : now.child entry = some found) :
    Scanned listing layerIdx start (entry :: done)
      (now.setChild entry (found.seen layerIdx)) where
  stored := by
    intro name member skipped
    rcases List.mem_cons.mp member with rfl | member
    · exact present
    · exact scanned.stored name member skipped
  kept := by
    intro name wasTaken
    obtain ⟨startChild, startWhite⟩ := scanned.kept wasTaken
    refine ⟨?_, startWhite⟩
    by_cases same : name = entry
    · subst same
      rw [isChild] at startChild
      have changed :
          (now.setChild name (found.seen layerIdx)).child name =
            some (found.seen layerIdx) := by
        simp [setChild]
      rw [changed, if_pos ⟨by simp, notSkipped⟩]
      split at startChild
      · obtain ⟨first, firstChild, same⟩ :=
          Option.map_eq_some_iff.mp startChild.symm
        rw [firstChild, ← same]
        rfl
      · rw [← startChild]
        rfl
    · have unchanged :
          (now.setChild entry (found.seen layerIdx)).child name =
            now.child name :=
        Function.update_of_ne same ..
      rw [unchanged, startChild]
      simp [same]
  child := by
    intro name free
    have nowChild := scanned.child free
    by_cases same : name = entry
    · subst same
      rw [isChild] at nowChild
      split at nowChild
      · obtain ⟨isDir, isShown, rfl⟩ :=
          Option.map_eq_some_iff.mp nowChild.symm
        simp [setChild, isShown]
      · cases nowChild
    · have unchanged :
          (now.setChild entry (found.seen layerIdx)).child name =
            now.child name :=
        Function.update_of_ne same ..
      rw [unchanged, nowChild]
      simp [same]
  white := by
    intro name free
    have noChild : whName name = entry → heeded listing start name = false := by
      rintro rfl
      by_contra isHeeded
      simp only [Bool.not_eq_false, heeded, Bool.and_eq_true,
        Bool.not_eq_true', decide_eq_true_eq] at isHeeded
      rw [scanned.child isHeeded.1.2] at isChild
      simp [shown] at isChild
    have notMasked : name = entry → masked listing name = false := by
      rintro rfl
      by_contra isMasked
      rw [Bool.not_eq_false] at isMasked
      rw [scanned.child free, shown_eq_none_of_masked isMasked] at isChild
      simp at isChild
    change now.white name = true ↔ _
    rw [scanned.white free]
    simp only [List.mem_cons]
    constructor
    · rintro (⟨member, isMasked⟩ | ⟨member, isHeeded⟩)
      · exact .inl ⟨.inr member, isMasked⟩
      · exact .inr ⟨.inr member, isHeeded⟩
    · rintro (⟨isEntry | member, isMasked⟩ | ⟨isEntry | member, isHeeded⟩)
      · rw [notMasked isEntry] at isMasked
        cases isMasked
      · exact .inl ⟨member, isMasked⟩
      · rw [noChild isEntry] at isHeeded
        cases isHeeded
      · exact .inr ⟨member, isHeeded⟩

/-- An entry that is whited out already. -/
theorem pass
    (scanned : Scanned listing layerIdx start done now)
    {entry : Name}
    (present : (listing entry).isSome = true)
    (noChild : now.child entry = none)
    (isWhite : now.white entry = true) :
    Scanned listing layerIdx start (entry :: done) now := by
  refine scanned.stay (fun _ => present) (.inr noChild) (fun free => ?_)
    (fun _ _ => isWhite) ?_
  · rw [noChild, scanned.shown_eq_none_of_white free isWhite]
    rfl
  · -- A `.wh.` name is white because of a `.wh.` file of its own.
    rintro name rfl
    by_contra isHeeded
    simp only [Bool.not_eq_false, heeded, Bool.and_eq_true,
      Bool.not_eq_true', decide_eq_true_eq, Option.isNone_iff_eq_none]
      at isHeeded
    obtain ⟨⟨different, free⟩, bare⟩ := isHeeded
    rcases (scanned.white free).mp isWhite with
      ⟨-, isMasked⟩ | ⟨member, again⟩
    · simp [masked, bare] at isMasked
    · simp only [heeded, Bool.and_eq_true, decide_eq_true_eq] at again
      have found :=
        scanned.stored _ member (not_skipped_whName again.1.1)
      rw [bare] at found
      cases found

theorem child_eq_none
    {ledger : Ledger}
    {name : Name}
    (free : ledger.taken name = false) :
    ledger.child name = none := by
  simp only [taken, Bool.or_eq_false_iff, Option.isSome_eq_false_iff,
    Option.isNone_iff_eq_none] at free
  exact free.1

theorem free_of_free
    (scanned : Scanned listing layerIdx start done now)
    {name : Name}
    (free : now.taken name = false) :
    start.taken name = false := by
  by_contra wasTaken
  rw [Bool.not_eq_false] at wasTaken
  rw [scanned.taken_of_start wasTaken] at free
  cases free

/-- The entry is recorded as a whiteout of itself. -/
theorem whiten
    (scanned : Scanned listing layerIdx start done now)
    {entry : Name}
    (present : (listing entry).isSome = true)
    (free : now.taken entry = false)
    (isMasked : masked listing entry = true)
    (unheeded :
      ∀ {name}, whName name = entry → heeded listing start name = false) :
    Scanned listing layerIdx start (entry :: done) (now.setWhite entry) := by
  have wasFree := scanned.free_of_free free
  refine scanned.cons (fun _ => present) (.inr (child_eq_none free)) ?_ ?_ ?_
  · intro name wasTaken
    have different : name ≠ entry := by
      rintro rfl
      rw [wasFree] at wasTaken
      cases wasTaken
    exact ⟨rfl, Function.update_of_ne different ..⟩
  · intro name _
    by_cases same : name = entry
    · subst same
      rw [if_pos rfl, shown_eq_none_of_masked isMasked]
      exact @child_eq_none now name free
    · rw [if_neg same]
      rfl
  · intro name _
    by_cases same : name = entry
    · subst same
      simp [setWhite, isMasked]
    · have sameWhite : (now.setWhite entry).white name = now.white name :=
        Function.update_of_ne same ..
      rw [sameWhite]
      constructor
      · exact .inl
      · rintro (isWhite | ⟨isEntry, -⟩ | ⟨isEntry, isHeeded⟩)
        · exact isWhite
        · exact (same isEntry).elim
        · rw [unheeded isEntry] at isHeeded
          cases isHeeded

/-- The entry is a `.wh.` file that is heeded. -/
theorem heed
    (scanned : Scanned listing layerIdx start done now)
    {whited : Name}
    (present : (listing (whName whited)).isSome = true)
    (free : now.taken (whName whited) = false)
    (different : whName whited ≠ opaqueWhiteout)
    (bare : (listing (whName (whName whited))).isNone = true) :
    Scanned listing layerIdx start (whName whited :: done)
      (if (now.child whited).isSome then now else now.setWhite whited) := by
  have wasFree := scanned.free_of_free free
  have isHeeded : heeded listing start whited = true := by
    simp [heeded, different, wasFree, bare]
  have entryChild :
      now.child (whName whited) =
        (shown listing (whName whited)).map (.new layerIdx) := by
    rw [scanned.child wasFree]
    simp [shown]
  have unmasked : masked listing (whName whited) = false := by
    simp [masked, Option.isNone_iff_eq_none.mp bare]
  have hides : shown listing whited = none := shown_eq_none_of_whFile present
  cases isChild : (now.child whited).isSome with
  | true =>
      -- A child under the name comes from a higher layer and stays.
      have wasTaken : start.taken whited = true := by
        by_contra notTaken
        rw [Bool.not_eq_true] at notTaken
        rw [scanned.child notTaken, hides] at isChild
        simp at isChild
      rw [if_pos rfl]
      refine scanned.cons (fun _ => present) (.inr (child_eq_none free))
        (fun _ => ⟨rfl, rfl⟩) ?_ ?_
      · intro name _
        by_cases same : name = whName whited
        · rw [if_pos same, same, entryChild]
        · rw [if_neg same]
      · intro name isFree
        constructor
        · exact .inl
        · rintro (isWhite | ⟨rfl, isMasked⟩ | ⟨same, -⟩)
          · exact isWhite
          · rw [unmasked] at isMasked
            cases isMasked
          · rw [whName_injective same, wasTaken] at isFree
            cases isFree
  | false =>
      rw [if_neg (by simp)]
      refine scanned.cons (fun _ => present) (.inr (child_eq_none free))
        ?_ ?_ ?_
      · intro name wasTaken
        refine ⟨rfl, ?_⟩
        by_cases same : name = whited
        · subst same
          obtain ⟨sameChild, sameWhite⟩ := scanned.kept wasTaken
          have noStart : (start.child name).isSome = false := by
            rw [sameChild] at isChild
            split at isChild <;> simpa using isChild
          rw [taken, noStart, Bool.false_or] at wasTaken
          rw [sameWhite, wasTaken]
          simp [setWhite]
        · exact Function.update_of_ne same ..
      · intro name _
        by_cases same : name = whName whited
        · rw [if_pos same, same, ← entryChild]
          rfl
        · rw [if_neg same]
          rfl
      · intro name _
        by_cases same : name = whited
        · subst same
          simp [setWhite, isHeeded]
        · have sameWhite :
              (now.setWhite whited).white name = now.white name :=
            Function.update_of_ne same ..
          rw [sameWhite]
          constructor
          · exact .inl
          · rintro (isWhite | ⟨rfl, isMasked⟩ | ⟨again, -⟩)
            · exact isWhite
            · rw [unmasked] at isMasked
              cases isMasked
            · exact (same (whName_injective again)).elim

/-- The entry becomes a child. -/
theorem adopt
    (scanned : Scanned listing layerIdx start done now)
    {entry : Name}
    {isDir : Bool}
    (stored : listing entry = some (.object isDir))
    (free : now.taken entry = false)
    (isShown : shown listing entry = some isDir) :
    Scanned listing layerIdx start (entry :: done)
      (now.setChild entry (.new layerIdx isDir)) := by
  have wasFree := scanned.free_of_free free
  have notPrefixed : hasWhPrefix entry = false := by
    by_contra prefixed
    rw [Bool.not_eq_false] at prefixed
    simp [shown, prefixed] at isShown
  have unmasked : masked listing entry = false := by
    by_contra isMasked
    rw [Bool.not_eq_false] at isMasked
    rw [shown_eq_none_of_masked isMasked] at isShown
    cases isShown
  refine scanned.cons (fun _ => by rw [stored]; rfl)
    (.inr (child_eq_none free)) ?_ ?_ ?_
  · intro name wasTaken
    have different : name ≠ entry := by
      rintro rfl
      rw [wasFree] at wasTaken
      cases wasTaken
    exact ⟨Function.update_of_ne different .., rfl⟩
  · intro name _
    by_cases same : name = entry
    · subst same
      simp [setChild, isShown]
    · rw [if_neg same]
      exact Function.update_of_ne same ..
  · intro name _
    constructor
    · exact .inl
    · rintro (isWhite | ⟨rfl, isMasked⟩ | ⟨rfl, -⟩)
      · exact isWhite
      · rw [unmasked] at isMasked
        cases isMasked
      · rw [hasWhPrefix_whName] at notPrefixed
        cases notPrefixed

/-- An entry under a name that is free. -/
theorem enterFree
    (scanned : Scanned listing layerIdx start done now)
    {entry : Name}
    (present : (listing entry).isSome = true)
    (skipped : isSkipped entry = false)
    (free : now.taken entry = false) :
    Scanned listing layerIdx start (entry :: done)
      (if (listing (whName entry)).isSome then now.setWhite entry
      else
        match Daemon.whPrefixName entry with
        | some whited =>
            if (now.child whited).isSome then now else now.setWhite whited
        | none =>
            match listing entry with
            | none => now
            | some .whiteout => now.setWhite entry
            | some (.object isDir) =>
                now.setChild entry (.new layerIdx isDir)) := by
  cases whFile : (listing (whName entry)).isSome with
  | true =>
      refine scanned.whiten present free ?_ ?_
      · simp [masked, skipped, whFile]
      · rintro name rfl
        simp [heeded, whFile]
  | false =>
      rw [Option.isSome_eq_false_iff] at whFile
      cases whited : Daemon.whPrefixName entry with
      | some name =>
          obtain ⟨rfl, different⟩ := whPrefixName_eq_some.mp whited
          exact scanned.heed present free different whFile
      | none =>
          have notPrefixed := not_hasWhPrefix whited skipped
          obtain ⟨item, found⟩ := Option.isSome_iff_exists.mp present
          rw [Option.isNone_iff_eq_none] at whFile
          cases item with
          | whiteout =>
              simp only [found]
              refine scanned.whiten present free ?_ ?_
              · simp [masked, skipped, notPrefixed, found]
              · rintro name rfl
                rw [hasWhPrefix_whName] at notPrefixed
                cases notPrefixed
          | object isDir =>
              simp only [found]
              refine scanned.adopt found free ?_
              simp [shown, skipped, notPrefixed, whFile, found]

theorem enter
    (scanned : Scanned listing layerIdx start done now)
    {entry : Name}
    (stored : isSkipped entry = false → (listing entry).isSome = true) :
    Scanned listing layerIdx start (entry :: done)
      (now.enter listing layerIdx entry) := by
  unfold Ledger.enter
  cases skipped : isSkipped entry with
  | true =>
      exact scanned.skip skipped
  | false =>
      have present := stored skipped
      cases isChild : now.child entry with
      | some found =>
          exact scanned.see present skipped isChild
      | none =>
          cases isWhite : now.white entry with
          | true =>
              exact scanned.pass present isChild isWhite
          | false =>
              have free : now.taken entry = false := by
                simp [taken, isChild, isWhite]
              exact scanned.enterFree present skipped free

end Scanned

/-- Reading a whole directory, entry by entry in any order. -/
def scan
    (listing : Listing)
    (layerIdx : Nat)
    (ledger : Ledger)
    (names : List Name) :
    Ledger :=
  names.foldl (fun now name => now.enter listing layerIdx name) ledger

theorem scanned_scan
    {listing : Listing}
    {layerIdx : Nat}
    {start : Ledger}
    (names : List Name)
    {done : List Name}
    {now : Ledger}
    (scanned : Scanned listing layerIdx start done now)
    (stored :
      ∀ name ∈ names, isSkipped name = false →
        (listing name).isSome = true) :
    Scanned listing layerIdx start (names.reverse ++ done)
      (now.scan listing layerIdx names) := by
  induction names generalizing done now with
  | nil =>
      exact scanned
  | cons name rest inductionHypothesis =>
      have entered := scanned.enter (stored name (by simp))
      have rested := inductionHypothesis entered fun other member =>
        stored other (List.mem_cons_of_mem _ member)
      simpa [scan] using rested

/-- A directory that is read to its end adds all it holds. -/
theorem scan_eq_add
    {listing : Listing}
    (layerIdx : Nat)
    (ledger : Ledger)
    {names : List Name}
    (stored :
      ∀ name ∈ names, isSkipped name = false → (listing name).isSome = true)
    (complete : ∀ name, (listing name).isSome = true → name ∈ names) :
    ledger.scan listing layerIdx names = ledger.add layerIdx listing := by
  have scanned := scanned_scan names
    (@Scanned.nil listing layerIdx ledger) stored
  rw [List.append_nil] at scanned
  ext1
  · funext name
    cases wasTaken : ledger.taken name with
    | true =>
        rw [child_add_of_taken wasTaken, (scanned.kept wasTaken).1]
        cases skipped : isSkipped name with
        | true =>
            simp
        | false =>
            have same : name ∈ names ↔ (listing name).isSome = true :=
              ⟨fun member => stored name member skipped, complete name⟩
            simp [same]
    | false =>
        rw [child_add_of_free wasTaken, scanned.child wasTaken]
        by_cases member : name ∈ names
        · simp [member]
        · have absent : ¬ (listing name).isSome = true :=
            fun found => member (complete name found)
          rw [Bool.not_eq_true, Option.isSome_eq_false_iff,
            Option.isNone_iff_eq_none] at absent
          simp [member, shown, absent]
  · funext name
    cases wasTaken : ledger.taken name with
    | true =>
        rw [white_add_of_taken wasTaken]
        exact (scanned.kept wasTaken).2
    | false =>
        have own :
            name ∈ names ∧ masked listing name = true ↔
              (listing name).isSome = true ∧ masked listing name = true := by
          refine and_congr_left fun isMasked => ⟨fun member => ?_, complete _⟩
          simp only [masked, Bool.and_eq_true, Bool.not_eq_true'] at isMasked
          exact stored name member isMasked.1
        have other :
            whName name ∈ names ∧ heeded listing ledger name = true ↔
              (listing (whName name)).isSome = true ∧
                heeded listing ledger name = true := by
          refine and_congr_left fun isHeeded => ⟨fun member => ?_, complete _⟩
          simp only [heeded, Bool.and_eq_true, decide_eq_true_eq] at isHeeded
          exact stored _ member (Scanned.not_skipped_whName isHeeded.1.1)
        rw [white_add_of_free wasTaken, Bool.eq_iff_iff,
          scanned.white wasTaken]
        simp only [List.mem_reverse, Bool.or_eq_true, Bool.and_eq_true]
        exact or_congr own other

end Ledger

end FuseOverlay
