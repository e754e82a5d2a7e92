import FuseOverlay.Attr

namespace FuseOverlay

/-!
# The arithmetic of id mappings

`parse_mappings` reads triples of numbers and relates none of them to another.
`find_mapping` scans the entries in order; the first one whose range holds the
id decides.  Two builds differ where an addition passes `u32`: a debug build
panics, a release build wraps.
-/

namespace IdMapping

/-- `parse_mappings` on the fields: the triples in order. -/
def parseTriples : List (List UInt8) → Option (List IdMapping)
  | [] => some []
  | host :: target :: len :: rest => do
      let host ← Override.parseU32 10 host
      let target ← Override.parseU32 10 target
      let len ← Override.parseU32 10 len
      let others ← parseTriples rest
      pure (⟨host, target, len⟩ :: others)
  | _ => none

/-- `parse_mappings`; the error is its message. -/
def parseMappings
    (text : List UInt8) :
    Except (List UInt8) (List IdMapping) :=
  let parts := (text.splitOn 58).filter fun part => !part.isEmpty
  let invalid := ascii "invalid mapping specified: " ++ text
  if parts.length % 3 ≠ 0 then
    .error invalid
  else
    match parseTriples parts with
    | some mappings => .ok mappings
    | none => .error invalid

/-- Where the range starts that a direction reads. -/
def start
    (entry : IdMapping)
    (direct : Bool) :
    UInt32 :=
  if direct then entry.host else entry.target

/-- The range that a direction reads holds the id. -/
def covers
    (direct : Bool)
    (id : UInt32)
    (entry : IdMapping) :
    Bool :=
  entry.start direct ≤ id && id - entry.start direct < entry.len

/-- The place of the id in the range, counted from its start. -/
def offset
    (entry : IdMapping)
    (direct : Bool)
    (id : UInt32) :
    Nat :=
  id.toNat - (entry.start direct).toNat

theorem covers_iff
    {direct : Bool}
    {id : UInt32}
    {entry : IdMapping} :
    entry.covers direct id = true ↔
      (entry.start direct).toNat ≤ id.toNat ∧
        entry.offset direct id < entry.len.toNat := by
  unfold covers offset
  rw [Bool.and_eq_true, decide_eq_true_eq, decide_eq_true_eq]
  constructor
  · rintro ⟨starts, ends⟩
    rw [UInt32.lt_iff_toNat_lt, UInt32.toNat_sub_of_le _ _ starts] at ends
    exact ⟨UInt32.le_iff_toNat_le.mp starts, ends⟩
  · rintro ⟨starts, ends⟩
    have ordered := UInt32.le_iff_toNat_le.mpr starts
    refine ⟨ordered, ?_⟩
    rw [UInt32.lt_iff_toNat_lt, UInt32.toNat_sub_of_le _ _ ordered]
    exact ends

end IdMapping

open IdMapping

/-- The id that a squash option presents instead of any other. -/
def squashed
    (direct squashToRoot : Bool)
    (squashToId : Option UInt32) :
    Option UInt32 :=
  if direct then
    squashToId.or (if squashToRoot then some 0 else none)
  else
    none

/-- An addition of a debug build: no value where it panics. -/
def checkedAdd (first second : UInt32) : Option UInt32 :=
  if first.toNat + second.toNat < 2 ^ 32 then some (first + second) else none

/-- `find_mapping` in a debug build. -/
def findMappingChecked
    (id : UInt32)
    (mappings : List IdMapping)
    (direct : Bool)
    (squashToRoot : Bool)
    (squashToId : Option UInt32)
    (overflowId : UInt32) :
    Option UInt32 :=
  match direct, squashToId, squashToRoot with
  | true, some squashId, _ => some squashId
  | true, none, true => some 0
  | _, _, _ =>
      if mappings.isEmpty then
        some id
      else
        match mappings.find? fun entry =>
            if direct then
              entry.host ≤ id && id - entry.host < entry.len
            else
              entry.target ≤ id && id - entry.target < entry.len with
        | some entry =>
            if direct then checkedAdd entry.target (id - entry.host)
            else checkedAdd entry.host (id - entry.target)
        | none => some overflowId

/--
What `find_mapping` is to answer: a squash id, the unchanged id of an empty
list, the overflow id, or the exact sum of the first entry that holds the id.
-/
def ExactAnswer
    (id : UInt32)
    (mappings : List IdMapping)
    (direct squashToRoot : Bool)
    (squashToId : Option UInt32)
    (overflowId answer : UInt32) : Prop :=
  match squashed direct squashToRoot squashToId with
  | some squashId => answer = squashId
  | none =>
      if mappings = [] then
        answer = id
      else
        match mappings.find? (covers direct id) with
        | some entry =>
            answer.toNat =
              (entry.start !direct).toNat + entry.offset direct id
        | none => answer = overflowId

section Answers

variable
  {id : UInt32}
  {mappings : List IdMapping}
  {direct squashToRoot : Bool}
  {squashToId : Option UInt32}
  {overflowId : UInt32}

theorem findMapping_of_squashed
    {squashId : UInt32}
    (squashes : squashed direct squashToRoot squashToId = some squashId) :
    findMapping id mappings direct squashToRoot squashToId overflowId =
        squashId ∧
      findMappingChecked id mappings direct squashToRoot squashToId
        overflowId = some squashId := by
  unfold squashed at squashes
  cases direct with
  | false =>
      cases squashes
  | true =>
      cases squashToId with
      | some given =>
          cases squashes
          exact ⟨rfl, rfl⟩
      | none =>
          cases squashToRoot with
          | false =>
              cases squashes
          | true =>
              cases squashes
              exact ⟨rfl, rfl⟩

/-- Without squashing both builds scan the list. -/
theorem findMapping_of_unsquashed
    (plain : squashed direct squashToRoot squashToId = none) :
    findMapping id mappings direct squashToRoot squashToId overflowId =
        (if mappings = [] then id
        else
          match mappings.find? (covers direct id) with
          | some entry => entry.start (!direct) + (id - entry.start direct)
          | none => overflowId) ∧
      findMappingChecked id mappings direct squashToRoot squashToId
        overflowId =
        if mappings = [] then some id
        else
          match mappings.find? (covers direct id) with
          | some entry =>
              checkedAdd (entry.start !direct) (id - entry.start direct)
          | none => some overflowId := by
  unfold squashed at plain
  cases direct with
  | false =>
      cases mappings with
      | nil =>
          exact ⟨rfl, rfl⟩
      | cons first rest =>
          exact ⟨rfl, rfl⟩
  | true =>
      cases squashToId with
      | some given =>
          cases plain
      | none =>
          cases squashToRoot with
          | true =>
              cases plain
          | false =>
              cases mappings with
              | nil =>
                  exact ⟨rfl, rfl⟩
              | cons first rest =>
                  exact ⟨rfl, rfl⟩

/-- The first entry that holds the id leads past the last id. -/
def Wraps
    (id : UInt32)
    (mappings : List IdMapping)
    (direct squashToRoot : Bool)
    (squashToId : Option UInt32) : Prop :=
  squashed direct squashToRoot squashToId = none ∧
    ∃ entry, mappings.find? (covers direct id) = some entry ∧
      2 ^ 32 ≤ (entry.start !direct).toNat + entry.offset direct id

theorem toNat_sub_start
    {entry : IdMapping}
    (holds : entry.covers direct id = true) :
    (id - entry.start direct).toNat = entry.offset direct id :=
  UInt32.toNat_sub_of_le _ _
    (UInt32.le_iff_toNat_le.mpr (covers_iff.mp holds).1)

end Answers

/-- Some entry holds the id in the range that the direction reads. -/
def Mapped
    (mappings : List IdMapping)
    (direct : Bool)
    (id : UInt32) : Prop :=
  ∃ entry ∈ mappings, entry.covers direct id = true

/-- No id lies in two ranges of a side, and no range passes the last id. -/
structure RangesApart (mappings : List IdMapping) : Prop where
  apart :
    ∀ direct, mappings.Pairwise fun first second =>
      ∀ id, first.covers direct id = true → second.covers direct id = false
  ends :
    ∀ entry ∈ mappings, ∀ direct,
      (entry.start direct).toNat + entry.len.toNat ≤ 2 ^ 32

section RoundTrip

variable
  {mappings : List IdMapping}
  {direct : Bool}
  {id overflowId : UInt32}

/-- In apart ranges the scan finds the entry that holds the id. -/
theorem find?_of_covers
    (apart :
      mappings.Pairwise fun first second =>
        ∀ id, first.covers direct id = true → second.covers direct id = false)
    {entry : IdMapping}
    (member : entry ∈ mappings)
    (holds : entry.covers direct id = true) :
    mappings.find? (covers direct id) = some entry := by
  induction mappings with
  | nil =>
      cases member
  | cons first rest inductionHypothesis =>
      obtain ⟨firstApart, restApart⟩ := List.pairwise_cons.mp apart
      cases firstHolds : first.covers direct id with
      | true =>
          rw [List.find?_cons_of_pos firstHolds]
          rcases List.mem_cons.mp member with rfl | inRest
          · rfl
          · rw [firstApart entry inRest id firstHolds] at holds
            cases holds
      | false =>
          rw [List.find?_cons_of_neg (by rw [firstHolds]; simp)]
          rcases List.mem_cons.mp member with rfl | inRest
          · rw [firstHolds] at holds
            cases holds
          · exact inductionHypothesis restApart inRest

/-- The other side of an id: the same place in the other range. -/
theorem findMapping_of_covers
    (ranges : RangesApart mappings)
    {entry : IdMapping}
    (member : entry ∈ mappings)
    (holds : entry.covers direct id = true) :
    (findMapping id mappings direct false none overflowId).toNat =
        (entry.start !direct).toNat + entry.offset direct id ∧
      entry.covers (!direct)
        (findMapping id mappings direct false none overflowId) = true := by
  have plain : squashed direct false none = none := by
    cases direct <;> rfl
  have filled : mappings ≠ [] := List.ne_nil_of_mem member
  have place : entry.offset direct id < entry.len.toNat :=
    (covers_iff.mp holds).2
  have ends := ranges.ends entry member (!direct)
  have sum :
      (findMapping id mappings direct false none overflowId).toNat =
        (entry.start !direct).toNat + entry.offset direct id := by
    rw [(findMapping_of_unsquashed plain).1, if_neg filled,
      find?_of_covers (ranges.apart direct) member holds]
    simp only
    rw [UInt32.toNat_add, toNat_sub_start holds]
    exact Nat.mod_eq_of_lt (by omega)
  refine ⟨sum, covers_iff.mpr ?_⟩
  unfold offset at place ⊢
  rw [sum]
  unfold offset
  omega

/-- An id of a range comes back from the other side. -/
theorem findMapping_back
    (ranges : RangesApart mappings)
    (mapped : Mapped mappings direct id) :
    findMapping (findMapping id mappings direct false none overflowId)
      mappings (!direct) false none overflowId = id := by
  obtain ⟨entry, member, holds⟩ := mapped
  obtain ⟨there, holdsThere⟩ :=
    @findMapping_of_covers mappings direct id overflowId ranges entry member
      holds
  obtain ⟨back, -⟩ :=
    @findMapping_of_covers mappings (!direct) _ overflowId ranges entry member
      holdsThere
  have starts := (covers_iff.mp holds).1
  apply UInt32.toNat_inj.mp
  rw [back, Bool.not_not]
  unfold offset at there ⊢
  rw [there]
  omega

/-- An id outside all ranges becomes the overflow id. -/
theorem findMapping_unmapped
    (unmapped : ¬ Mapped mappings direct id) :
    findMapping id mappings direct false none overflowId =
      if mappings = [] then id else overflowId := by
  have plain : squashed direct false none = none := by
    cases direct <;> rfl
  have missed : mappings.find? (covers direct id) = none := by
    rw [List.find?_eq_none]
    exact fun entry member holds => unmapped ⟨entry, member, holds⟩
  rw [(findMapping_of_unsquashed plain).1, missed]

end RoundTrip

end FuseOverlay
