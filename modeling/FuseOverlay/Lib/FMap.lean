import Mathlib.Data.List.AList

namespace FuseOverlay

/-!
# Finite maps

A hash map is an association list without repeated keys.  Nothing here depends
on the iteration order, so the lookup equations below are the whole interface
that later modules use; every equation decides the queried key by one `if`.
-/

/-- A finite map from keys to values. -/
abbrev FMap (Key Value : Type) :=
  AList (fun _ : Key => Value)

namespace FMap

variable {Key Value : Type} [DecidableEq Key]

/-- The value stored under a key. -/
def get?
    (map : FMap Key Value)
    (key : Key) :
    Option Value :=
  AList.lookup key map

/-- Store a value, replacing an earlier one. -/
def set
    (map : FMap Key Value)
    (key : Key)
    (value : Value) :
    FMap Key Value :=
  AList.insert key value map

/-- Drop a key. -/
def remove
    (map : FMap Key Value)
    (key : Key) :
    FMap Key Value :=
  AList.erase key map

/-- Whether a key is stored. -/
def contains
    (map : FMap Key Value)
    (key : Key) :
    Bool :=
  (map.get? key).isSome

/-- Change the value under a key in place; an absent key stays absent. -/
def modify
    (map : FMap Key Value)
    (key : Key)
    (change : Value → Value) :
    FMap Key Value :=
  match map.get? key with
  | some value => map.set key (change value)
  | none => map

/--
Move every key along `place`; keys sent to `none` are dropped.  The lookup
equation below needs no two stored keys to meet.
-/
def rekey
    (map : FMap Key Value)
    (place : Key → Option Key) :
    FMap Key Value :=
  (map.entries.filterMap fun entry =>
    (place entry.1).map fun key =>
      (⟨key, entry.2⟩ : Sigma fun _ : Key => Value)).toAList

/-- The number of stored keys. -/
def size
    (map : FMap Key Value) : Nat :=
  (AList.keys map).length

/-- The stored pairs, in an order nothing may depend on. -/
def toList
    (map : FMap Key Value) :
    List (Key × Value) :=
  map.entries.map (fun entry => (entry.1, entry.2))

@[simp] theorem get?_empty
    (key : Key) :
    (∅ : FMap Key Value).get? key = none :=
  AList.lookup_empty key

theorem get?_set
    (map : FMap Key Value)
    (key query : Key)
    (value : Value) :
    (map.set key value).get? query =
      if query = key then some value else map.get? query := by
  by_cases same : query = key
  · subst same
    simp [get?, set]
  · simp [get?, set, AList.lookup_insert_ne same, same]

@[simp] theorem get?_set_self
    (map : FMap Key Value)
    (key : Key)
    (value : Value) :
    (map.set key value).get? key = some value := by
  simp [get?_set]

theorem get?_set_of_ne
    (map : FMap Key Value)
    {key query : Key}
    (different : query ≠ key)
    (value : Value) :
    (map.set key value).get? query = map.get? query := by
  simp [get?_set, different]

theorem get?_remove
    (map : FMap Key Value)
    (key query : Key) :
    (map.remove key).get? query =
      if query = key then none else map.get? query := by
  by_cases same : query = key
  · subst same
    simp [get?, remove]
  · simp [get?, remove, AList.lookup_erase_ne same, same]

@[simp] theorem get?_remove_self
    (map : FMap Key Value)
    (key : Key) :
    (map.remove key).get? key = none := by
  simp [get?_remove]

theorem get?_modify
    (map : FMap Key Value)
    (key query : Key)
    (change : Value → Value) :
    (map.modify key change).get? query =
      if query = key then (map.get? key).map change
      else map.get? query := by
  unfold modify
  cases found : map.get? key with
  | none =>
      by_cases same : query = key
      · subst same
        simp [found]
      · simp [same]
  | some value =>
      simp [get?_set]

theorem get?_modify_of_ne
    (map : FMap Key Value)
    {key query : Key}
    (different : query ≠ key)
    (change : Value → Value) :
    (map.modify key change).get? query = map.get? query := by
  simp [get?_modify, different]

theorem contains_iff
    {map : FMap Key Value}
    {key : Key} :
    map.contains key = true ↔ ∃ value, map.get? key = some value := by
  simp [contains, Option.isSome_iff_exists]

/-- Membership of the key list is the same as a successful lookup. -/
theorem mem_keys_iff
    {map : FMap Key Value}
    {key : Key} :
    key ∈ AList.keys map ↔ (map.get? key).isSome := by
  rw [← AList.mem_keys, get?, AList.lookup_isSome]

/-- A map without values is the empty map. -/
theorem eq_empty_of_get?
    {map : FMap Key Value}
    (nothing : ∀ key, map.get? key = none) :
    map = ∅ := by
  refine AList.ext (List.eq_nil_iff_forall_not_mem.mpr fun entry listed => ?_)
  have isKey : entry.1 ∈ AList.keys map := List.mem_map.mpr ⟨entry, listed, rfl⟩
  rw [mem_keys_iff, nothing] at isKey
  cases isKey

/-- Removing a key that is not stored changes nothing. -/
theorem remove_of_absent
    {map : FMap Key Value}
    {key : Key}
    (absent : map.get? key = none) :
    map.remove key = map := by
  have unlisted : key ∉ AList.keys map := by
    rw [mem_keys_iff, absent]
    simp
  exact AList.ext (List.kerase_of_notMem_keys unlisted)

/-- A pair is listed exactly when it is stored. -/
theorem mem_toList_iff
    {map : FMap Key Value}
    {key : Key}
    {value : Value} :
    (key, value) ∈ map.toList ↔ map.get? key = some value := by
  constructor
  · intro listed
    obtain ⟨entry, member, same⟩ := List.mem_map.mp listed
    obtain ⟨entryKey, entryValue⟩ := entry
    simp only [Prod.mk.injEq] at same
    obtain ⟨rfl, rfl⟩ := same
    exact AList.mem_lookup_iff.mpr member
  · intro stored
    exact List.mem_map.mpr
      ⟨⟨key, value⟩, AList.mem_lookup_iff.mp stored, rfl⟩

/-- A moved map holds values of the old map only. -/
theorem exists_of_get?_rekey
    {map : FMap Key Value}
    {place : Key → Option Key}
    {query : Key}
    {value : Value}
    (stored : (map.rekey place).get? query = some value) :
    ∃ key, map.get? key = some value ∧ place key = some query := by
  rw [get?, rekey, AList.lookup_to_alist, ← Option.mem_def] at stored
  have member := List.of_mem_dlookup stored
  obtain ⟨entry, entryMember, placed⟩ := List.mem_filterMap.mp member
  obtain ⟨key, keyPlaced, same⟩ := Option.map_eq_some_iff.mp placed
  cases same
  exact ⟨entry.1, AList.mem_lookup_iff.mpr entryMember, keyPlaced⟩

/-- Where a moved map stores a value: at the place of the old key. -/
theorem get?_rekey_eq_some
    {map : FMap Key Value}
    {place : Key → Option Key}
    (apart :
      ∀ first second query,
        (map.get? first).isSome → (map.get? second).isSome →
        place first = some query → place second = some query →
        first = second)
    {query : Key}
    {value : Value} :
    (map.rekey place).get? query = some value ↔
      ∃ key, map.get? key = some value ∧ place key = some query := by
  have distinct :
      (map.entries.filterMap fun entry =>
        (place entry.1).map fun key =>
          (⟨key, entry.2⟩ : Sigma fun _ : Key => Value)).NodupKeys := by
    rw [List.nodupKeys_iff_pairwise, List.pairwise_filterMap]
    have pairs := List.nodupKeys_iff_pairwise.mp map.nodupKeys
    refine pairs.imp_of_mem ?_
    intro first second firstMember secondMember different
      placedFirst firstPlaced placedSecond secondPlaced same
    obtain ⟨firstKey, firstAt, rfl⟩ := Option.map_eq_some_iff.mp firstPlaced
    obtain ⟨secondKey, secondAt, rfl⟩ :=
      Option.map_eq_some_iff.mp secondPlaced
    have firstStored : (map.get? first.1).isSome := by
      rw [show map.get? first.1 = some first.2 from
        AList.mem_lookup_iff.mpr firstMember]
      rfl
    have secondStored : (map.get? second.1).isSome := by
      rw [show map.get? second.1 = some second.2 from
        AList.mem_lookup_iff.mpr secondMember]
      rfl
    simp only at same
    exact different
      (apart first.1 second.1 firstKey firstStored secondStored
        firstAt (same ▸ secondAt))
  rw [get?, rekey, AList.lookup_to_alist, ← Option.mem_def,
    List.mem_dlookup_iff distinct, List.mem_filterMap]
  constructor
  · rintro ⟨entry, member, placed⟩
    obtain ⟨key, placedAt, same⟩ := Option.map_eq_some_iff.mp placed
    obtain ⟨entryKey, entryValue⟩ := entry
    simp only [Sigma.mk.injEq, heq_eq_eq] at same
    obtain ⟨rfl, rfl⟩ := same
    exact ⟨entryKey, AList.mem_lookup_iff.mpr member, placedAt⟩
  · rintro ⟨key, stored, placedAt⟩
    exact ⟨⟨key, value⟩, AList.mem_lookup_iff.mp stored,
      by simp [placedAt]⟩

/-- When every place has at most one origin, a moved map is read there. -/
theorem get?_rekey
    {map : FMap Key Value}
    {place origin : Key → Option Key}
    (inverse : ∀ key query, place key = some query ↔ origin query = some key)
    (query : Key) :
    (map.rekey place).get? query = (origin query).bind map.get? := by
  apply Option.ext
  intro value
  rw [get?_rekey_eq_some, Option.bind_eq_some_iff]
  · constructor
    · rintro ⟨key, stored, placed⟩
      exact ⟨key, (inverse key query).mp placed, stored⟩
    · rintro ⟨key, comes, stored⟩
      exact ⟨key, stored, (inverse key query).mpr comes⟩
  · intro first second meeting _ _ firstPlaced secondPlaced
    have firstOrigin := (inverse first meeting).mp firstPlaced
    have secondOrigin := (inverse second meeting).mp secondPlaced
    exact Option.some.inj (firstOrigin.symm.trans secondOrigin)

omit [DecidableEq Key] in
@[simp] theorem size_empty :
    (∅ : FMap Key Value).size = 0 :=
  rfl

/-- Storing a new key grows the map by one. -/
theorem size_set_of_absent
    {map : FMap Key Value}
    {key : Key}
    (absent : map.get? key = none)
    (value : Value) :
    (map.set key value).size = map.size + 1 := by
  have notListed : key ∉ AList.keys map := by
    rw [mem_keys_iff, absent]
    simp
  simp [size, set, List.erase_of_not_mem notListed]

/-- Replacing a stored value keeps the number of keys. -/
theorem size_set_of_present
    {map : FMap Key Value}
    {key : Key}
    (present : (map.get? key).isSome)
    (value : Value) :
    (map.set key value).size = map.size := by
  have listed : key ∈ AList.keys map :=
    mem_keys_iff.mpr present
  have positive : 0 < (AList.keys map).length :=
    List.length_pos_of_mem listed
  simp only [size, set, AList.keys_insert, List.length_cons,
    List.length_erase_of_mem listed]
  omega

/-- Dropping a stored key shrinks the map by one. -/
theorem size_remove_of_present
    {map : FMap Key Value}
    {key : Key}
    (present : (map.get? key).isSome) :
    (map.remove key).size + 1 = map.size := by
  have listed : key ∈ AList.keys map :=
    mem_keys_iff.mpr present
  have positive : 0 < (AList.keys map).length :=
    List.length_pos_of_mem listed
  simp only [size, remove, AList.keys_erase,
    List.length_erase_of_mem listed]
  omega

/-- Distinct stored keys are at most as many as the map has. -/
theorem length_le_size
    {map : FMap Key Value}
    {keys : List Key}
    (distinct : keys.Nodup)
    (stored : ∀ key ∈ keys, ∃ value, map.get? key = some value) :
    keys.length ≤ map.size := by
  refine (List.subperm_of_subset distinct fun key among => ?_).length_le
  obtain ⟨value, found⟩ := stored key among
  rw [mem_keys_iff, found]
  rfl

/-- The number of stored values with a property. -/
def count
    (map : FMap Key Value)
    (counted : Value → Bool) : Nat :=
  map.entries.countP fun entry => counted entry.2

/-- What one value adds to a count. -/
def weight
    (counted : Value → Bool) :
    Option Value → Nat
  | none => 0
  | some value => if counted value then 1 else 0

omit [DecidableEq Key] in
@[simp] theorem count_empty
    (counted : Value → Bool) :
    (∅ : FMap Key Value).count counted = 0 :=
  rfl

/-- A dropped value leaves the count. -/
theorem count_remove
    (map : FMap Key Value)
    (key : Key)
    (counted : Value → Bool) :
    (map.remove key).count counted + weight counted (map.get? key) =
      map.count counted := by
  cases found : map.get? key with
  | none =>
      rw [remove_of_absent found]
      rfl
  | some value =>
      have listed : key ∈ AList.keys map := by
        rw [mem_keys_iff, found]
        rfl
      obtain ⟨stored, before, after, -, shape, erased⟩ :=
        List.exists_of_kerase listed
      have same : map.get? key = some stored := by
        apply AList.mem_lookup_iff.mpr
        rw [shape]
        simp
      rw [found] at same
      cases same
      unfold count
      rw [show (map.remove key).entries = before ++ after from erased, shape]
      simp only [List.countP_append, List.countP_cons, weight]
      omega

/-- A stored value enters the count in place of the old one. -/
theorem count_set
    (map : FMap Key Value)
    (key : Key)
    (value : Value)
    (counted : Value → Bool) :
    (map.set key value).count counted + weight counted (map.get? key) =
      map.count counted + weight counted (some value) := by
  have removed := count_remove map key counted
  have entered :
      (map.set key value).count counted =
        (map.remove key).count counted + weight counted (some value) := by
    unfold count
    rw [show (map.set key value).entries =
      ⟨key, value⟩ :: (map.remove key).entries from AList.entries_insert,
      List.countP_cons]
    rfl
  omega

/-- A value with the property is counted. -/
theorem count_pos
    {map : FMap Key Value}
    {key : Key}
    {value : Value}
    {counted : Value → Bool}
    (stored : map.get? key = some value)
    (holds : counted value = true) :
    0 < map.count counted := by
  have removed := count_remove map key counted
  rw [stored] at removed
  simp only [weight, holds, ↓reduceIte] at removed
  omega

end FMap

end FuseOverlay
