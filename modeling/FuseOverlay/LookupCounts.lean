import FuseOverlay.InodeTableInvariant

namespace FuseOverlay

/-!
# Lookup counts and the references of the kernel

The kernel holds a number of lookups of every FUSE inode number: one more with
every reply that carries the number, fewer with every `forget`.  `Counted`
relates these to the table: the entry of a number counts what the kernel holds
of it, and the kernel holds nothing of a number that is free to be given out.
-/

namespace InodeTable

/-! ## The counter -/

theorem ofNat_succ
    (count : Nat) :
    Int64.ofNat count + 1 = Int64.ofNat (count + 1) :=
  (Int64.ofNat_add count 1).symm

theorem ofNat_sub_toInt64
    {count : Nat}
    {nlookup : UInt64}
    (atMost : nlookup.toNat ≤ count) :
    Int64.ofNat count - nlookup.toInt64 =
      Int64.ofNat (count - nlookup.toNat) := by
  have converted : nlookup.toInt64 = Int64.ofNat nlookup.toNat := by
    apply Int64.toBitVec_inj.mp
    simp
  rw [converted, Int64.sub_eq_iff_eq_add, ← Int64.ofNat_add,
    Nat.sub_add_cancel atMost]

theorem ofNat_le_zero
    {count : Nat}
    (small : count < 2 ^ 63) :
    Int64.ofNat count ≤ 0 ↔ count = 0 := by
  rw [Int64.le_iff_toInt_le, Int64.toInt_ofNat_of_lt small]
  simp

/-! ## The relation -/

/-- The counters of the table are what the kernel holds. -/
structure Counted
    (held : UInt64 → Nat)
    (inodes : InodeTable) : Prop where
  consistent : Consistent inodes
  current :
    ∀ {key entry}, inodes.table.get? key = some entry →
      entry.lookups = Int64.ofNat (held entry.fuseIno)
  dropped :
    ∀ {number}, 2 ≤ number → inodes.fuseMap.get? number = none →
      held number = 0

theorem new_counted
    (same : Bool) :
    Counted (fun _ => 0) (new.setSameDevice same) where
  consistent := new_consistent same
  current := by
    intro key entry stored
    simp [new, setSameDevice] at stored
  dropped := fun _ _ => rfl

/-- What a new entry is, and that its number was free. -/
theorem registerNew_shape
    {inodes inodes' : InodeTable}
    {nodeId : NodeId}
    {key : InodeKey}
    {mode : Mode}
    {fuseIno : UInt64}
    (added : inodes.registerNew nodeId key mode = some (fuseIno, inodes')) :
    2 ≤ fuseIno ∧ inodes.fuseMap.get? fuseIno = none ∧
      inodes'.fuseMap = inodes.fuseMap.set fuseIno key ∧
      inodes'.table = inodes.table.set key ⟨[nodeId], 0, mode, fuseIno⟩ := by
  unfold InodeTable.registerNew at added
  split at added
  · cases added
  · next picked counter found =>
      simp only [Option.some.injEq, Prod.mk.injEq] at added
      obtain ⟨rfl, rfl⟩ := added
      obtain ⟨unused, atLeast⟩ := probe_sound found
      exact ⟨atLeast, unused, rfl, rfl⟩

namespace Counted

variable
  {held : UInt64 → Nat}
  {inodes : InodeTable}

/-- A new entry starts with nothing held of its number. -/
theorem registerNew
    (counted : Counted held inodes)
    {table : FMap InodeKey OvlIno}
    {statInodes : Int}
    {key : InodeKey}
    (others :
      ∀ other, other ≠ key → table.get? other = inodes.table.get? other)
    {inodes' : InodeTable}
    {nodeId : NodeId}
    {mode : Mode}
    {fuseIno : UInt64}
    (added :
      { inodes with table := table, statInodes := statInodes }.registerNew
        nodeId key mode = some (fuseIno, inodes'))
    (consistent : Consistent inodes') :
    Counted held inodes' ∧ held fuseIno = 0 := by
  obtain ⟨atLeast, unused, numbers, entries⟩ := registerNew_shape added
  have free : held fuseIno = 0 := counted.dropped atLeast unused
  refine ⟨⟨consistent, ?_, ?_⟩, free⟩
  · intro query entry stored
    rw [entries, FMap.get?_set] at stored
    split at stored
    · cases stored
      simp [free]
    · next different =>
        rw [others query different] at stored
        exact counted.current stored
  · intro number inRange absent
    rw [numbers, FMap.get?_set] at absent
    split at absent
    · cases absent
    · exact counted.dropped inRange absent

/-- `register` keeps the counts; a number it newly gives out is not held. -/
theorem register
    (counted : Counted held inodes)
    {inodes' : InodeTable}
    {order : HashOrder}
    {arena : NodeArena}
    {nodeId : NodeId}
    {ino dev : UInt64}
    {mode : Mode}
    {fuseIno : UInt64}
    (registered :
      inodes.register order arena nodeId ino dev mode =
        some (fuseIno, inodes')) :
    Counted held inodes' ∧
      (¬ HasLiveNode ⟨arena, inodes⟩ ⟨ino, dev⟩ → held fuseIno = 0) := by
  have consistent := (counted.consistent.register registered).1
  rcases register_cases registered with
    ⟨absent, added⟩ | ⟨existing, stored, allDead, added⟩ |
    ⟨existing, changed, stored, ⟨id, member, live⟩, ⟨sameNumber, sameCount⟩, -,
      rfl, rfl⟩
  · obtain ⟨kept, free⟩ := counted.registerNew (fun _ _ => rfl) added
      consistent
    exact ⟨kept, fun _ => free⟩
  · obtain ⟨kept, free⟩ := counted.registerNew
      (fun other different => by simp [FMap.get?_remove, different]) added
      consistent
    exact ⟨kept, fun _ => free⟩
  · refine ⟨⟨consistent, ?_, counted.dropped⟩, ?_⟩
    · intro query entry queried
      rw [FMap.get?_set] at queried
      split at queried
      · cases queried
        rw [sameCount, sameNumber]
        exact counted.current stored
      · exact counted.current queried
    · intro dead
      exact absurd ⟨existing, stored, id, member, live⟩ dead

theorem removeNodeId
    (counted : Counted held inodes)
    (key : InodeKey)
    (nodeId : NodeId) :
    Counted held (inodes.removeNodeId key nodeId) where
  consistent := counted.consistent.removeNodeId key nodeId
  current := by
    intro query entry stored
    simp only [InodeTable.removeNodeId, FMap.get?_modify] at stored
    split at stored
    · obtain ⟨old, oldStored, rfl⟩ := Option.map_eq_some_iff.mp stored
      have counts := counted.current oldStored
      exact counts
    · exact counted.current stored
  dropped := counted.dropped

/-- The kernel is given one more lookup of a number. -/
theorem incLookup
    (counted : Counted held inodes)
    {key : InodeKey}
    {entry : OvlIno}
    (stored : inodes.table.get? key = some entry) :
    Counted (Function.update held entry.fuseIno (held entry.fuseIno + 1))
      (inodes.incLookup key) where
  consistent := counted.consistent.incLookup key
  current := by
    intro query found queried
    simp only [InodeTable.incLookup, FMap.get?_modify] at queried
    split at queried
    · rw [stored] at queried
      cases queried
      simp only [Function.update_self]
      rw [counted.current stored, ofNat_succ]
    · next different =>
        have otherNumber : found.fuseIno ≠ entry.fuseIno := by
          intro same
          exact different
            (counted.consistent.key_unique queried stored same)
        rw [Function.update_of_ne otherNumber]
        exact counted.current queried
  dropped := by
    intro number inRange absent
    have other : number ≠ entry.fuseIno := by
      rintro rfl
      have taken := (counted.consistent.numbered key entry stored).2
      change inodes.fuseMap.get? entry.fuseIno = none at absent
      rw [absent] at taken
      cases taken
    rw [Function.update_of_ne other]
    exact counted.dropped inRange absent

/-- A key without an entry gives the kernel nothing. -/
theorem incLookup_absent
    (counted : Counted held inodes)
    {key : InodeKey}
    (absent : inodes.table.get? key = none) :
    Counted held (inodes.incLookup key) where
  consistent := counted.consistent.incLookup key
  current := by
    intro query found queried
    simp only [InodeTable.incLookup, FMap.get?_modify, absent] at queried
    split at queried
    · cases queried
    · exact counted.current queried
  dropped := counted.dropped

end Counted

/-! ## Forgetting -/

/-- A number in the reverse map that is not its key's current one. -/
def Stale
    (inodes : InodeTable)
    (number : UInt64) : Prop :=
  ∃ key, inodes.fuseMap.get? number = some key ∧
    ∀ entry, inodes.table.get? key = some entry → entry.fuseIno ≠ number

/-- What `forget` does to a current number. -/
theorem forget_current
    {inodes : InodeTable}
    (consistent : Consistent inodes)
    {key : InodeKey}
    {entry : OvlIno}
    (stored : inodes.table.get? key = some entry)
    (nlookup : UInt64) :
    (inodes.forget entry.fuseIno nlookup).2 =
      if entry.lookups - nlookup.toInt64 ≤ 0 then
        { inodes with
          table := inodes.table.remove key
          fuseMap := inodes.fuseMap.remove entry.fuseIno
          statInodes := inodes.statInodes - 1 }
      else
        { inodes with
          table := inodes.table.set key
            { entry with lookups := entry.lookups - nlookup.toInt64 } } := by
  obtain ⟨atLeast, pointed⟩ := consistent.numbered key entry stored
  have ordinary : ¬ (entry.fuseIno = 1 ∨ entry.fuseIno = 0) := by
    rintro (isOne | isZero)
    · rw [isOne] at atLeast
      exact absurd atLeast (by decide)
    · rw [isZero] at atLeast
      exact absurd atLeast (by decide)
  simp only [InodeTable.forget, ordinary, pointed, stored, ne_eq,
    not_true_eq_false, ↓reduceIte]
  split <;> rfl

/-- What `forget` does to any other number. -/
theorem forget_other
    {inodes : InodeTable}
    {number : UInt64}
    (noEntry :
      ∀ key entry, inodes.table.get? key = some entry →
        entry.fuseIno ≠ number)
    (nlookup : UInt64) :
    (inodes.forget number nlookup).2 = inodes ∨
      Stale inodes number ∧
        (inodes.forget number nlookup).2 =
          { inodes with fuseMap := inodes.fuseMap.remove number } := by
  by_cases reserved : number = 1 ∨ number = 0
  · exact .inl (by simp [InodeTable.forget, reserved])
  · cases pointed : inodes.fuseMap.get? number with
    | none =>
        exact .inl (by simp [InodeTable.forget, reserved, pointed])
    | some key =>
        refine .inr ⟨⟨key, pointed, noEntry key⟩, ?_⟩
        cases stored : inodes.table.get? key with
        | none =>
            simp [InodeTable.forget, reserved, pointed, stored]
        | some entry =>
            simp [InodeTable.forget, reserved, pointed, stored,
              noEntry key entry stored]

namespace Counted

variable
  {held : UInt64 → Nat}
  {inodes : InodeTable}

/-- The entry of a number goes with the last lookup that is held of it. -/
theorem forget_drops_iff
    (counted : Counted held inodes)
    {key : InodeKey}
    {entry : OvlIno}
    (stored : inodes.table.get? key = some entry)
    {nlookup : UInt64}
    (atMost : nlookup.toNat ≤ held entry.fuseIno)
    (small : held entry.fuseIno - nlookup.toNat < 2 ^ 63) :
    (inodes.forget entry.fuseIno nlookup).2.table.get? key = none ↔
      nlookup.toNat = held entry.fuseIno := by
  rw [forget_current counted.consistent stored, counted.current stored,
    ofNat_sub_toInt64 atMost]
  split
  · next last =>
      rw [ofNat_le_zero small] at last
      simp only [FMap.get?_remove_self, true_iff]
      omega
  · next more =>
      rw [ofNat_le_zero small] at more
      simp only [FMap.get?_set_self, reduceCtorEq, false_iff]
      omega

/-- `forget` keeps the counts, if a stale number is forgotten all at once. -/
theorem forget
    (counted : Counted held inodes)
    {number nlookup : UInt64}
    (atMost : nlookup.toNat ≤ held number)
    (complete : Stale inodes number → nlookup.toNat = held number)
    (small : held number - nlookup.toNat < 2 ^ 63) :
    Counted (Function.update held number (held number - nlookup.toNat))
      (inodes.forget number nlookup).2 := by
  have consistent := counted.consistent.forget number nlookup
  by_cases isCurrent :
      ∃ key entry, inodes.table.get? key = some entry ∧
        entry.fuseIno = number
  · obtain ⟨key, entry, stored, rfl⟩ := isCurrent
    have others :
        ∀ {query found}, query ≠ key →
          inodes.table.get? query = some found →
          found.lookups = Int64.ofNat
            (Function.update held entry.fuseIno
              (held entry.fuseIno - nlookup.toNat) found.fuseIno) := by
      intro query found different queried
      have otherNumber : found.fuseIno ≠ entry.fuseIno := by
        intro same
        exact different (counted.consistent.key_unique queried stored same)
      rw [Function.update_of_ne otherNumber]
      exact counted.current queried
    rw [forget_current counted.consistent stored, counted.current stored,
      ofNat_sub_toInt64 atMost] at consistent ⊢
    split
    · next last =>
        rw [if_pos last] at consistent
        rw [ofNat_le_zero small] at last
        refine ⟨consistent, ?_, ?_⟩
        · intro query found queried
          rw [FMap.get?_remove] at queried
          split at queried
          · cases queried
          · next different => exact others different queried
        · intro free inRange absent
          by_cases same : free = entry.fuseIno
          · rw [same, Function.update_self, last]
          · rw [Function.update_of_ne same]
            simp only [FMap.get?_remove, same, ↓reduceIte] at absent
            exact counted.dropped inRange absent
    · next more =>
        rw [if_neg more] at consistent
        refine ⟨consistent, ?_, ?_⟩
        · intro query found queried
          rw [FMap.get?_set] at queried
          split at queried
          · cases queried
            simp
          · next different => exact others different queried
        · intro free inRange absent
          have other : free ≠ entry.fuseIno := by
            rintro rfl
            have taken :=
              (counted.consistent.numbered key entry stored).2
            rw [absent] at taken
            cases taken
          rw [Function.update_of_ne other]
          exact counted.dropped inRange absent
  · have noEntry :
        ∀ key entry, inodes.table.get? key = some entry →
          entry.fuseIno ≠ number := by
      intro key entry stored same
      exact isCurrent ⟨key, entry, stored, same⟩
    have current :
        ∀ {key entry}, inodes.table.get? key = some entry →
          entry.lookups = Int64.ofNat
            (Function.update held number
              (held number - nlookup.toNat) entry.fuseIno) := by
      intro key entry stored
      rw [Function.update_of_ne (noEntry key entry stored)]
      exact counted.current stored
    rcases forget_other noEntry nlookup with unchanged | ⟨stale, dropped⟩
    · rw [unchanged]
      refine ⟨counted.consistent, current, ?_⟩
      intro free inRange absent
      by_cases same : free = number
      · subst same
        rw [Function.update_self, counted.dropped inRange absent,
          Nat.zero_sub]
      · rw [Function.update_of_ne same]
        exact counted.dropped inRange absent
    · rw [dropped] at consistent ⊢
      refine ⟨consistent, current, ?_⟩
      intro free inRange absent
      by_cases same : free = number
      · rw [same, Function.update_self, complete stale, Nat.sub_self]
      · rw [Function.update_of_ne same]
        simp only [FMap.get?_remove, same, ↓reduceIte] at absent
        exact counted.dropped inRange absent

end Counted

/-! ## Incarnations of a number -/

/--
The table with the kernel beside it.  A number has one incarnation after
another; `held` lists the incarnations for which the lookups the kernel still
holds of a number were granted, oldest first.
-/
structure Tracked where
  world : World
  held : UInt64 → List Nat
  incarnation : UInt64 → Nat

namespace Tracked

/-- How many lookups of a number the kernel holds. -/
def count
    (tracked : Tracked)
    (number : UInt64) : Nat :=
  (tracked.held number).length

end Tracked

/--
One call with the kernel beside it.  A number that `register` gives to a key
without a live node starts a new incarnation; the kernel forgets no more than
it holds.
-/
inductive TrackedStep : Tracked → Call → Tracked → Prop where
  | again
      {tracked : Tracked}
      {order : HashOrder}
      {nodeId : NodeId}
      {ino dev : UInt64}
      {mode : Mode}
      {fuseIno : UInt64}
      {inodes : InodeTable}
      (returned :
        tracked.world.inodes.register order tracked.world.arena nodeId ino dev
          mode = some (fuseIno, inodes))
      (live : HasLiveNode tracked.world ⟨ino, dev⟩) :
      TrackedStep tracked (.register order nodeId ino dev mode)
        { tracked with world := ⟨tracked.world.arena, inodes⟩ }
  | anew
      {tracked : Tracked}
      {order : HashOrder}
      {nodeId : NodeId}
      {ino dev : UInt64}
      {mode : Mode}
      {fuseIno : UInt64}
      {inodes : InodeTable}
      (returned :
        tracked.world.inodes.register order tracked.world.arena nodeId ino dev
          mode = some (fuseIno, inodes))
      (dead : ¬ HasLiveNode tracked.world ⟨ino, dev⟩) :
      TrackedStep tracked (.register order nodeId ino dev mode)
        { tracked with
          world := ⟨tracked.world.arena, inodes⟩
          incarnation := Function.update tracked.incarnation fuseIno
            (tracked.incarnation fuseIno + 1) }
  | granted
      {tracked : Tracked}
      {key : InodeKey}
      {entry : OvlIno}
      (stored : tracked.world.inodes.table.get? key = some entry) :
      TrackedStep tracked (.incLookup key)
        { tracked with
          world := ⟨tracked.world.arena, tracked.world.inodes.incLookup key⟩
          held := Function.update tracked.held entry.fuseIno
            (tracked.held entry.fuseIno ++
              [tracked.incarnation entry.fuseIno]) }
  | missed
      {tracked : Tracked}
      {key : InodeKey}
      (absent : tracked.world.inodes.table.get? key = none) :
      TrackedStep tracked (.incLookup key)
        { tracked with
          world := ⟨tracked.world.arena, tracked.world.inodes.incLookup key⟩ }
  | removeNodeId
      (tracked : Tracked)
      (key : InodeKey)
      (nodeId : NodeId) :
      TrackedStep tracked (.removeNodeId key nodeId)
        { tracked with
          world := ⟨tracked.world.arena,
            tracked.world.inodes.removeNodeId key nodeId⟩ }
  | forget
      {tracked : Tracked}
      {number nlookup : UInt64}
      (atMost : nlookup.toNat ≤ tracked.count number) :
      TrackedStep tracked (.forget number nlookup)
        { tracked with
          world := ⟨tracked.world.arena,
            (tracked.world.inodes.forget number nlookup).2⟩
          held := Function.update tracked.held number
            ((tracked.held number).drop nlookup.toNat) }
  | arena
      (tracked : Tracked)
      {next : NodeArena}
      (acyclic : next.Acyclic) :
      TrackedStep tracked (.arena next)
        { tracked with world := ⟨next, tracked.world.inodes⟩ }

/-- The states reached from a new table by calls that meet a condition. -/
inductive History
    (same : Bool)
    (condition : Tracked → Call → Prop) :
    Tracked → Prop where
  | start
      {arena : NodeArena}
      (acyclic : arena.Acyclic) :
      History same condition
        ⟨⟨arena, new.setSameDevice same⟩, fun _ => [], fun _ => 0⟩
  | step
      {tracked tracked' : Tracked}
      {call : Call}
      (earlier : History same condition tracked)
      (taken : TrackedStep tracked call tracked')
      (allowed : condition tracked call) :
      History same condition tracked'

/--
A stale number is forgotten all at once, and what is left of a number fits the
counter.
-/
def ForgetsWhole
    (tracked : Tracked) :
    Call → Prop
  | .forget number nlookup =>
      (Stale tracked.world.inodes number →
        nlookup.toNat = tracked.count number) ∧
      tracked.count number - nlookup.toNat < 2 ^ 63
  | _ => True

/-- The counts agree and every held lookup is one of the last incarnation. -/
structure Traced (tracked : Tracked) : Prop where
  counted : Counted tracked.count tracked.world.inodes
  latest :
    ∀ {number granted}, granted ∈ tracked.held number →
      granted = tracked.incarnation number

theorem Traced.start
    (same : Bool)
    (arena : NodeArena) :
    Traced ⟨⟨arena, new.setSameDevice same⟩, fun _ => [], fun _ => 0⟩ where
  counted := new_counted same
  latest := by
    intro number granted member
    cases member

/-- A call keeps the trace. -/
theorem TrackedStep.traced
    {tracked tracked' : Tracked}
    {call : Call}
    (taken : TrackedStep tracked call tracked')
    (traced : Traced tracked)
    (allowed : ForgetsWhole tracked call) :
    Traced tracked' := by
  cases taken with
  | again returned live =>
      exact ⟨(traced.counted.register returned).1, traced.latest⟩
  | @anew order nodeId ino dev mode fuseIno inodes returned dead =>
      obtain ⟨counted, free⟩ := traced.counted.register returned
      refine ⟨counted, ?_⟩
      intro number granted member
      have other : number ≠ fuseIno := by
        rintro rfl
        have none := List.length_eq_zero_iff.mp (free dead)
        simp only at member
        rw [none] at member
        cases member
      simp only [Function.update_of_ne other]
      exact traced.latest member
  | @granted key entry stored =>
      refine ⟨?_, ?_⟩
      · have counted := traced.counted.incLookup stored
        have counts :
            Function.update tracked.count entry.fuseIno
                (tracked.count entry.fuseIno + 1) =
              fun number =>
                (Function.update tracked.held entry.fuseIno
                  (tracked.held entry.fuseIno ++
                    [tracked.incarnation entry.fuseIno]) number).length := by
          funext number
          by_cases same : number = entry.fuseIno
          · simp [same, Tracked.count]
          · simp [same, Tracked.count]
        rw [counts] at counted
        exact counted
      · intro number granted member
        by_cases same : number = entry.fuseIno
        · subst same
          simp only [Function.update_self, List.mem_append,
            List.mem_singleton] at member
          rcases member with old | rfl
          · exact traced.latest old
          · rfl
        · simp only [Function.update_of_ne same] at member
          exact traced.latest member
  | missed absent =>
      exact ⟨traced.counted.incLookup_absent absent, traced.latest⟩
  | removeNodeId key nodeId =>
      exact ⟨traced.counted.removeNodeId key nodeId, traced.latest⟩
  | @forget number nlookup atMost =>
      refine ⟨?_, ?_⟩
      · have counted := traced.counted.forget atMost allowed.1 allowed.2
        have counts :
            Function.update tracked.count number
                (tracked.count number - nlookup.toNat) =
              fun query =>
                (Function.update tracked.held number
                  ((tracked.held number).drop nlookup.toNat)
                  query).length := by
          funext query
          by_cases same : query = number
          · simp [same, Tracked.count]
          · simp [same, Tracked.count]
        rw [counts] at counted
        exact counted
      · intro query granted member
        by_cases same : query = number
        · subst same
          simp only [Function.update_self] at member
          exact traced.latest (List.mem_of_mem_drop member)
        · simp only [Function.update_of_ne same] at member
          exact traced.latest member
  | arena acyclic =>
      exact ⟨traced.counted, traced.latest⟩

theorem History.traced
    {same : Bool}
    {tracked : Tracked}
    (reached : History same ForgetsWhole tracked) :
    Traced tracked := by
  induction reached with
  | start acyclic =>
      exact .start same _
  | step earlier taken allowed inductionHypothesis =>
      exact taken.traced inductionHypothesis allowed

/--
When `register` returns a number, every lookup that the kernel still holds of
it was granted for the present incarnation of the number.
-/
theorem number_not_reused
    {same : Bool}
    {tracked tracked' : Tracked}
    (reached : History same ForgetsWhole tracked)
    {order : HashOrder}
    {nodeId : NodeId}
    {ino dev : UInt64}
    {mode : Mode}
    (taken :
      TrackedStep tracked (.register order nodeId ino dev mode) tracked')
    {fuseIno : UInt64}
    {inodes : InodeTable}
    (returned :
      tracked.world.inodes.register order tracked.world.arena nodeId ino dev
        mode = some (fuseIno, inodes)) :
    tracked'.world.inodes = inodes ∧
      ∀ granted ∈ tracked'.held fuseIno,
        granted = tracked'.incarnation fuseIno := by
  have traced := taken.traced reached.traced trivial
  refine ⟨?_, fun granted member => traced.latest member⟩
  cases taken with
  | again again live =>
      rw [again] at returned
      cases returned
      rfl
  | anew again dead =>
      rw [again] at returned
      cases returned
      rfl

/-- A file without a parent. -/
def loneFile : OvlNode :=
  OvlNode.new [] 0 100 1 false

/-- An arena whose only node has the given number. -/
def loneArena (id : NodeId) : NodeArena :=
  ⟨(∅ : FMap NodeId OvlNode).set id loneFile, id + 1⟩

theorem loneArena_acyclic
    (id : NodeId) :
    (loneArena id).Acyclic := by
  intro start cycle
  obtain ⟨parent, ⟨node, stored, points⟩, -⟩ :=
    Relation.TransGen.head'_iff.mp cycle
  simp only [loneArena, NodeArena.get?, FMap.get?_set] at stored
  split at stored
  · cases stored
    cases points
  · simp at stored

theorem dead_of_absent
    {world : World}
    {key : InodeKey}
    (absent : world.inodes.table.get? key = none) :
    ¬ HasLiveNode world key := by
  rintro ⟨entry, stored, -⟩
  rw [absent] at stored
  cases stored

theorem dead_of_lone
    {world : World}
    {key : InodeKey}
    {entry : OvlIno}
    {id : NodeId}
    (stored : world.inodes.table.get? key = some entry)
    (lone : entry.nodes = [id])
    (dead : world.arena.containsKey id = false) :
    ¬ HasLiveNode world key := by
  rintro ⟨found, foundStored, other, member, live⟩
  rw [stored] at foundStored
  cases foundStored
  rw [lone, List.mem_singleton] at member
  rw [member, dead] at live
  cases live

/-- A number that was forgotten is given out again. -/
theorem number_not_reused_forgotten :
    ∃ tracked : Tracked,
      tracked.incarnation 100 = 2 ∧
        ∀ granted ∈ tracked.held 100, granted = tracked.incarnation 100 := by
  have first : History true ForgetsWhole _ :=
    .step (.start (loneArena_acyclic 1))
      (@TrackedStep.anew _ .front 1 100 1 .zero _ _ rfl (dead_of_absent rfl))
      trivial
  have second : History true ForgetsWhole _ :=
    .step first (@TrackedStep.granted _ ⟨100, 1⟩ _ rfl) trivial
  have third : History true ForgetsWhole _ :=
    .step second (@TrackedStep.forget _ 100 1 (by decide))
      ⟨fun _ => rfl, by decide⟩
  exact ⟨_, rfl, (number_not_reused third
    (@TrackedStep.anew _ .front 1 100 1 .zero _ _ rfl (dead_of_absent rfl))
    rfl).2⟩

/--
The first file is looked up twice and removed; a second file recycles its key.
A forget of one of the two lookups drops the tombstone, and the third file
gets the number while the kernel holds the other lookup.
-/
theorem number_reused_while_held :
    ∃ tracked tracked' : Tracked,
      History true (fun _ _ => True) tracked ∧
      TrackedStep tracked (.register .front 3 100 1 .zero) tracked' ∧
      (∃ inodes, tracked.world.inodes.register .front tracked.world.arena 3
        100 1 .zero = some (100, inodes)) ∧
      tracked'.incarnation 100 = 2 ∧ tracked'.held 100 = [1] := by
  have first : History true (fun _ _ => True) _ :=
    .step (.start (loneArena_acyclic 1))
      (@TrackedStep.anew _ .front 1 100 1 .zero _ _ rfl (dead_of_absent rfl))
      trivial
  have second : History true (fun _ _ => True) _ :=
    .step first (@TrackedStep.granted _ ⟨100, 1⟩ _ rfl) trivial
  have third : History true (fun _ _ => True) _ :=
    .step second (@TrackedStep.granted _ ⟨100, 1⟩ _ rfl) trivial
  have removed : History true (fun _ _ => True) _ :=
    .step third (.arena _ (loneArena_acyclic 2)) trivial
  have recycled : History true (fun _ _ => True) _ :=
    .step removed
      (@TrackedStep.anew _ .front 2 100 1 .zero _ _ rfl
        (dead_of_lone rfl rfl rfl))
      trivial
  have forgotten : History true (fun _ _ => True) _ :=
    .step recycled (@TrackedStep.forget _ 100 1 (by decide)) trivial
  have again : History true (fun _ _ => True) _ :=
    .step forgotten (.arena _ (loneArena_acyclic 3)) trivial
  exact ⟨_, _, again,
    @TrackedStep.anew _ .front 3 100 1 .zero _ _ rfl
      (dead_of_lone rfl rfl rfl),
    ⟨_, rfl⟩, rfl, rfl⟩

end InodeTable

end FuseOverlay
