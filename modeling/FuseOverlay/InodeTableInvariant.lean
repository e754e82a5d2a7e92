import Mathlib.Logic.Relation
import Mathlib.Tactic.Common
import FuseOverlay.InodeTable

namespace FuseOverlay

/-!
# The inode table over whole runs

The table and its reverse map are changed by four calls, in any order, while
the arena changes underneath.  One invariant carries every run: an entry's
number is at least 2 and the reverse map sends it back to the entry's key.
Tombstones need no clause of their own, because a number in the reverse map
that points to a key can only be that key's current number or be unused.
-/

namespace NodeArena

/-- One step from a node to its parent. -/
def ParentEdge
    (arena : NodeArena)
    (child parent : NodeId) : Prop :=
  ∃ node, arena.get? child = some node ∧ node.parent = some parent

/-- No node is its own ancestor. -/
def Acyclic
    (arena : NodeArena) : Prop :=
  ∀ id, ¬ Relation.TransGen arena.ParentEdge id id

end NodeArena

namespace InodeTable

/-! ## The number a new entry gets -/

/-- The fallback counter after one use, skipping 0 and 1 on wrap-around. -/
def nextAfter (counter : UInt64) : UInt64 :=
  if counter + 1 ≤ 1 then 2 else counter + 1

/-- The fallback counter never becomes 0 or 1. -/
theorem two_le_nextAfter
    (counter : UInt64) :
    2 ≤ nextAfter counter := by
  unfold nextAfter
  split
  · exact UInt64.le_refl 2
  · next large =>
      rw [UInt64.le_iff_toNat_le] at large ⊢
      simp only [UInt64.toNat_ofNat] at large ⊢
      omega

theorem probe_succ
    (taken : FMap UInt64 InodeKey)
    (fuel : Nat)
    (fuseIno nextFallback : UInt64) :
    probe taken (fuel + 1) fuseIno nextFallback =
      if taken.contains fuseIno || fuseIno ≤ 1 then
        probe taken fuel nextFallback (nextAfter nextFallback)
      else
        some (fuseIno, nextFallback) :=
  rfl

/-- The loop stops only at a number that is unused and not reserved. -/
theorem probe_sound
    {taken : FMap UInt64 InodeKey}
    {fuel : Nat}
    {fuseIno nextFallback picked counter : UInt64}
    (found :
      probe taken fuel fuseIno nextFallback = some (picked, counter)) :
    taken.get? picked = none ∧ 2 ≤ picked := by
  induction fuel generalizing fuseIno nextFallback with
  | zero =>
      simp [probe] at found
  | succ fuel inductionHypothesis =>
      rw [probe_succ] at found
      split at found
      · exact inductionHypothesis found
      · next free =>
          simp only [Option.some.injEq, Prod.mk.injEq] at found
          obtain ⟨rfl, rfl⟩ := found
          simp only [Bool.or_eq_true, decide_eq_true_eq, not_or] at free
          obtain ⟨unused, unreserved⟩ := free
          constructor
          · simpa [FMap.contains] using unused
          · rw [UInt64.le_iff_toNat_le] at unreserved ⊢
            simp only [UInt64.toNat_ofNat] at unreserved ⊢
            omega

/-- The fallback counter stays outside the reserved values. -/
theorem probe_counter
    {taken : FMap UInt64 InodeKey}
    {fuel : Nat}
    {fuseIno nextFallback picked counter : UInt64}
    (outside : 2 ≤ nextFallback)
    (found :
      probe taken fuel fuseIno nextFallback = some (picked, counter)) :
    2 ≤ counter := by
  induction fuel generalizing fuseIno nextFallback with
  | zero =>
      simp [probe] at found
  | succ fuel inductionHypothesis =>
      rw [probe_succ] at found
      split at found
      · exact inductionHypothesis (two_le_nextAfter nextFallback) found
      · simp only [Option.some.injEq, Prod.mk.injEq] at found
        exact found.2 ▸ outside

/-- The values the fallback counter runs through. -/
def fallbackAt (start : UInt64) : Nat → UInt64
  | 0 => start
  | steps + 1 => nextAfter (fallbackAt start steps)

theorem fallbackAt_nextAfter
    (start : UInt64)
    (steps : Nat) :
    fallbackAt (nextAfter start) steps = fallbackAt start (steps + 1) := by
  induction steps with
  | zero =>
      rfl
  | succ steps inductionHypothesis =>
      simp only [fallbackAt] at inductionHypothesis ⊢
      rw [inductionHypothesis]

/-- A loop that gives up has found every counter value it tried in use. -/
theorem probe_none
    {taken : FMap UInt64 InodeKey}
    {fuel : Nat}
    {fuseIno nextFallback : UInt64}
    (outside : 2 ≤ nextFallback)
    (gaveUp : probe taken (fuel + 1) fuseIno nextFallback = none) :
    ∀ steps < fuel,
      (taken.get? (fallbackAt nextFallback steps)).isSome := by
  induction fuel generalizing fuseIno nextFallback with
  | zero =>
      intro steps tooMany
      omega
  | succ fuel inductionHypothesis =>
      rw [probe_succ] at gaveUp
      split at gaveUp
      · have laterUsed :=
          inductionHypothesis (two_le_nextAfter nextFallback) gaveUp
        intro steps bound
        cases steps with
        | zero =>
            rw [probe_succ] at gaveUp
            split at gaveUp
            · next used =>
                simp only [Bool.or_eq_true, decide_eq_true_eq] at used
                rcases used with inMap | reserved
                · exact inMap
                · rw [UInt64.le_iff_toNat_le] at outside reserved
                  simp only [UInt64.toNat_ofNat] at outside reserved
                  omega
            · simp at gaveUp
        | succ steps =>
            rw [← fallbackAt_nextAfter]
            exact laterUsed steps (by omega)
      · simp at gaveUp

/-- The counter walks the numbers from 2 on in a cycle. -/
theorem fallbackAt_toNat
    {start : UInt64}
    (outside : 2 ≤ start)
    (steps : Nat) :
    (fallbackAt start steps).toNat =
      (start.toNat - 2 + steps) % (2 ^ 64 - 2) + 2 := by
  have startBound : start.toNat < 2 ^ 64 := start.toNat_lt
  rw [UInt64.le_iff_toNat_le] at outside
  simp only [UInt64.toNat_ofNat] at outside
  induction steps with
  | zero =>
      simp only [fallbackAt]
      omega
  | succ steps inductionHypothesis =>
      simp only [fallbackAt, nextAfter, UInt64.le_iff_toNat_le,
        UInt64.toNat_add, UInt64.toNat_ofNat]
      split
      · simp only [UInt64.toNat_ofNat]
        omega
      · simp only [UInt64.toNat_add, UInt64.toNat_ofNat]
        omega

/-- Counter values less than one cycle apart differ. -/
theorem fallbackAt_injective
    {start : UInt64}
    (outside : 2 ≤ start)
    {first second : Nat}
    (firstBound : first < 2 ^ 64 - 2)
    (secondBound : second < 2 ^ 64 - 2)
    (same : fallbackAt start first = fallbackAt start second) :
    first = second := by
  have sameNat := congrArg UInt64.toNat same
  rw [fallbackAt_toNat outside, fallbackAt_toNat outside] at sameNat
  omega

/--
The collision loop ends while some number from 2 on is unused: it would
otherwise have found more numbers in use than there are.
-/
theorem probe_total
    (taken : FMap UInt64 InodeKey)
    (fuseIno nextFallback : UInt64)
    (outside : 2 ≤ nextFallback)
    (room : taken.size < 2 ^ 64 - 2) :
    ∃ picked counter,
      probe taken (taken.size + 2) fuseIno nextFallback =
        some (picked, counter) := by
  cases gaveUp :
      probe taken (taken.size + 2) fuseIno nextFallback with
  | some found =>
      exact ⟨found.1, found.2, rfl⟩
  | none =>
      exfalso
      have used := probe_none outside gaveUp
      let tried :=
        (List.range (taken.size + 1)).map (fallbackAt nextFallback)
      have triedNodup : tried.Nodup := by
        apply List.Nodup.map_on _ List.nodup_range
        intro first firstMember second secondMember same
        rw [List.mem_range] at firstMember secondMember
        exact fallbackAt_injective outside
          (by omega) (by omega) same
      have triedUsed : tried ⊆ AList.keys taken := by
        intro number member
        obtain ⟨steps, stepsMember, rfl⟩ := List.mem_map.mp member
        rw [List.mem_range] at stepsMember
        exact FMap.mem_keys_iff.mpr (used steps stepsMember)
      have lengths := (triedNodup.subperm triedUsed).length_le
      simp only [tried, List.length_map, List.length_range] at lengths
      unfold FMap.size at lengths
      omega

/-! ## The invariant and the four calls -/

/-- The invariant of the table and its reverse map. -/
structure Consistent (inodes : InodeTable) : Prop where
  numbered :
    ∀ key entry, inodes.table.get? key = some entry →
      2 ≤ entry.fuseIno ∧
        inodes.fuseMap.get? entry.fuseIno = some key
  counted : inodes.statInodes = inodes.table.size
  fallback : 2 ≤ inodes.nextFallback

theorem new_consistent
    (same : Bool) :
    Consistent (new.setSameDevice same) where
  numbered := by
    intro key entry stored
    simp [new, setSameDevice] at stored
  counted := by
    simp [new, setSameDevice]
  fallback := by
    simp only [new, setSameDevice]
    decide

/-- Changing stored entries without their numbers keeps the invariant. -/
theorem Consistent.changeEntry
    {inodes : InodeTable}
    (consistent : Consistent inodes)
    {key : InodeKey}
    {entry changed : OvlIno}
    (stored : inodes.table.get? key = some entry)
    (sameNumber : changed.fuseIno = entry.fuseIno) :
    Consistent { inodes with table := inodes.table.set key changed } where
  numbered := by
    intro query found queried
    rw [FMap.get?_set] at queried
    split at queried
    · next same =>
        subst same
        obtain rfl := Option.some.inj queried
        rw [sameNumber]
        exact consistent.numbered query entry stored
    · exact consistent.numbered query found queried
  counted := by
    rw [FMap.size_set_of_present (by simp [stored])]
    exact consistent.counted
  fallback := consistent.fallback

/-- Two keys never share a number. -/
theorem Consistent.key_unique
    {inodes : InodeTable}
    (consistent : Consistent inodes)
    {first second : InodeKey}
    {firstEntry secondEntry : OvlIno}
    (firstStored : inodes.table.get? first = some firstEntry)
    (secondStored : inodes.table.get? second = some secondEntry)
    (sameNumber : firstEntry.fuseIno = secondEntry.fuseIno) :
    first = second := by
  have firstBack := (consistent.numbered first firstEntry firstStored).2
  have secondBack := (consistent.numbered second secondEntry secondStored).2
  rw [sameNumber, secondBack] at firstBack
  exact (Option.some.inj firstBack).symm

/-- A new entry gets an unused number, so no other entry is disturbed. -/
theorem Consistent.registerNew
    {inodes inodes' : InodeTable}
    (consistent : Consistent inodes)
    {nodeId : NodeId}
    {key : InodeKey}
    {mode : Mode}
    {fuseIno : UInt64}
    (absent : inodes.table.get? key = none)
    (registered :
      inodes.registerNew nodeId key mode = some (fuseIno, inodes')) :
    Consistent inodes' ∧
      inodes'.keyToFuseIno key = some fuseIno ∧
      ∀ other, other ≠ key →
        inodes'.table.get? other = inodes.table.get? other := by
  unfold InodeTable.registerNew at registered
  split at registered
  · simp at registered
  · next picked counter found =>
      simp only [Option.some.injEq, Prod.mk.injEq] at registered
      obtain ⟨rfl, rfl⟩ := registered
      obtain ⟨unused, unreserved⟩ := probe_sound found
      refine ⟨⟨?_, ?_, ?_⟩, ?_, ?_⟩
      · intro query entry queried
        simp only [FMap.get?_set] at queried
        split at queried
        · next same =>
            subst same
            obtain rfl := Option.some.inj queried
            exact ⟨unreserved, FMap.get?_set_self ..⟩
        · have old := consistent.numbered query entry queried
          refine ⟨old.1, ?_⟩
          -- the number was not in use, so it is not this entry's number
          have different : entry.fuseIno ≠ picked := by
            intro same
            rw [same, unused] at old
            exact absurd old.2 (by simp)
          rw [FMap.get?_set_of_ne _ different]
          exact old.2
      · simp only [FMap.size_set_of_absent absent, consistent.counted]
        push_cast
        rfl
      · exact probe_counter consistent.fallback found
      · simp [keyToFuseIno]
      · intro other different
        exact FMap.get?_set_of_ne _ different _

/-- What `register` can do, by the state of the key's entry. -/
theorem register_cases
    {inodes inodes' : InodeTable}
    {order : HashOrder}
    {arena : NodeArena}
    {nodeId : NodeId}
    {ino dev : UInt64}
    {mode : Mode}
    {fuseIno : UInt64}
    (registered :
      inodes.register order arena nodeId ino dev mode =
        some (fuseIno, inodes')) :
    (inodes.table.get? ⟨ino, dev⟩ = none ∧
      inodes.registerNew nodeId ⟨ino, dev⟩ mode = some (fuseIno, inodes')) ∨
    (∃ existing, inodes.table.get? ⟨ino, dev⟩ = some existing ∧
      (∀ id ∈ existing.nodes, arena.containsKey id = false) ∧
      { inodes with
        table := inodes.table.remove ⟨ino, dev⟩
        statInodes := inodes.statInodes - 1 }.registerNew
          nodeId ⟨ino, dev⟩ mode = some (fuseIno, inodes')) ∨
    (∃ existing changed, inodes.table.get? ⟨ino, dev⟩ = some existing ∧
      (∃ id ∈ existing.nodes, arena.containsKey id = true) ∧
      (changed.fuseIno = existing.fuseIno ∧
        changed.lookups = existing.lookups) ∧
      (changed.nodes = existing.nodes.filter arena.containsKey ∨
        changed.nodes =
          order.insert nodeId (existing.nodes.filter arena.containsKey) ∧
        ∀ id ∈ existing.nodes, ∀ node, arena.get? id = some node →
          node.isDir = false) ∧
      fuseIno = existing.fuseIno ∧
      inodes' =
        { inodes with table := inodes.table.set ⟨ino, dev⟩ changed }) := by
  unfold register at registered
  simp only at registered
  split at registered
  · next absent =>
      exact .inl ⟨absent, registered⟩
  · next existing stored =>
      split at registered
      · next noneLive =>
          refine .inr (.inl ⟨existing, stored, ?_, registered⟩)
          intro id member
          have empty := List.isEmpty_iff.mp noneLive
          have notListed := List.filter_eq_nil_iff.mp empty id member
          simpa using notListed
      · next someLive =>
          have live :
              ∃ id ∈ existing.nodes, arena.containsKey id = true := by
            by_contra noneLive
            push Not at noneLive
            exact someLive (List.isEmpty_iff.mpr
              (List.filter_eq_nil_iff.mpr noneLive))
          split at registered <;>
            simp only [Option.some.injEq, Prod.mk.injEq] at registered
          · obtain ⟨rfl, rfl⟩ := registered
            exact .inr (.inr ⟨existing,
              { existing with
                nodes := existing.nodes.filter arena.containsKey },
              stored, live, ⟨rfl, rfl⟩, .inl rfl, rfl, rfl⟩)
          · next noDuplicate =>
              obtain ⟨rfl, rfl⟩ := registered
              refine .inr (.inr ⟨existing,
                { existing with
                  nodes := order.insert nodeId
                    (existing.nodes.filter arena.containsKey)
                  mode := mode },
                stored, live, ⟨rfl, rfl⟩, .inr ⟨rfl, ?_⟩, rfl, rfl⟩)
              intro id member node nodeStored
              by_contra isDir
              refine noDuplicate (List.any_eq_true.mpr ⟨id, ?_, ?_⟩)
              · exact List.mem_filter.mpr
                  ⟨member, NodeArena.containsKey_iff.mpr ⟨node, nodeStored⟩⟩
              · simp [nodeStored, Bool.not_eq_false _ ▸ isDir]

/-- A new entry has the new node alone and takes a number not in use. -/
theorem registerNew_effect
    {inodes inodes' : InodeTable}
    {nodeId : NodeId}
    {key : InodeKey}
    {mode : Mode}
    {fuseIno : UInt64}
    (added : inodes.registerNew nodeId key mode = some (fuseIno, inodes')) :
    (∀ other, other ≠ key →
      inodes'.table.get? other = inodes.table.get? other) ∧
    (∀ number used, inodes.fuseMap.get? number = some used →
      inodes'.fuseMap.get? number = some used) ∧
    ∃ entry, inodes'.table.get? key = some entry ∧
      entry.nodes = [nodeId] := by
  unfold InodeTable.registerNew at added
  split at added
  · cases added
  · next picked counter found =>
      simp only [Option.some.injEq, Prod.mk.injEq] at added
      obtain ⟨rfl, rfl⟩ := added
      obtain ⟨unused, -⟩ := probe_sound found
      refine ⟨?_, ?_, _, FMap.get?_set_self .., rfl⟩
      · intro other different
        exact FMap.get?_set_of_ne _ different _
      · intro number used stored
        rw [FMap.get?_set_of_ne]
        · exact stored
        · rintro rfl
          rw [unused] at stored
          cases stored

/--
What `register` leaves: other entries and numbers in use are untouched, and
the key's entry has the new node alone, the live nodes, or, when none of them
is a directory, the live nodes and the new one.
-/
theorem register_effect
    {inodes inodes' : InodeTable}
    {order : HashOrder}
    {arena : NodeArena}
    {nodeId : NodeId}
    {ino dev : UInt64}
    {mode : Mode}
    {fuseIno : UInt64}
    (registered :
      inodes.register order arena nodeId ino dev mode =
        some (fuseIno, inodes')) :
    (∀ other, other ≠ ⟨ino, dev⟩ →
      inodes'.table.get? other = inodes.table.get? other) ∧
    (∀ number key, inodes.fuseMap.get? number = some key →
      inodes'.fuseMap.get? number = some key) ∧
    ∃ entry, inodes'.table.get? ⟨ino, dev⟩ = some entry ∧
      (entry.nodes = [nodeId] ∧
        (∀ old, inodes.table.get? ⟨ino, dev⟩ = some old →
          ∀ id ∈ old.nodes, arena.containsKey id = false) ∨
      ∃ old, inodes.table.get? ⟨ino, dev⟩ = some old ∧
        (entry.nodes = old.nodes.filter arena.containsKey ∨
          entry.nodes =
            order.insert nodeId (old.nodes.filter arena.containsKey) ∧
          ∀ id ∈ old.nodes, ∀ node, arena.get? id = some node →
            node.isDir = false)) := by
  rcases register_cases registered with
    ⟨absent, added⟩ | ⟨existing, stored, allDead, added⟩ |
    ⟨existing, changed, stored, -, -, members, -, rfl⟩
  · obtain ⟨others, numbers, entry, entryStored, alone⟩ :=
      registerNew_effect added
    refine ⟨others, numbers, entry, entryStored, .inl ⟨alone, ?_⟩⟩
    intro old oldStored
    rw [absent] at oldStored
    cases oldStored
  · obtain ⟨others, numbers, entry, entryStored, alone⟩ :=
      registerNew_effect added
    refine ⟨?_, numbers, entry, entryStored, .inl ⟨alone, ?_⟩⟩
    · intro other different
      rw [others other different]
      simp [FMap.get?_remove, different]
    · intro old oldStored
      rw [stored] at oldStored
      cases oldStored
      exact allDead
  · refine ⟨?_, fun _ _ => id, changed, FMap.get?_set_self .., ?_⟩
    · intro other different
      exact FMap.get?_set_of_ne _ different _
    · exact .inr ⟨existing, stored, members⟩

/-- `register` keeps the invariant and answers with the key's number. -/
theorem Consistent.register
    {inodes inodes' : InodeTable}
    (consistent : Consistent inodes)
    {order : HashOrder}
    {arena : NodeArena}
    {nodeId : NodeId}
    {ino dev : UInt64}
    {mode : Mode}
    {fuseIno : UInt64}
    (registered :
      inodes.register order arena nodeId ino dev mode =
        some (fuseIno, inodes')) :
    Consistent inodes' ∧
      inodes'.keyToFuseIno ⟨ino, dev⟩ = some fuseIno ∧
      ∀ other, other ≠ ⟨ino, dev⟩ →
        inodes'.table.get? other = inodes.table.get? other := by
  rcases register_cases registered with
    ⟨absent, added⟩ | ⟨existing, stored, -, added⟩ |
    ⟨existing, changed, stored, -, ⟨sameNumber, -⟩, -, rfl, rfl⟩
  · exact consistent.registerNew absent added
  · -- the recycled entry goes first; its number stays as a tombstone
    have dropped :
        Consistent
          { inodes with
            table := inodes.table.remove ⟨ino, dev⟩
            statInodes := inodes.statInodes - 1 } := by
      refine ⟨?_, ?_, consistent.fallback⟩
      · intro query entry queried
        simp only [FMap.get?_remove] at queried
        split at queried
        · simp at queried
        · exact consistent.numbered query entry queried
      · have shrinks :
            (inodes.table.remove ⟨ino, dev⟩).size + 1 =
              inodes.table.size :=
          FMap.size_remove_of_present (by simp [stored])
        have counted := consistent.counted
        simp only
        omega
    obtain ⟨kept, answered, others⟩ :=
      dropped.registerNew (FMap.get?_remove_self ..) added
    refine ⟨kept, answered, ?_⟩
    intro other different
    rw [others other different]
    simp [FMap.get?_remove, different]
  · refine ⟨consistent.changeEntry stored sameNumber, ?_, ?_⟩
    · simp [keyToFuseIno, sameNumber]
    · intro other different
      exact FMap.get?_set_of_ne _ different _

/-- `remove_node_id` keeps the invariant. -/
theorem Consistent.removeNodeId
    {inodes : InodeTable}
    (consistent : Consistent inodes)
    (key : InodeKey)
    (nodeId : NodeId) :
    Consistent (inodes.removeNodeId key nodeId) := by
  unfold InodeTable.removeNodeId FMap.modify
  cases stored : inodes.table.get? key with
  | none =>
      simpa [stored] using consistent
  | some entry =>
      exact consistent.changeEntry stored rfl

/-- `inc_lookup` keeps the invariant. -/
theorem Consistent.incLookup
    {inodes : InodeTable}
    (consistent : Consistent inodes)
    (key : InodeKey) :
    Consistent (inodes.incLookup key) := by
  unfold InodeTable.incLookup FMap.modify
  cases stored : inodes.table.get? key with
  | none =>
      simpa [stored] using consistent
  | some entry =>
      exact consistent.changeEntry stored rfl

/-- Dropping a number no entry carries keeps the invariant. -/
theorem Consistent.dropTombstone
    {inodes : InodeTable}
    (consistent : Consistent inodes)
    {fuseIno : UInt64}
    (tombstone :
      ∀ key entry, inodes.table.get? key = some entry →
        entry.fuseIno ≠ fuseIno) :
    Consistent
      { inodes with fuseMap := inodes.fuseMap.remove fuseIno } where
  numbered := by
    intro query entry queried
    have old := consistent.numbered query entry queried
    refine ⟨old.1, ?_⟩
    simp only [FMap.get?_remove]
    rw [if_neg (tombstone query entry queried)]
    exact old.2
  counted := consistent.counted
  fallback := consistent.fallback

/-- What `forget` can do, by what the number points to. -/
theorem forget_cases
    (inodes : InodeTable)
    (fuseIno nlookup : UInt64) :
    (inodes.forget fuseIno nlookup).2 = inodes ∨
    (∃ key, inodes.fuseMap.get? fuseIno = some key ∧
      (∀ entry, inodes.table.get? key = some entry →
        entry.fuseIno ≠ fuseIno) ∧
      (inodes.forget fuseIno nlookup).2 =
        { inodes with fuseMap := inodes.fuseMap.remove fuseIno }) ∨
    (∃ key entry, inodes.table.get? key = some entry ∧
      entry.fuseIno = fuseIno ∧
      (inodes.forget fuseIno nlookup).2 =
        { inodes with
          table := inodes.table.remove key
          fuseMap := inodes.fuseMap.remove fuseIno
          statInodes := inodes.statInodes - 1 }) ∨
    (∃ key entry changed, inodes.table.get? key = some entry ∧
      changed.fuseIno = entry.fuseIno ∧
      changed.nodes = entry.nodes ∧
      (inodes.forget fuseIno nlookup).2 =
        { inodes with table := inodes.table.set key changed }) := by
  by_cases reserved : fuseIno = 1 ∨ fuseIno = 0
  · exact .inl (by simp [forget, reserved])
  · cases pointed : inodes.fuseMap.get? fuseIno with
    | none =>
        exact .inl (by simp [forget, reserved, pointed])
    | some key =>
        cases stored : inodes.table.get? key with
        | none =>
            refine .inr (.inl ⟨key, rfl, ?_, ?_⟩)
            · simp [stored]
            · simp [forget, reserved, pointed, stored]
        | some entry =>
            by_cases current : entry.fuseIno = fuseIno
            · by_cases last : entry.lookups - nlookup.toInt64 ≤ 0
              · refine .inr (.inr (.inl ⟨key, entry, stored, current, ?_⟩))
                simp only [forget, reserved, pointed, stored, current, last,
                  ne_eq, not_true_eq_false, ↓reduceIte]
              · refine .inr (.inr (.inr ⟨key, entry,
                  { entry with
                    lookups := entry.lookups - nlookup.toInt64 },
                  stored, rfl, rfl, ?_⟩))
                simp only [forget, reserved, pointed, stored, current, last,
                  ne_eq, not_true_eq_false, ↓reduceIte]
            · refine .inr (.inl ⟨key, rfl, ?_, ?_⟩)
              · intro other otherStored
                rw [stored] at otherStored
                exact Option.some.inj otherStored ▸ current
              · simp only [forget, reserved, pointed, stored, current,
                  ne_eq, not_false_eq_true, ↓reduceIte]

/-- `forget` keeps the invariant in each of its cases. -/
theorem Consistent.forget
    {inodes : InodeTable}
    (consistent : Consistent inodes)
    (fuseIno nlookup : UInt64) :
    Consistent (inodes.forget fuseIno nlookup).2 := by
  rcases forget_cases inodes fuseIno nlookup with
    unchanged | ⟨key, pointed, stale, dropped⟩ |
    ⟨key, entry, stored, number, dropped⟩ |
    ⟨key, entry, changed, stored, sameNumber, -, dropped⟩
  · rw [unchanged]
    exact consistent
  · rw [dropped]
    apply consistent.dropTombstone
    intro other entry stored same
    have back := (consistent.numbered other entry stored).2
    rw [same, pointed] at back
    obtain rfl := Option.some.inj back
    exact stale entry stored same
  · rw [dropped]
    refine ⟨?_, ?_, consistent.fallback⟩
    · intro other otherEntry otherStored
      simp only [FMap.get?_remove] at otherStored ⊢
      split at otherStored
      · simp at otherStored
      · next different =>
          have old := consistent.numbered other otherEntry otherStored
          refine ⟨old.1, ?_⟩
          rw [if_neg, old.2]
          intro same
          exact different
            (consistent.key_unique otherStored stored
              (same.trans number.symm))
    · have shrinks :
          (inodes.table.remove key).size + 1 = inodes.table.size :=
        FMap.size_remove_of_present (by simp [stored])
      have counted := consistent.counted
      simp only
      omega
  · rw [dropped]
    exact consistent.changeEntry stored sameNumber

/-! ## Runs -/

/-- The table together with the arena its calls are made against. -/
structure World where
  arena : NodeArena
  inodes : InodeTable

/-- The four calls, and any change of the arena between them. -/
inductive Call where
  | register
      (order : HashOrder)
      (nodeId : NodeId)
      (ino dev : UInt64)
      (mode : Mode)
  | incLookup (key : InodeKey)
  | removeNodeId (key : InodeKey) (nodeId : NodeId)
  | forget (fuseIno nlookup : UInt64)
  | arena (next : NodeArena)

/-- One call with any arguments; the arena may become any acyclic one. -/
inductive Step : World → Call → World → Prop where
  | register
      {world : World}
      {order : HashOrder}
      {nodeId : NodeId}
      {ino dev : UInt64}
      {mode : Mode}
      {fuseIno : UInt64}
      {inodes : InodeTable}
      (returned :
        world.inodes.register order world.arena nodeId ino dev mode =
          some (fuseIno, inodes)) :
      Step world (.register order nodeId ino dev mode) ⟨world.arena, inodes⟩
  | incLookup
      (world : World)
      (key : InodeKey) :
      Step world (.incLookup key)
        ⟨world.arena, world.inodes.incLookup key⟩
  | removeNodeId
      (world : World)
      (key : InodeKey)
      (nodeId : NodeId) :
      Step world (.removeNodeId key nodeId)
        ⟨world.arena, world.inodes.removeNodeId key nodeId⟩
  | forget
      (world : World)
      (fuseIno nlookup : UInt64) :
      Step world (.forget fuseIno nlookup)
        ⟨world.arena, (world.inodes.forget fuseIno nlookup).2⟩
  | arena
      (world : World)
      {next : NodeArena}
      (acyclic : next.Acyclic) :
      Step world (.arena next) ⟨next, world.inodes⟩

/-- The worlds reached from a new table. -/
inductive Reachable (same : Bool) : World → Prop where
  | start
      {arena : NodeArena}
      (acyclic : arena.Acyclic) :
      Reachable same ⟨arena, new.setSameDevice same⟩
  | step
      {world world' : World}
      {call : Call}
      (earlier : Reachable same world)
      (taken : Step world call world') :
      Reachable same world'

/-- Every call keeps the invariant. -/
theorem Step.consistent
    {world world' : World}
    {call : Call}
    (taken : Step world call world')
    (consistent : Consistent world.inodes) :
    Consistent world'.inodes := by
  cases taken with
  | register returned =>
      exact (consistent.register returned).1
  | incLookup key =>
      exact consistent.incLookup key
  | removeNodeId key nodeId =>
      exact consistent.removeNodeId key nodeId
  | forget fuseIno nlookup =>
      exact consistent.forget fuseIno nlookup
  | arena acyclic =>
      exact consistent

/-- The invariant holds in every world reached. -/
theorem Reachable.consistent
    {same : Bool}
    {world : World}
    (reached : Reachable same world) :
    Consistent world.inodes := by
  induction reached with
  | start acyclic =>
      exact new_consistent same
  | step earlier taken inductionHypothesis =>
      exact taken.consistent inductionHypothesis

/-- The key has an entry one of whose nodes is in the arena. -/
def HasLiveNode
    (world : World)
    (key : InodeKey) : Prop :=
  ∃ entry, world.inodes.table.get? key = some entry ∧
    ∃ id ∈ entry.nodes, world.arena.containsKey id = true

/--
A run along which the key's entry has a live node before every call and no
`forget` call drops the entry.
-/
inductive LiveRun (key : InodeKey) : World → World → Prop where
  | refl
      (world : World) :
      LiveRun key world world
  | step
      {first world world' : World}
      {call : Call}
      (earlier : LiveRun key first world)
      (live : HasLiveNode world key)
      (taken : Step world call world')
      (notForgotten :
        ∀ fuseIno nlookup, call = .forget fuseIno nlookup →
          (world'.inodes.table.get? key).isSome) :
      LiveRun key first world'

/-- `forget` leaves the number of an entry it does not drop. -/
theorem forget_number
    (inodes : InodeTable)
    (fuseIno nlookup : UInt64)
    (key : InodeKey)
    (kept : ((inodes.forget fuseIno nlookup).2.table.get? key).isSome) :
    (inodes.forget fuseIno nlookup).2.keyToFuseIno key =
      inodes.keyToFuseIno key := by
  rcases forget_cases inodes fuseIno nlookup with
    unchanged | ⟨target, pointed, stale, dropped⟩ |
    ⟨target, entry, stored, number, dropped⟩ |
    ⟨target, entry, changed, stored, sameNumber, -, dropped⟩
  · rw [unchanged]
  · rw [dropped]
    rfl
  · rw [dropped] at kept ⊢
    by_cases same : key = target
    · subst same
      simp at kept
    · simp [keyToFuseIno, FMap.get?_remove, same]
  · rw [dropped]
    by_cases same : key = target
    · subst same
      simp [keyToFuseIno, stored, sameNumber]
    · simp [keyToFuseIno, FMap.get?_set, same]

/-- A call that meets a live node keeps the key's number. -/
theorem Step.number
    {world world' : World}
    {call : Call}
    {key : InodeKey}
    (taken : Step world call world')
    (consistent : Consistent world.inodes)
    (live : HasLiveNode world key)
    (notForgotten :
      ∀ fuseIno nlookup, call = .forget fuseIno nlookup →
        (world'.inodes.table.get? key).isSome) :
    world'.inodes.keyToFuseIno key = world.inodes.keyToFuseIno key := by
  cases taken with
  | @register order nodeId ino dev mode fuseIno inodes returned =>
      by_cases same : key = ⟨ino, dev⟩
      · subst same
        obtain ⟨entry, stored, id, member, inArena⟩ := live
        rw [(consistent.register returned).2.1]
        rcases register_cases returned with
          ⟨absent, -⟩ | ⟨existing, found, allDead, -⟩ |
          ⟨existing, changed, found, -, -, -, number, -⟩
        · simp [absent] at stored
        · rw [found] at stored
          obtain rfl := Option.some.inj stored
          simp [allDead id member] at inArena
        · simp [keyToFuseIno, found, number]
      · simp [keyToFuseIno, (consistent.register returned).2.2 key same]
  | incLookup changedKey =>
      by_cases same : key = changedKey
      · subst same
        simp [keyToFuseIno, InodeTable.incLookup, FMap.get?_modify,
          Function.comp_def]
      · simp [keyToFuseIno, InodeTable.incLookup,
          FMap.get?_modify_of_ne _ same]
  | removeNodeId changedKey nodeId =>
      by_cases same : key = changedKey
      · subst same
        simp [keyToFuseIno, InodeTable.removeNodeId, FMap.get?_modify,
          Function.comp_def]
      · simp [keyToFuseIno, InodeTable.removeNodeId,
          FMap.get?_modify_of_ne _ same]
  | forget fuseIno nlookup =>
      exact forget_number world.inodes fuseIno nlookup key
        (notForgotten fuseIno nlookup rfl)
  | arena acyclic =>
      rfl

/-- Along a live run the key keeps its number. -/
theorem LiveRun.number
    {first last : World}
    {key : InodeKey}
    (run : LiveRun key first last)
    (consistent : Consistent first.inodes) :
    Consistent last.inodes ∧
      last.inodes.keyToFuseIno key = first.inodes.keyToFuseIno key := by
  induction run with
  | refl =>
      exact ⟨consistent, rfl⟩
  | step earlier live taken notForgotten inductionHypothesis =>
      obtain ⟨consistentBefore, sameBefore⟩ := inductionHypothesis
      exact ⟨taken.consistent consistentBefore,
        (taken.number consistentBefore live notForgotten).trans sameBefore⟩

/--
While fewer numbers are taken than there are, `register` returns.
-/
theorem Consistent.register_total
    {inodes : InodeTable}
    (consistent : Consistent inodes)
    (room : inodes.fuseMap.size < 2 ^ 64 - 2)
    (order : HashOrder)
    (arena : NodeArena)
    (nodeId : NodeId)
    (ino dev : UInt64)
    (mode : Mode) :
    ∃ fuseIno inodes',
      inodes.register order arena nodeId ino dev mode =
        some (fuseIno, inodes') := by
  have added
      (entries : FMap InodeKey OvlIno)
      (stat : Int) :
      ∃ fuseIno inodes',
        { inodes with table := entries, statInodes := stat }.registerNew
          nodeId ⟨ino, dev⟩ mode = some (fuseIno, inodes') := by
    obtain ⟨picked, counter, found⟩ :=
      probe_total inodes.fuseMap
        (computeFuseIno ino dev inodes.sameDevice)
        inodes.nextFallback consistent.fallback room
    unfold InodeTable.registerNew
    simp only [found]
    exact ⟨_, _, rfl⟩
  unfold InodeTable.register
  simp only
  split
  · exact added inodes.table inodes.statInodes
  · split
    · exact added _ _
    · split
      · exact ⟨_, _, rfl⟩
      · exact ⟨_, _, rfl⟩

/--
The inode table over every run: entries and reverse map agree, numbers are
shared by no two keys, the counter is the number of entries, a key with a live
node keeps its number until it is forgotten, and `register` returns as long as
a number is left.
-/
theorem table_invariant
    {same : Bool}
    {world : World}
    (reached : Reachable same world) :
    (∀ key entry, world.inodes.table.get? key = some entry →
      2 ≤ entry.fuseIno ∧
        world.inodes.fuseMap.get? entry.fuseIno = some key) ∧
    (∀ first second firstEntry secondEntry,
      world.inodes.table.get? first = some firstEntry →
      world.inodes.table.get? second = some secondEntry →
      first ≠ second →
      firstEntry.fuseIno ≠ secondEntry.fuseIno) ∧
    (∀ key entry, world.inodes.table.get? key = some entry →
      (world.inodes.keyToFuseIno key).bind world.inodes.fuseToIno =
        some entry) ∧
    (∀ key later order nodeId mode fuseIno inodes,
      LiveRun key world later →
      HasLiveNode world key →
      HasLiveNode later key →
      later.inodes.register order later.arena nodeId key.ino key.dev mode =
        some (fuseIno, inodes) →
      world.inodes.keyToFuseIno key = some fuseIno) ∧
    world.inodes.statInodes = world.inodes.table.size ∧
    (world.inodes.fuseMap.size < 2 ^ 64 - 2 →
      ∀ order nodeId ino dev mode, ∃ fuseIno inodes,
        world.inodes.register order world.arena nodeId ino dev mode =
          some (fuseIno, inodes)) := by
  have consistent := reached.consistent
  refine ⟨consistent.numbered, ?_, ?_, ?_, consistent.counted, ?_⟩
  · intro first second firstEntry secondEntry firstStored secondStored
      different sameNumber
    exact different
      (consistent.key_unique firstStored secondStored sameNumber)
  · intro key entry stored
    have back := (consistent.numbered key entry stored).2
    simp [keyToFuseIno, fuseToIno, stored, back]
  · intro key later order nodeId mode fuseIno inodes run _ liveLater returned
    obtain ⟨consistentLater, sameNumber⟩ := run.number consistent
    have answered := (consistentLater.register returned).2.1
    have unchanged :=
      (Step.register returned).number consistentLater liveLater
        (fun _ _ impossible => Call.noConfusion impossible)
    rw [← sameNumber, ← unchanged]
    exact answered
  · intro room order nodeId ino dev mode
    exact consistent.register_total room order world.arena nodeId ino dev mode

/-- An arena without nodes has no cycle. -/
theorem new_acyclic :
    NodeArena.new.Acyclic := by
  intro id cycle
  obtain ⟨parent, ⟨node, stored, -⟩, -⟩ :=
    Relation.TransGen.head'_iff.mp cycle
  simp [NodeArena.new, NodeArena.get?] at stored

/--
A recycled key: its first node is dead, so the second registration drops the
entry and takes a fallback number, and the first number stays as a tombstone.
-/
theorem table_invariant_recycled :
    ∃ world, Reachable true world ∧
      world.inodes.fuseMap.size = 2 ∧
      world.inodes.keyToFuseIno ⟨100, 1⟩ = some 0x8000000000000000 ∧
      world.inodes.statInodes = world.inodes.table.size := by
  have first : Reachable true _ :=
    .step (.start new_acyclic)
      (@Step.register _ .front 7 100 1 .zero _ _ rfl)
  have second : Reachable true _ :=
    .step first (@Step.register _ .front 8 100 1 .zero _ _ rfl)
  exact ⟨_, second, by decide, by decide,
    (table_invariant second).2.2.2.2.1⟩

/-! ## The collision loop without fuel -/

/-- The test of the collision loop: the number is in use or reserved. -/
def isTaken
    (taken : FMap UInt64 InodeKey)
    (fuseIno : UInt64) : Bool :=
  taken.contains fuseIno || fuseIno ≤ 1

/--
The collision loop from a number and a counter to the number and the counter
that it ends with.
-/
inductive LoopEnds
    (taken : FMap UInt64 InodeKey) :
    UInt64 → UInt64 → UInt64 → UInt64 → Prop where
  | done
      {fuseIno nextFallback : UInt64} :
      isTaken taken fuseIno = false →
      LoopEnds taken fuseIno nextFallback fuseIno nextFallback
  | turn
      {fuseIno nextFallback picked counter : UInt64} :
      isTaken taken fuseIno = true →
      LoopEnds taken nextFallback (nextAfter nextFallback) picked counter →
      LoopEnds taken fuseIno nextFallback picked counter

/-- A loop that ends, ends in one way. -/
theorem LoopEnds.unique
    {taken : FMap UInt64 InodeKey}
    {fuseIno nextFallback picked counter otherPicked otherCounter : UInt64}
    (first : LoopEnds taken fuseIno nextFallback picked counter)
    (second : LoopEnds taken fuseIno nextFallback otherPicked otherCounter) :
    otherPicked = picked ∧ otherCounter = counter := by
  induction first with
  | done free =>
      cases second with
      | done _ =>
          exact ⟨rfl, rfl⟩
      | turn occupied _ =>
          rw [free] at occupied
          cases occupied
  | turn occupied _ inductionHypothesis =>
      cases second with
      | done free =>
          rw [free] at occupied
          cases occupied
      | turn _ later =>
          exact inductionHypothesis later

/-- A loop that ends with its fuel left ends. -/
theorem loopEnds_of_probe
    {taken : FMap UInt64 InodeKey}
    {fuel : Nat}
    {fuseIno nextFallback picked counter : UInt64}
    (found :
      probe taken fuel fuseIno nextFallback = some (picked, counter)) :
    LoopEnds taken fuseIno nextFallback picked counter := by
  induction fuel generalizing fuseIno nextFallback with
  | zero =>
      cases found
  | succ fuel inductionHypothesis =>
      rw [probe_succ] at found
      split at found
      · next occupied =>
          exact .turn occupied (inductionHypothesis found)
      · next free =>
          obtain ⟨rfl, rfl⟩ := Prod.mk.inj (Option.some.inj found)
          exact .done (Bool.eq_false_iff.mpr free)

end InodeTable

end FuseOverlay
