import Mathlib.Algebra.Order.Ring.Nat
import Mathlib.Data.List.MinMax
import FuseOverlay.Lib.FMap

namespace FuseOverlay

/-!
# Threads that share reader-writer locks

A handler is reduced to the locks that it takes and drops; what it branches on
is not said.  A thread that wants a lock waits while another one holds it in a
conflicting mode, and a reader also gives way to every writer that waits.  When
every handler takes locks in the order of a rank, threads that are busy never
all wait, and without new queries they all come to an end.
-/

namespace FMap

variable {Key Value : Type} [DecidableEq Key]

/-- The sum of a measure over the stored values. -/
def total
    (map : FMap Key Value)
    (measure : Value → Nat) : Nat :=
  (map.entries.map fun entry => measure entry.2).sum

/-- A dropped value leaves the sum. -/
theorem total_remove
    {map : FMap Key Value}
    {key : Key}
    {value : Value}
    (stored : map.get? key = some value)
    (measure : Value → Nat) :
    (map.remove key).total measure + measure value = map.total measure := by
  have listed : key ∈ AList.keys map := by
    rw [mem_keys_iff, stored]
    rfl
  obtain ⟨found, before, after, -, shape, erased⟩ :=
    List.exists_of_kerase listed
  have same : map.get? key = some found := by
    apply AList.mem_lookup_iff.mpr
    rw [shape]
    simp
  cases stored.symm.trans same
  unfold total
  rw [show (map.remove key).entries = before ++ after from erased, shape]
  simp only [List.map_append, List.map_cons, List.sum_append, List.sum_cons]
  omega

/-- A stored value enters the sum in place of the old one. -/
theorem total_set
    {map : FMap Key Value}
    {key : Key}
    {old : Value}
    (stored : map.get? key = some old)
    (value : Value)
    (measure : Value → Nat) :
    (map.set key value).total measure + measure old =
      map.total measure + measure value := by
  have removed := total_remove stored measure
  have entered :
      (map.set key value).total measure =
        measure value + (map.remove key).total measure := by
    unfold total
    rw [show (map.set key value).entries =
      ⟨key, value⟩ :: (map.remove key).entries from AList.entries_insert,
      List.map_cons, List.sum_cons]
  omega

end FMap

/-- How a lock is held. -/
inductive LockMode where
  | shared
  | exclusive
  deriving DecidableEq

/-- The lock operations that are left of a handler. -/
inductive Locking (Lock : Type) where
  | done
  | take (lock : Lock) (mode : LockMode) (next : Locking Lock)
  | drop (lock : Lock) (next : Locking Lock)
  | branch (one other : Locking Lock)

namespace Locking

variable {Lock : Type}

/-- The number of operations on all branches. -/
def size : Locking Lock → Nat
  | .done => 1
  | .take _ _ next => next.size + 1
  | .drop _ next => next.size + 1
  | .branch one other => one.size + other.size + 1

/-- A lock that is taken and dropped with no other lock operation between. -/
def within
    (lock : Lock)
    (mode : LockMode)
    (next : Locking Lock) :
    Locking Lock :=
  .take lock mode (.drop lock next)

/-- Locks are taken in the order of their ranks and dropped at the end. -/
def Ordered
    [DecidableEq Lock]
    (rank : Lock → Nat) :
    List Lock → Locking Lock → Prop
  | held, .done => held = []
  | held, .take lock _ next =>
      (∀ other ∈ held, rank other < rank lock) ∧
        Ordered rank (lock :: held) next
  | held, .drop lock next => Ordered rank (held.filter (· ≠ lock)) next
  | held, .branch one other =>
      Ordered rank held one ∧ Ordered rank held other

instance decidableOrdered
    [DecidableEq Lock]
    (rank : Lock → Nat) :
    (held : List Lock) → (locking : Locking Lock) →
      Decidable (Ordered rank held locking)
  | held, .done => inferInstanceAs (Decidable (held = []))
  | held, .take lock _ next =>
      have := decidableOrdered rank (lock :: held) next
      inferInstanceAs (Decidable (_ ∧ _))
  | held, .drop lock next =>
      decidableOrdered rank (held.filter (· ≠ lock)) next
  | held, .branch one other =>
      have := decidableOrdered rank held one
      have := decidableOrdered rank held other
      inferInstanceAs (Decidable (_ ∧ _))

/-- What is left of a handler at a later point, and the locks held there. -/
inductive Leads
    [DecidableEq Lock] :
    List Lock → Locking Lock → List Lock → Locking Lock → Prop where
  | here {held locking} : Leads held locking held locking
  | take {held lock mode next later rest}
      (goes : Leads (lock :: held) next later rest) :
      Leads held (.take lock mode next) later rest
  | drop {held lock next later rest}
      (goes : Leads (held.filter (· ≠ lock)) next later rest) :
      Leads held (.drop lock next) later rest
  | one {held one other later rest}
      (goes : Leads held one later rest) :
      Leads held (.branch one other) later rest
  | other {held one other later rest}
      (goes : Leads held other later rest) :
      Leads held (.branch one other) later rest

/-- A handler that drops its locks comes to its end without one. -/
theorem leads_done
    [DecidableEq Lock]
    {rank : Lock → Nat}
    {held : List Lock}
    {locking : Locking Lock}
    (ordered : locking.Ordered rank held) :
    Leads held locking [] .done := by
  induction locking generalizing held with
  | done =>
      rw [show held = [] from ordered]
      exact .here
  | take lock mode next inductionHypothesis =>
      exact .take (inductionHypothesis ordered.2)
  | drop lock next inductionHypothesis =>
      exact .drop (inductionHypothesis ordered)
  | branch one other inductionHypothesis _ =>
      exact .one (inductionHypothesis ordered.1)

end Locking

/-- A busy thread: the locks it holds and what it still does. -/
structure Holder (Lock : Type) where
  held : List (Lock × LockMode)
  rest : Locking Lock

/-- The lock that a thread takes next. -/
def Holder.wants?
    {Lock : Type}
    (holder : Holder Lock) :
    Option (Lock × LockMode) :=
  match holder.rest with
  | .take lock mode _ => some (lock, mode)
  | _ => none

/-- The busy threads. -/
abbrev Holders (Lock : Type) :=
  FMap Nat (Holder Lock)

/-- A thread gets a query, or goes on; a bit decides its branch. -/
inductive LockTurn (Query : Type) where
  | receive (thread : Nat) (query : Query)
  | advance (thread : Nat) (way : Bool)

namespace Holders

variable {Lock Query : Type} [DecidableEq Lock]

/-- Nothing keeps a thread from the lock. -/
def Free
    (holders : Holders Lock)
    (lock : Lock)
    (mode : LockMode) : Prop :=
  ∀ entry ∈ holders.toList,
    (∀ held ∈ entry.2.held, held.1 = lock →
      mode = .shared ∧ held.2 = .shared) ∧
    (mode = .shared → entry.2.wants? ≠ some (lock, .exclusive))

instance
    (holders : Holders Lock)
    (lock : Lock)
    (mode : LockMode) :
    Decidable (holders.Free lock mode) :=
  inferInstanceAs (Decidable (∀ entry ∈ holders.toList, _ ∧ _))

/-- A busy thread goes on, unless it has to wait. -/
def advance
    (holders : Holders Lock)
    (thread : Nat)
    (way : Bool) :
    Option (Holders Lock) :=
  match holders.get? thread with
  | none => none
  | some holder =>
      match holder.rest with
      | .done => some (holders.remove thread)
      | .take lock mode next =>
          if holders.Free lock mode then
            some (holders.set thread ⟨(lock, mode) :: holder.held, next⟩)
          else
            none
      | .drop lock next =>
          some (holders.set thread
            ⟨holder.held.filter (·.1 ≠ lock), next⟩)
      | .branch one other =>
          some (holders.set thread
            ⟨holder.held, if way then one else other⟩)

/-- An idle thread takes a query; a turn that has to wait changes nothing. -/
def step
    (locking : Query → Locking Lock)
    (holders : Holders Lock) :
    LockTurn Query → Holders Lock
  | .receive thread query =>
      if (holders.get? thread).isSome then holders
      else holders.set thread ⟨[], locking query⟩
  | .advance thread way => (holders.advance thread way).getD holders

/-- The busy threads after some turns. -/
def run
    (locking : Query → Locking Lock) :
    Holders Lock → List (LockTurn Query) → Holders Lock
  | holders, [] => holders
  | holders, turn :: rest => run locking (holders.step locking turn) rest

/-- Turns of busy threads none of which has to wait. -/
def moves :
    Holders Lock → List (Nat × Bool) → Option (Holders Lock)
  | holders, [] => some holders
  | holders, move :: rest =>
      (holders.advance move.1 move.2).bind (moves · rest)

variable {holders later : Holders Lock} {thread : Nat} {way : Bool}
  {holder : Holder Lock}

/-- What a turn of a busy thread does. -/
theorem advance_cases
    (advanced : holders.advance thread way = some later) :
    ∃ holder, holders.get? thread = some holder ∧
      ((holder.rest = .done ∧ later = holders.remove thread) ∨
        (∃ lock mode next, holder.rest = .take lock mode next ∧
          holders.Free lock mode ∧
          later = holders.set thread
            ⟨(lock, mode) :: holder.held, next⟩) ∨
        (∃ lock next, holder.rest = .drop lock next ∧
          later = holders.set thread
            ⟨holder.held.filter (·.1 ≠ lock), next⟩) ∨
        ∃ one other, holder.rest = .branch one other ∧
          later = holders.set thread
            ⟨holder.held, if way then one else other⟩) := by
  unfold advance at advanced
  cases stored : holders.get? thread with
  | none =>
      rw [stored] at advanced
      cases advanced
  | some holder =>
      rw [stored] at advanced
      simp only at advanced
      refine ⟨holder, rfl, ?_⟩
      cases rest : holder.rest with
      | done =>
          rw [rest] at advanced
          cases advanced
          exact .inl ⟨rfl, rfl⟩
      | take lock mode next =>
          rw [rest] at advanced
          simp only at advanced
          split at advanced
          · next free =>
              cases advanced
              exact .inr (.inl ⟨lock, mode, next, rfl, free, rfl⟩)
          · cases advanced
      | drop lock next =>
          rw [rest] at advanced
          cases advanced
          exact .inr (.inr (.inl ⟨lock, next, rfl, rfl⟩))
      | branch one other =>
          rw [rest] at advanced
          cases advanced
          exact .inr (.inr (.inr ⟨one, other, rfl, rfl⟩))

/-- A property of the busy threads that turns keep holds after any turns. -/
theorem run_keeps
    {locking : Query → Locking Lock}
    {kept : Holders Lock → Prop}
    (receives :
      ∀ holders thread query, holders.get? thread = none → kept holders →
        kept (holders.set thread ⟨[], locking query⟩))
    (advances :
      ∀ holders thread way later, kept holders →
        holders.advance thread way = some later → kept later)
    (turns : List (LockTurn Query))
    (holds : kept holders) :
    kept (holders.run locking turns) := by
  induction turns generalizing holders with
  | nil =>
      exact holds
  | cons turn rest inductionHypothesis =>
      apply inductionHypothesis
      cases turn with
      | receive thread query =>
          simp only [step]
          split
          · exact holds
          · next idle =>
              rw [Bool.not_eq_true, Option.isSome_eq_false_iff,
                Option.isNone_iff_eq_none] at idle
              exact receives holders thread query idle holds
      | advance thread way =>
          simp only [step]
          cases advanced : holders.advance thread way with
          | none =>
              exact holds
          | some later =>
              exact advances holders thread way later holds advanced

/-! ## Mutual exclusion -/

/-- No two threads hold a lock unless both share it. -/
def Excluding (holders : Holders Lock) : Prop :=
  ∀ one other first second lock mode query, one ≠ other →
    holders.get? one = some first → holders.get? other = some second →
    (lock, mode) ∈ first.held → (lock, query) ∈ second.held →
    mode = .shared ∧ query = .shared

omit [DecidableEq Lock] in
/-- Threads that hold no more than before. -/
theorem Excluding.fewer
    (excluding : holders.Excluding)
    (fewer :
      ∀ thread holder entry, later.get? thread = some holder →
        entry ∈ holder.held →
        ∃ old, holders.get? thread = some old ∧ entry ∈ old.held) :
    later.Excluding := by
  intro one other first second lock mode query different one' other' mine yours
  obtain ⟨old, oldStored, oldMine⟩ := fewer one first _ one' mine
  obtain ⟨older, olderStored, oldYours⟩ := fewer other second _ other' yours
  exact excluding one other old older lock mode query different oldStored
    olderStored oldMine oldYours

omit [DecidableEq Lock] in
/-- One thread that holds no more than before. -/
theorem Excluding.set
    (excluding : holders.Excluding)
    {held : List (Lock × LockMode)}
    (fewer :
      ∀ entry ∈ held, ∃ old, holders.get? thread = some old ∧
        entry ∈ old.held)
    (rest : Locking Lock) :
    Excluding (holders.set thread ⟨held, rest⟩) := by
  apply excluding.fewer
  intro query holder entry stored among
  rw [FMap.get?_set] at stored
  split at stored
  · next same =>
      cases stored
      rw [same]
      exact fewer entry among
  · exact ⟨holder, stored, among⟩

omit [DecidableEq Lock] in
/-- A thread that takes a lock which nothing keeps it from. -/
theorem Excluding.take
    (excluding : holders.Excluding)
    (stored : holders.get? thread = some holder)
    {lock : Lock}
    {mode : LockMode}
    (free : holders.Free lock mode)
    (rest : Locking Lock) :
    Excluding (holders.set thread ⟨(lock, mode) :: holder.held, rest⟩) := by
  have taken :
      ∀ {other second query}, holders.get? other = some second →
        (lock, query) ∈ second.held → mode = .shared ∧ query = .shared :=
    fun found yours =>
      (free _ (FMap.mem_toList_iff.mpr found)).1 _ yours rfl
  intro one other first second lock' mode' query different one' other' mine
    yours
  rw [FMap.get?_set] at one' other'
  split at one' <;> split at other'
  · next isOne isOther => exact (different (isOne.trans isOther.symm)).elim
  · next isOne _ =>
      cases one'
      subst isOne
      rcases List.mem_cons.mp mine with isNew | old
      · cases isNew
        exact taken other' yours
      · exact excluding one other holder second lock' mode' query different
          stored other' old yours
  · next _ isOther =>
      cases other'
      subst isOther
      rcases List.mem_cons.mp yours with isNew | old
      · cases isNew
        exact (taken one' mine).symm
      · exact excluding one other first holder lock' mode' query different one'
          stored mine old
  · exact excluding one other first second lock' mode' query different one'
      other' mine yours

theorem excluding_advance
    (excluding : holders.Excluding)
    (advanced : holders.advance thread way = some later) :
    later.Excluding := by
  obtain ⟨holder, stored, ⟨-, rfl⟩ | ⟨lock, mode, next, -, free, rfl⟩ |
    ⟨lock, next, -, rfl⟩ | ⟨one, other, -, rfl⟩⟩ := advance_cases advanced
  · apply excluding.fewer
    intro query found entry remains among
    rw [FMap.get?_remove] at remains
    split at remains
    · cases remains
    · exact ⟨found, remains, among⟩
  · exact excluding.take stored free next
  · refine excluding.set (fun entry among => ⟨holder, stored, ?_⟩) next
    exact List.mem_of_mem_filter among
  · exact excluding.set (fun entry among => ⟨holder, stored, among⟩) _

/-- In every interleaving, locks exclude one another. -/
theorem excluding_run
    (locking : Query → Locking Lock)
    (turns : List (LockTurn Query)) :
    Excluding (Holders.run locking ∅ turns) := by
  apply run_keeps
  · intro holders thread query idle excluding
    exact excluding.set (fun entry among => by cases among) _
  · intro holders thread way later excluding advanced
    exact excluding_advance excluding advanced
  · intro one other first second lock mode query different one'
    rw [FMap.get?_empty] at one'
    cases one'

/-! ## Progress -/

/-- Every busy thread takes its locks in order. -/
def InOrder
    (rank : Lock → Nat)
    (holders : Holders Lock) : Prop :=
  ∀ thread holder, holders.get? thread = some holder →
    holder.rest.Ordered rank (holder.held.map (·.1))

variable {rank : Lock → Nat}

theorem InOrder.set
    (inOrder : holders.InOrder rank)
    {held : List (Lock × LockMode)}
    {rest : Locking Lock}
    (ordered : rest.Ordered rank (held.map (·.1))) :
    InOrder rank (holders.set thread ⟨held, rest⟩) := by
  intro query holder stored
  rw [FMap.get?_set] at stored
  split at stored
  · cases stored
    exact ordered
  · exact inOrder query holder stored

theorem inOrder_advance
    (inOrder : holders.InOrder rank)
    (advanced : holders.advance thread way = some later) :
    later.InOrder rank := by
  obtain ⟨holder, stored, cases⟩ := advance_cases advanced
  have ordered := inOrder thread holder stored
  obtain ⟨-, rfl⟩ | ⟨lock, mode, next, shape, -, rfl⟩ |
    ⟨lock, next, shape, rfl⟩ | ⟨one, other, shape, rfl⟩ := cases
  · intro query found remains
    rw [FMap.get?_remove] at remains
    split at remains
    · cases remains
    · exact inOrder query found remains
  · rw [shape] at ordered
    exact inOrder.set ordered.2
  · rw [shape] at ordered
    apply inOrder.set
    have same :
        (holder.held.filter (·.1 ≠ lock)).map (·.1) =
          (holder.held.map (·.1)).filter (· ≠ lock) := by
      rw [List.filter_map]
      rfl
    rw [same]
    exact ordered
  · rw [shape] at ordered
    apply inOrder.set
    cases way with
    | true => exact ordered.1
    | false => exact ordered.2

theorem inOrder_run
    {locking : Query → Locking Lock}
    (ordered : ∀ query, (locking query).Ordered rank [])
    (turns : List (LockTurn Query)) :
    InOrder rank (Holders.run locking ∅ turns) := by
  apply run_keeps
  · intro holders thread query idle inOrder
    exact inOrder.set (ordered query)
  · intro holders thread way later inOrder advanced
    exact inOrder_advance inOrder advanced
  · intro thread holder stored
    rw [FMap.get?_empty] at stored
    cases stored

/-- A thread that cannot go on waits for a lock. -/
theorem waits_of_stuck
    (stored : holders.get? thread = some holder)
    (stuck : ∀ way, holders.advance thread way = none) :
    ∃ lock mode next, holder.rest = .take lock mode next ∧
      ¬ holders.Free lock mode := by
  have still := stuck true
  unfold advance at still
  rw [stored] at still
  simp only at still
  cases rest : holder.rest with
  | take lock mode next =>
      rw [rest] at still
      simp only at still
      split at still
      · cases still
      · next waits =>
          exact ⟨lock, mode, next, rfl, waits⟩
  | done | drop lock next | branch one other =>
      rw [rest] at still
      cases still

/-- The rank of the lock that a thread waits for. -/
def wantedRank
    (rank : Lock → Nat)
    (entry : Nat × Holder Lock) : Nat :=
  (entry.2.wants?.map fun wanted => rank wanted.1).getD 0

/-- All threads wait. -/
def Stuck (holders : Holders Lock) : Prop :=
  ∀ thread way, holders.advance thread way = none

/-- Where all threads wait, a lock that is held is kept by a thread that waits
for a higher one. -/
theorem Stuck.higher
    (stuck : holders.Stuck)
    (inOrder : holders.InOrder rank)
    {entry : Nat × Holder Lock}
    (busy : entry ∈ holders.toList)
    {held : Lock × LockMode}
    (holds : held ∈ entry.2.held) :
    rank held.1 < wantedRank rank entry := by
  have stored := FMap.mem_toList_iff.mp busy
  obtain ⟨lock, mode, next, rest, -⟩ :=
    waits_of_stuck stored (stuck entry.1)
  have ordered := inOrder entry.1 entry.2 stored
  rw [rest] at ordered
  have wanted : entry.2.wants? = some (lock, mode) := by
    unfold Holder.wants?
    rw [rest]
  unfold wantedRank
  rw [wanted]
  exact ordered.1 held.1 (List.mem_map_of_mem holds)

/-- A writer that waits is kept by a thread that waits for a higher lock. -/
theorem Stuck.above_writer
    (stuck : holders.Stuck)
    (inOrder : holders.InOrder rank)
    {lock : Lock}
    (waits : ¬ holders.Free lock .exclusive) :
    ∃ other ∈ holders.toList, rank lock < wantedRank rank other := by
  unfold Free at waits
  simp only [reduceCtorEq, false_and, imp_false, false_implies, and_true,
    not_forall, not_not] at waits
  obtain ⟨other, busy, held, holds, same⟩ := waits
  refine ⟨other, busy, ?_⟩
  rw [← same]
  exact stuck.higher inOrder busy holds

/-- A thread that waits is kept by one that waits for a higher lock. -/
theorem Stuck.above
    (stuck : holders.Stuck)
    (inOrder : holders.InOrder rank)
    {lock : Lock}
    {mode : LockMode}
    (waits : ¬ holders.Free lock mode) :
    ∃ other ∈ holders.toList, rank lock < wantedRank rank other := by
  cases mode with
  | exclusive =>
      exact stuck.above_writer inOrder waits
  | shared =>
      unfold Free at waits
      simp only [not_forall] at waits
      obtain ⟨other, busy, waits⟩ := waits
      rw [not_and_or] at waits
      rcases waits with held | writer
      · simp only [not_forall] at held
        obtain ⟨held, holds, same, -⟩ := held
        refine ⟨other, busy, ?_⟩
        rw [← same]
        exact stuck.higher inOrder busy holds
      · -- A waiting writer waits itself, and for a lock that is held.
        simp only [forall_const, not_not] at writer
        have stored := FMap.mem_toList_iff.mp busy
        obtain ⟨wanted, mode, next, rest, blocked⟩ :=
          waits_of_stuck stored (stuck other.1)
        have same : other.2.wants? = some (wanted, mode) := by
          unfold Holder.wants?
          rw [rest]
        rw [same] at writer
        cases writer
        exact stuck.above_writer inOrder blocked

/-- Some busy thread goes on. -/
theorem some_advances
    (inOrder : holders.InOrder rank)
    (busy : holders ≠ ∅) :
    ∃ thread way later, holders.advance thread way = some later := by
  by_contra none
  have stuck : holders.Stuck := by
    intro thread way
    cases advanced : holders.advance thread way with
    | none =>
        rfl
    | some later =>
        exact absurd ⟨thread, way, later, advanced⟩ none
  cases most : holders.toList.argmax (wantedRank rank) with
  | none =>
      rw [List.argmax_eq_none] at most
      apply busy
      apply FMap.eq_empty_of_get?
      intro thread
      cases stored : holders.get? thread with
      | none =>
          rfl
      | some holder =>
          rw [← FMap.mem_toList_iff, most] at stored
          cases stored
  | some entry =>
      have among : entry ∈ holders.toList := List.argmax_mem most
      have stored := FMap.mem_toList_iff.mp among
      obtain ⟨lock, mode, next, rest, waits⟩ :=
        waits_of_stuck stored (stuck entry.1)
      obtain ⟨other, listed, higher⟩ := stuck.above inOrder waits
      have highest := List.le_of_mem_argmax listed most
      have own : wantedRank rank entry = rank lock := by
        unfold wantedRank Holder.wants?
        rw [rest]
        rfl
      omega

/-! ## Completion -/

/-- The operations that are left of all threads. -/
def work (holders : Holders Lock) : Nat :=
  FMap.total holders fun holder => holder.rest.size

theorem work_advance
    (advanced : holders.advance thread way = some later) :
    later.work < holders.work := by
  obtain ⟨holder, stored, cases⟩ := advance_cases advanced
  have replaced :
      ∀ held rest,
        work (holders.set thread ⟨held, rest⟩) + holder.rest.size =
          holders.work + rest.size :=
    fun held rest => FMap.total_set stored ⟨held, rest⟩ _
  obtain ⟨shape, rfl⟩ | ⟨lock, mode, next, shape, -, rfl⟩ |
    ⟨lock, next, shape, rfl⟩ | ⟨one, other, shape, rfl⟩ := cases
  · have removed := FMap.total_remove stored fun holder => holder.rest.size
    rw [shape] at removed
    simp only [Locking.size] at removed
    unfold work
    omega
  · have replaced := replaced ((lock, mode) :: holder.held) next
    rw [shape] at replaced
    simp only [Locking.size] at replaced
    omega
  · have replaced := replaced (holder.held.filter (·.1 ≠ lock)) next
    rw [shape] at replaced
    simp only [Locking.size] at replaced
    omega
  · have replaced := replaced holder.held (if way then one else other)
    rw [shape] at replaced
    cases way with
    | true | false =>
        simp only [Locking.size, ↓reduceIte, Bool.false_eq_true] at *
        omega

/-- Without new queries there are only so many turns. -/
theorem length_moves
    {turns : List (Nat × Bool)}
    (moved : holders.moves turns = some later) :
    turns.length ≤ holders.work := by
  induction turns generalizing holders with
  | nil =>
      exact Nat.zero_le _
  | cons turn rest inductionHypothesis =>
      obtain ⟨middle, advanced, moved⟩ := Option.bind_eq_some_iff.mp moved
      have less := work_advance advanced
      have remaining := inductionHypothesis moved
      rw [List.length_cons]
      omega

theorem inOrder_moves
    {turns : List (Nat × Bool)}
    (inOrder : holders.InOrder rank)
    (moved : holders.moves turns = some later) :
    later.InOrder rank := by
  induction turns generalizing holders with
  | nil =>
      cases moved
      exact inOrder
  | cons turn rest inductionHypothesis =>
      obtain ⟨middle, advanced, moved⟩ := Option.bind_eq_some_iff.mp moved
      exact inductionHypothesis (inOrder_advance inOrder advanced) moved

end Holders

end FuseOverlay
