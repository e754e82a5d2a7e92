import FuseOverlay.Lib.FMap
import FuseOverlay.Lib.Yields

namespace FuseOverlay

/-!
# Threads that take turns

Threads share one state.  Each is idle or at a point of its handler, with the
data it holds there; what it does at a point runs as a whole, and any other
thread may run between two points.  The rule at the end proves an invariant of
the shared state together with an assertion at every point: a thread must keep
the invariant, reach its next assertion, and interfere with no assertion of
another thread.
-/

/-- What threads run: the first point of a query, and what is done at a point,
which ends the handler or leads to its next point. -/
structure Program (ε σ Query Input Point β : Type) where
  first : Query → Point
  act : Input → Point → Act ε σ (Point ⊕ β)

/-- The shared state and where the busy threads are. -/
structure Threads (σ Point : Type) where
  shared : σ
  points : FMap Nat Point

/-- A thread gets a query, or its next turn. -/
inductive Turn (Query Input : Type) where
  | receive (thread : Nat) (query : Query)
  | advance (thread : Nat) (input : Input)

namespace Threads

variable {ε σ Query Input Point β : Type}
  (program : Program ε σ Query Input Point β)

/-- All threads are idle. -/
def idle (shared : σ) : Threads σ Point :=
  ⟨shared, ∅⟩

/-- The point a turn leads to, if the handler goes on. -/
def next? : Except ε (Point ⊕ β) → Option Point
  | .ok (.inl next) => some next
  | _ => none

theorem next?_eq_some
    {outcome : Except ε (Point ⊕ β)}
    {next : Point} :
    next? outcome = some next ↔ outcome = .ok (.inl next) := by
  unfold next?
  split <;> simp_all

/-- A fact of the point that a turn leads to. -/
def Leads
    (fact : Point → Prop) :
    Point ⊕ β → Prop
  | .inl next => fact next
  | .inr _ => True

/-- The reply of a turn, if the handler ends. -/
def reply? : Except ε (Point ⊕ β) → Option (Except ε β)
  | .ok (.inl _) => none
  | .ok (.inr value) => some (.ok value)
  | .error error => some (.error error)

/-- The threads after a turn of one of them. -/
def settle
    (threads : Threads σ Point)
    (thread : Nat)
    (result : Except ε (Point ⊕ β) × σ) :
    Threads σ Point where
  shared := result.2
  points :=
    match next? result.1 with
    | some next => threads.points.set thread next
    | none => threads.points.remove thread

theorem settle_points
    (threads : Threads σ Point)
    (thread query : Nat)
    (result : Except ε (Point ⊕ β) × σ) :
    (threads.settle thread result).points.get? query =
      if query = thread then next? result.1
      else threads.points.get? query := by
  unfold settle
  cases next? result.1 with
  | some next => exact FMap.get?_set threads.points thread query next
  | none => exact FMap.get?_remove threads.points thread query

/-- An idle thread gets a query; a busy one does not take it. -/
def receive
    (threads : Threads σ Point)
    (thread : Nat)
    (query : Query) :
    Threads σ Point :=
  if (threads.points.get? thread).isSome then threads
  else
    { threads with
      points := threads.points.set thread (program.first query) }

/-- A busy thread gets its turn. -/
def advance
    (threads : Threads σ Point)
    (thread : Nat)
    (input : Input) :
    Threads σ Point :=
  match threads.points.get? thread with
  | none => threads
  | some point =>
      threads.settle thread (program.act input point threads.shared)

/-- What happens next. -/
def step
    (threads : Threads σ Point) :
    Turn Query Input → Threads σ Point
  | .receive thread query => threads.receive program thread query
  | .advance thread input => threads.advance program thread input

/-- How a handler ended in this turn. -/
def reply
    (threads : Threads σ Point) :
    Turn Query Input → Option (Except ε β)
  | .receive .. => none
  | .advance thread input =>
      (threads.points.get? thread).bind fun point =>
        reply? (program.act input point threads.shared).1

/-- The threads after some turns. -/
def run :
    Threads σ Point → List (Turn Query Input) → Threads σ Point
  | threads, [] => threads
  | threads, turn :: rest => run (threads.step program turn) rest

theorem run_append
    (threads : Threads σ Point)
    (first second : List (Turn Query Input)) :
    threads.run program (first ++ second) =
      (threads.run program first).run program second := by
  induction first generalizing threads with
  | nil =>
      rfl
  | cons turn rest inductionHypothesis =>
      exact inductionHypothesis (threads.step program turn)

end Threads

/-! ## The rule -/

/-- The queries that may come, an invariant of the shared state, an assertion at
every point, and a relation between the points of two threads. -/
structure Outline (σ Query Point : Type) where
  accepts : Query → Prop
  invariant : σ → Prop
  assertion : Point → σ → Prop
  apart : Point → Point → Prop

namespace Outline

variable {ε σ Query Input Point β : Type}

/-- Everything that the outline says holds. -/
structure Holds
    (outline : Outline σ Query Point)
    (threads : Threads σ Point) : Prop where
  shared : outline.invariant threads.shared
  points : ∀ thread point, threads.points.get? thread = some point →
    outline.assertion point threads.shared
  apart : ∀ one other point query, one ≠ other →
    threads.points.get? one = some point →
    threads.points.get? other = some query → outline.apart point query

/-- What one turn of one thread has to show. -/
structure Sound
    (outline : Outline σ Query Point)
    (program : Program ε σ Query Input Point β) : Prop where
  first : ∀ query shared, outline.accepts query → outline.invariant shared →
    outline.assertion (program.first query) shared
  firstApart : ∀ query point, outline.accepts query →
    outline.apart (program.first query) point ∧
      outline.apart point (program.first query)
  act : ∀ input point, Act.Holds
    (fun shared => outline.invariant shared ∧ outline.assertion point shared)
    (program.act input point)
    fun outcome shared => outline.invariant shared ∧
      ∀ next, Threads.next? outcome = some next →
        outline.assertion next shared
  frame : ∀ input point query, outline.apart point query → Act.Holds
    (fun shared => outline.invariant shared ∧
      outline.assertion point shared ∧ outline.assertion query shared)
    (program.act input point)
    fun outcome shared => outline.assertion query shared ∧
      ∀ next, Threads.next? outcome = some next →
        outline.apart next query ∧ outline.apart query next

variable {outline : Outline σ Query Point}
  {program : Program ε σ Query Input Point β}

theorem holds_idle
    {shared : σ}
    (holds : outline.invariant shared) :
    outline.Holds (Threads.idle shared) := by
  have nobody :
      ∀ {thread point},
        (Threads.idle shared : Threads σ Point).points.get? thread ≠
          some point := by
    intro thread point stored
    have none : (∅ : FMap Nat Point).get? thread = some point := stored
    rw [FMap.get?_empty] at none
    cases none
  exact {
    shared := holds
    points := fun _ _ stored => (nobody stored).elim
    apart := fun _ _ _ _ _ stored => (nobody stored).elim }

theorem Sound.receive
    (sound : outline.Sound program)
    {threads : Threads σ Point}
    (holds : outline.Holds threads)
    (thread : Nat)
    {query : Query}
    (accepted : outline.accepts query) :
    outline.Holds (threads.receive program thread query) := by
  unfold Threads.receive
  split
  · exact holds
  refine ⟨holds.shared, ?_, ?_⟩
  · intro query' point stored
    rw [FMap.get?_set] at stored
    split at stored
    · cases stored
      exact sound.first query threads.shared accepted holds.shared
    · exact holds.points query' point stored
  · intro one other point point' different stored stored'
    rw [FMap.get?_set] at stored stored'
    split at stored <;> split at stored'
    · next isOne isOther => exact (different (isOne.trans isOther.symm)).elim
    · cases stored
      exact (sound.firstApart query point' accepted).1
    · cases stored'
      exact (sound.firstApart query point accepted).2
    · exact holds.apart one other point point' different stored stored'

theorem Sound.settle
    (sound : outline.Sound program)
    {threads : Threads σ Point}
    (holds : outline.Holds threads)
    {thread : Nat}
    {point : Point}
    (stored : threads.points.get? thread = some point)
    (input : Input) :
    outline.Holds
      (threads.settle thread (program.act input point threads.shared)) := by
  have own := holds.points thread point stored
  have kept := sound.act input point threads.shared ⟨holds.shared, own⟩
  have framed :
      ∀ other query, other ≠ thread →
        threads.points.get? other = some query →
        outline.assertion query
            (program.act input point threads.shared).2 ∧
          ∀ next,
            Threads.next? (program.act input point threads.shared).1 =
              some next →
            outline.apart next query ∧ outline.apart query next := by
    intro other query different otherStored
    exact sound.frame input point query
      (holds.apart thread other point query different.symm stored otherStored)
      threads.shared
      ⟨holds.shared, own, holds.points other query otherStored⟩
  refine ⟨kept.1, ?_, ?_⟩
  · intro query at' reached
    rw [Threads.settle_points] at reached
    split at reached
    · exact kept.2 at' reached
    · next different => exact (framed query at' different reached).1
  · intro one other at' query different reached reached'
    rw [Threads.settle_points] at reached reached'
    split at reached <;> split at reached'
    · next isOne isOther => exact (different (isOne.trans isOther.symm)).elim
    · next apart => exact ((framed other query apart reached').2 at' reached).1
    · next apart _ =>
        exact ((framed one at' apart reached).2 query reached').2
    · exact holds.apart one other at' query different reached reached'

theorem Sound.advance
    (sound : outline.Sound program)
    {threads : Threads σ Point}
    (holds : outline.Holds threads)
    (thread : Nat)
    (input : Input) :
    outline.Holds (threads.advance program thread input) := by
  unfold Threads.advance
  cases stored : threads.points.get? thread with
  | none =>
      exact holds
  | some point =>
      exact sound.settle holds stored input

/-- The queries of some turns may come. -/
def Accepts
    (outline : Outline σ Query Point)
    (turns : List (Turn Query Input)) : Prop :=
  ∀ thread query, .receive thread query ∈ turns → outline.accepts query

theorem Sound.step
    (sound : outline.Sound program)
    {threads : Threads σ Point}
    (holds : outline.Holds threads)
    {turn : Turn Query Input}
    (accepted : outline.Accepts [turn]) :
    outline.Holds (threads.step program turn) := by
  cases turn with
  | receive thread query =>
      exact sound.receive holds thread
        (accepted thread query List.mem_cons_self)
  | advance thread input =>
      exact sound.advance holds thread input

/-- The outline holds after any turns of the threads, in any order. -/
theorem Sound.run
    (sound : outline.Sound program)
    {threads : Threads σ Point}
    (holds : outline.Holds threads)
    {turns : List (Turn Query Input)}
    (accepted : outline.Accepts turns) :
    outline.Holds (threads.run program turns) := by
  induction turns generalizing threads with
  | nil =>
      exact holds
  | cons turn rest inductionHypothesis =>
      apply inductionHypothesis
      · apply sound.step holds
        intro thread query member
        cases List.mem_singleton.mp member
        exact accepted thread query List.mem_cons_self
      · exact fun thread query member =>
          accepted thread query (List.mem_cons_of_mem _ member)

/-- An invariant with assertions that do not look at the state. -/
def plain
    (accepts : Query → Prop)
    (kept : σ → Prop)
    (fact : Point → Prop) :
    Outline σ Query Point where
  accepts := accepts
  invariant := kept
  assertion point _ := fact point
  apart _ _ := True

/-- Threads that share no more than an invariant do not interfere. -/
theorem sound_plain
    {accepts : Query → Prop}
    {kept : σ → Prop}
    {fact : Point → Prop}
    (first : ∀ query, accepts query → fact (program.first query))
    (act : ∀ input point, fact point →
      Act.Yields kept (program.act input point) (Threads.Leads fact)) :
    (plain accepts kept fact).Sound program where
  first query _ accepted _ := first query accepted
  firstApart _ _ _ := ⟨trivial, trivial⟩
  act := by
    intro input point shared given
    obtain ⟨holds, leads⟩ := act input point given.2 shared given.1
    refine ⟨holds, fun next reached => ?_⟩
    exact leads (.inl next) (Threads.next?_eq_some.mp reached)
  frame _ _ _ _ _ given :=
    ⟨given.2.2, fun _ _ => ⟨trivial, trivial⟩⟩

end Outline

end FuseOverlay
