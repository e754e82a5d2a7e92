import FuseOverlay.Passthrough
import FuseOverlay.Sample

namespace FuseOverlay

/-!
# Backing counts

Every open that uses a backing is counted once, first as a pending open and
then as a recorded handle.  As long as `create` finds no entry for its number,
the count of an entry is the number of both, so the entry stays while one of
them is there and all of them have the same backing.
-/

namespace Passthrough

namespace State

/-- The number has this backing. -/
def Backs
    (state : State)
    (ino : UInt64)
    (backingId : BackingId) : Prop :=
  ∃ count, state.inodeBackings.get? ino = some (backingId, count)

theorem Backs.unique
    {state : State}
    {ino : UInt64}
    {first second : BackingId}
    (backsFirst : state.Backs ino first)
    (backsSecond : state.Backs ino second) :
    first = second := by
  obtain ⟨firstCount, isFirst⟩ := backsFirst
  obtain ⟨secondCount, isSecond⟩ := backsSecond
  have same := isFirst.symm.trans isSecond
  simp only [Option.some.injEq, Prod.mk.injEq] at same
  exact same.1

/-- What the tables have for a thread. -/
def PhaseOk
    (state : State) :
    Phase → Prop
  | .recheck _ fh _ => state.fhToIno.get? fh = none
  | .counted job fh backingId | .stored job fh backingId =>
      state.fhToIno.get? fh = none ∧ state.Backs job.ino backingId
  | .recorded job fh backingId =>
      state.fhToIno.get? fh = some job.ino ∧ state.Backs job.ino backingId
  | _ => True

/-- Every handle has one owner, a thread or the kernel. -/
structure Owned (state : State) : Prop where
  used :
    ∀ thread phase fh, state.threads.get? thread = some phase →
      phase.fh? = some fh → fh < state.nextFh
  heldUsed :
    ∀ fh answer, state.held.get? fh = some answer → fh < state.nextFh
  keyUsed : ∀ fh ino, state.fhToIno.get? fh = some ino → fh < state.nextFh
  apart :
    ∀ first second firstPhase secondPhase fh,
      state.threads.get? first = some firstPhase →
      state.threads.get? second = some secondPhase →
      firstPhase.fh? = some fh → secondPhase.fh? = some fh → first = second
  heldApart :
    ∀ thread phase fh, state.threads.get? thread = some phase →
      phase.fh? = some fh → state.held.get? fh = none

/-- Every count is the number of its pending opens and handles. -/
structure Counted (state : State) : Prop where
  owned : state.Owned
  counts : ∀ ino, state.count ino = state.mapped ino + state.pending ino
  positive :
    ∀ ino backingId count,
      state.inodeBackings.get? ino = some (backingId, count) → 0 < count
  phases :
    ∀ thread phase, state.threads.get? thread = some phase →
      state.PhaseOk phase
  answers :
    ∀ fh answer backingId, state.held.get? fh = some answer →
      answer.backing = some backingId →
      state.fhToIno.get? fh = some answer.job.ino ∧
        state.Backs answer.job.ino backingId

theorem counted_init
    (enabled : Bool)
    (current : UInt64 → File) :
    (init enabled current).Counted where
  owned := by constructor <;> simp [init]
  counts := by simp [init, count, mapped, pending]
  positive := by simp [init]
  phases := by simp [init]
  answers := by simp [init]

variable {state : State} {thread : Nat}

/-! ## Handles -/

/-- A phase whose handle, if any, nobody else has. -/
def Free
    (state : State)
    (thread : Nat)
    (phase : Phase) : Prop :=
  ∀ fh, phase.fh? = some fh → fh < state.nextFh ∧
    state.held.get? fh = none ∧
    ∀ other otherPhase, state.threads.get? other = some otherPhase →
      otherPhase.fh? = some fh → other = thread

theorem Owned.setPhase
    (owned : state.Owned)
    {phase : Phase}
    (free : state.Free thread phase) :
    (state.setPhase thread phase).Owned := by
  refine ⟨?_, owned.heldUsed, owned.keyUsed, ?_, ?_⟩
  · intro other otherPhase fh stored hasFh
    simp only [State.setPhase, FMap.get?_set] at stored
    split at stored
    · cases stored
      exact (free fh hasFh).1
    · exact owned.used other otherPhase fh stored hasFh
  · intro first second firstPhase secondPhase fh firstStored secondStored
      firstFh secondFh
    simp only [State.setPhase, FMap.get?_set] at firstStored secondStored
    split at firstStored
    · next isThread =>
        split at secondStored
        · next isThread' =>
            rw [isThread, isThread']
        · cases firstStored
          rw [isThread]
          exact ((free fh firstFh).2.2 second secondPhase secondStored
            secondFh).symm
    · split at secondStored
      · next isThread =>
          cases secondStored
          rw [isThread]
          exact (free fh secondFh).2.2 first firstPhase firstStored firstFh
      · exact owned.apart first second firstPhase secondPhase fh firstStored
          secondStored firstFh secondFh
  · intro other otherPhase fh stored hasFh
    simp only [State.setPhase, FMap.get?_set] at stored
    split at stored
    · cases stored
      exact (free fh hasFh).2.1
    · exact owned.heldApart other otherPhase fh stored hasFh

/-- The handle a thread has is free for its next phase. -/
theorem Owned.free_of_same
    (owned : state.Owned)
    {before after : Phase}
    (stored : state.threads.get? thread = some before)
    (same : ∀ fh, after.fh? = some fh → before.fh? = some fh) :
    state.Free thread after := by
  intro fh hasFh
  refine ⟨owned.used thread before fh stored (same fh hasFh),
    owned.heldApart thread before fh stored (same fh hasFh), ?_⟩
  intro other otherPhase otherStored otherFh
  exact owned.apart other thread otherPhase before fh otherStored stored
    otherFh (same fh hasFh)

/-- A thread that is done leaves its handle to the kernel or to nobody. -/
theorem Owned.finish
    (owned : state.Owned)
    {before : Phase}
    (stored : state.threads.get? thread = some before)
    (held : FMap Nat Answer)
    (given :
      ∀ fh answer, held.get? fh = some answer →
        before.fh? = some fh ∨ state.held.get? fh = some answer) :
    ({ state with held := held }.finish thread).Owned := by
  have others :
      ∀ other phase, (state.threads.remove thread).get? other = some phase →
        other ≠ thread ∧ state.threads.get? other = some phase := by
    intro other phase otherStored
    rw [FMap.get?_remove] at otherStored
    split at otherStored
    · cases otherStored
    · next different => exact ⟨different, otherStored⟩
  refine ⟨?_, ?_, owned.keyUsed, ?_, ?_⟩
  · intro other phase fh otherStored hasFh
    exact owned.used other phase fh (others other phase otherStored).2 hasFh
  · intro fh answer heldNow
    rcases given fh answer heldNow with hasFh | heldBefore
    · exact owned.used thread before fh stored hasFh
    · exact owned.heldUsed fh answer heldBefore
  · intro first second firstPhase secondPhase fh firstStored secondStored
    exact owned.apart first second firstPhase secondPhase fh
      (others first firstPhase firstStored).2
      (others second secondPhase secondStored).2
  · intro other phase fh otherStored hasFh
    obtain ⟨different, otherStored⟩ := others other phase otherStored
    cases heldNow : held.get? fh with
    | none =>
        exact heldNow
    | some answer =>
        rcases given fh answer heldNow with ownFh | heldBefore
        · exact (different (owned.apart other thread phase before fh
            otherStored stored hasFh ownFh)).elim
        · rw [owned.heldApart other phase fh otherStored hasFh] at heldBefore
          cases heldBefore

/-! ## What one step keeps -/

theorem pending_setPhase
    (state : State)
    (thread : Nat)
    (phase : Phase)
    (ino : UInt64) :
    (state.setPhase thread phase).pending ino +
        FMap.weight (Phase.pendsOn ino) (state.threads.get? thread) =
      state.pending ino + FMap.weight (Phase.pendsOn ino) (some phase) :=
  FMap.count_set state.threads thread phase (Phase.pendsOn ino)

theorem pending_finish
    (state : State)
    (thread : Nat)
    (ino : UInt64) :
    (state.finish thread).pending ino +
        FMap.weight (Phase.pendsOn ino) (state.threads.get? thread) =
      state.pending ino :=
  FMap.count_remove state.threads thread (Phase.pendsOn ino)

/-- What the tables have for a handle of the kernel. -/
def AnswerOk
    (state : State)
    (fh : Nat)
    (answer : Answer) : Prop :=
  ∀ backingId, answer.backing = some backingId →
    state.fhToIno.get? fh = some answer.job.ino ∧
      state.Backs answer.job.ino backingId

/-- A count above zero is in an entry. -/
theorem backs_of_count
    {ino : UInt64}
    (positive : 0 < state.count ino) :
    ∃ backingId, state.Backs ino backingId := by
  unfold count at positive
  cases found : state.inodeBackings.get? ino with
  | none =>
      simp [found] at positive
  | some entry =>
      exact ⟨entry.1, entry.2, found⟩

/-- A step of one thread keeps what the tables have for the others, once the
counts are right: an entry that is still counted is still there. -/
theorem Counted.turn
    (before : state.Counted)
    (thread : Nat)
    {after : State}
    (owned : after.Owned)
    (counts : ∀ ino, after.count ino = after.mapped ino + after.pending ino)
    (positive :
      ∀ ino backingId count,
        after.inodeBackings.get? ino = some (backingId, count) → 0 < count)
    (others :
      ∀ other, other ≠ thread →
        after.threads.get? other = state.threads.get? other)
    (own :
      ∀ phase, after.threads.get? thread = some phase → after.PhaseOk phase)
    (handles :
      ∀ fh, after.fhToIno.get? fh = state.fhToIno.get? fh ∨
        ∃ phase, state.threads.get? thread = some phase ∧
          phase.fh? = some fh)
    (backings :
      ∀ ino old new, state.Backs ino old → after.Backs ino new → new = old)
    (held :
      ∀ fh answer, after.held.get? fh = some answer →
        state.held.get? fh = some answer ∨ after.AnswerOk fh answer) :
    after.Counted := by
  have stays :
      ∀ ino backingId, state.Backs ino backingId →
        0 < after.mapped ino + after.pending ino →
        after.Backs ino backingId := by
    intro ino backingId backs used
    rw [← counts ino] at used
    obtain ⟨new, backsNew⟩ := backs_of_count used
    rw [← backings ino backingId new backs backsNew]
    exact backsNew
  refine ⟨owned, counts, positive, ?_, ?_⟩
  · intro other phase stored
    by_cases isThread : other = thread
    · rw [isThread] at stored
      exact own phase stored
    have storedBefore := stored
    rw [others other isThread] at storedBefore
    have kept :
        ∀ fh, phase.fh? = some fh →
          after.fhToIno.get? fh = state.fhToIno.get? fh := by
      intro fh hasFh
      rcases handles fh with same | ⟨own, ownStored, ownFh⟩
      · exact same
      · exact (isThread (before.owned.apart other thread phase own fh
          storedBefore ownStored hasFh ownFh)).elim
    have ok := before.phases other phase storedBefore
    cases phase with
    | recheck job fh backingId =>
        exact (kept fh rfl).trans ok
    | counted job fh backingId =>
        have pends : 0 < after.pending job.ino :=
          FMap.count_pos stored (by simp [Phase.pendsOn])
        exact ⟨(kept fh rfl).trans ok.1,
          stays job.ino backingId ok.2 (by omega)⟩
    | stored job fh backingId =>
        have pends : 0 < after.pending job.ino :=
          FMap.count_pos stored (by simp [Phase.pendsOn])
        exact ⟨(kept fh rfl).trans ok.1,
          stays job.ino backingId ok.2 (by omega)⟩
    | recorded job fh backingId =>
        have recorded := (kept fh rfl).trans ok.1
        have counted : 0 < after.mapped job.ino :=
          FMap.count_pos recorded (by simp)
        exact ⟨recorded, stays job.ino backingId ok.2 (by omega)⟩
    | _ =>
        trivial
  · intro fh answer backingId heldNow answered
    rcases held fh answer heldNow with heldBefore | ok
    · obtain ⟨recorded, backs⟩ :=
        before.answers fh answer backingId heldBefore answered
      have kept : after.fhToIno.get? fh = some answer.job.ino := by
        rcases handles fh with same | ⟨phase, stored, hasFh⟩
        · exact same.trans recorded
        · rw [before.owned.heldApart thread phase fh stored hasFh]
            at heldBefore
          cases heldBefore
      have counted : 0 < after.mapped answer.job.ino :=
        FMap.count_pos kept (by simp)
      exact ⟨kept, stays answer.job.ino backingId backs (by omega)⟩
    · exact ok backingId answered

/-- A step that only draws a handle or changes the files. -/
theorem Counted.later
    (before : state.Counted)
    {after : State}
    (threads : after.threads = state.threads)
    (backings : after.inodeBackings = state.inodeBackings)
    (handles : after.fhToIno = state.fhToIno)
    (held : after.held = state.held)
    (drawn : state.nextFh ≤ after.nextFh) :
    after.Counted := by
  cases state
  cases after
  simp only at threads backings handles held drawn
  subst threads backings handles held
  have owned := before.owned
  refine ⟨⟨?_, ?_, ?_, owned.apart, owned.heldApart⟩, before.counts,
    before.positive, ?_, before.answers⟩
  · intro other phase fh stored hasFh
    exact Nat.lt_of_lt_of_le (owned.used other phase fh stored hasFh) drawn
  · intro fh answer heldNow
    exact Nat.lt_of_lt_of_le (owned.heldUsed fh answer heldNow) drawn
  · intro fh ino recorded
    exact Nat.lt_of_lt_of_le (owned.keyUsed fh ino recorded) drawn
  · intro other phase stored
    have ok := before.phases other phase stored
    cases phase with
    | _ => exact ok

/-- The handle that is drawn next belongs to nobody. -/
theorem Counted.fresh
    (before : state.Counted)
    (thread : Nat) :
    state.fhToIno.get? state.nextFh = none ∧
      ({ state with nextFh := state.nextFh + 1 }).Counted ∧
      ∀ phase : Phase, phase.fh? = some state.nextFh →
        ({ state with nextFh := state.nextFh + 1 }).Free thread phase := by
  refine ⟨?_, before.later rfl rfl rfl rfl (Nat.le_succ _), ?_⟩
  · cases recorded : state.fhToIno.get? state.nextFh with
    | none =>
        rfl
    | some ino =>
        exact (Nat.lt_irrefl _
          (before.owned.keyUsed state.nextFh ino recorded)).elim
  · intro phase isNext fh hasFh
    rw [isNext] at hasFh
    cases hasFh
    refine ⟨Nat.lt_succ_self _, ?_, ?_⟩
    · cases heldNow : state.held.get? state.nextFh with
      | none =>
          rfl
      | some answer =>
          exact (Nat.lt_irrefl _
            (before.owned.heldUsed state.nextFh answer heldNow)).elim
    · intro other otherPhase stored hasFh
      exact (Nat.lt_irrefl _
        (before.owned.used other otherPhase state.nextFh stored hasFh)).elim

/-- A thread goes on, or begins, without a change to the tables. -/
theorem Counted.setPhase
    (before : state.Counted)
    {phase : Phase}
    (free : state.Free thread phase)
    (ok : state.PhaseOk phase)
    (pends :
      ∀ ino, FMap.weight (Phase.pendsOn ino) (state.threads.get? thread) =
        FMap.weight (Phase.pendsOn ino) (some phase)) :
    (state.setPhase thread phase).Counted := by
  apply before.turn thread (before.owned.setPhase free)
  · intro ino
    have changed := state.pending_setPhase thread phase ino
    have counts : state.count ino = state.mapped ino + state.pending ino :=
      before.counts ino
    have pends := pends ino
    change state.count ino = state.mapped ino + _
    omega
  · exact before.positive
  · intro other different
    exact FMap.get?_set_of_ne _ different _
  · intro stored isStored
    simp only [State.setPhase, FMap.get?_set_self, Option.some.injEq]
      at isStored
    subst isStored
    cases phase with
    | _ => exact ok
  · intro fh
    exact Or.inl rfl
  · intro ino old new backsOld backsNew
    exact Backs.unique backsNew backsOld
  · intro fh answer heldNow
    exact Or.inl heldNow

/-- The weight of a phase that waits for its handle to be recorded. -/
theorem weight_counted
    (job : Job)
    (fh : Nat)
    (backingId : BackingId)
    (ino : UInt64) :
    FMap.weight (Phase.pendsOn ino) (some (.counted job fh backingId)) =
      if job.ino = ino then 1 else 0 := by
  simp [FMap.weight, Phase.pendsOn]

theorem count_set
    (state : State)
    (ino query : UInt64)
    (backingId : BackingId)
    (newCount : Nat) :
    ({ state with
        inodeBackings :=
          state.inodeBackings.set ino (backingId, newCount) }).count query =
      if query = ino then newCount else state.count query := by
  simp only [count, FMap.get?_set]
  split <;> rfl

/-- An open takes its share of a backing: one that is there, or its own. -/
theorem Counted.share
    (before : state.Counted)
    {job : Job}
    {fh : Nat}
    {backingId : BackingId}
    (free : state.Free thread (.counted job fh backingId))
    (unrecorded : state.fhToIno.get? fh = none)
    (counted :
      ∀ ino, FMap.weight (Phase.pendsOn ino) (state.threads.get? thread) = 0)
    (only : ∀ old, state.Backs job.ino old → old = backingId) :
    ({ state with
        inodeBackings :=
          state.inodeBackings.set job.ino
            (backingId, state.count job.ino + 1) }.setPhase thread
      (.counted job fh backingId)).Counted := by
  have owned := before.owned.setPhase free
  apply before.turn thread
  · exact ⟨owned.used, owned.heldUsed, owned.keyUsed, owned.apart,
      owned.heldApart⟩
  · intro ino
    have changed :=
      state.pending_setPhase thread (.counted job fh backingId) ino
    rw [weight_counted, counted ino] at changed
    have counts := before.counts ino
    have entered :=
      state.count_set job.ino ino backingId (state.count job.ino + 1)
    refine Eq.trans entered (Eq.trans ?_ (rfl :
      state.mapped ino + (state.setPhase thread _).pending ino = _))
    by_cases same : ino = job.ino
    · subst same
      rw [if_pos rfl] at changed ⊢
      omega
    · rw [if_neg (fun isIno => same isIno.symm)] at changed
      rw [if_neg same]
      omega
  · intro ino stored storedCount isStored
    simp only [State.setPhase, FMap.get?_set] at isStored
    split at isStored
    · cases isStored
      exact Nat.succ_pos _
    · exact before.positive ino stored storedCount isStored
  · intro other different
    exact FMap.get?_set_of_ne _ different _
  · intro stored isStored
    simp only [State.setPhase, FMap.get?_set_self, Option.some.injEq]
      at isStored
    subst isStored
    exact ⟨unrecorded, _, FMap.get?_set_self _ _ _⟩
  · intro query
    exact Or.inl rfl
  · rintro ino old new backsOld ⟨newCount, isNew⟩
    simp only [State.setPhase, FMap.get?_set] at isNew
    split at isNew
    · next same =>
        cases isNew
        rw [same] at backsOld
        exact (only old backsOld).symm
    · exact Backs.unique ⟨newCount, isNew⟩ backsOld
  · intro query answer heldNow
    exact Or.inl heldNow

/-- The handle of a counted open is recorded. -/
theorem Counted.record
    (before : state.Counted)
    {job : Job}
    {fh : Nat}
    {backingId : BackingId}
    (stored : state.threads.get? thread = some (.stored job fh backingId)) :
    ({ state with fhToIno := state.fhToIno.set fh job.ino }.setPhase thread
      (.recorded job fh backingId)).Counted := by
  obtain ⟨unrecorded, backs⟩ := before.phases thread _ stored
  have free : state.Free thread (.recorded job fh backingId) :=
    before.owned.free_of_same stored (fun _ hasFh => hasFh)
  have owned := before.owned.setPhase free
  apply before.turn thread
  · refine ⟨owned.used, owned.heldUsed, ?_, owned.apart, owned.heldApart⟩
    intro query ino recorded
    simp only [State.setPhase, FMap.get?_set] at recorded
    split at recorded
    · next same =>
        rw [same]
        exact before.owned.used thread _ fh stored rfl
    · exact before.owned.keyUsed query ino recorded
  · intro ino
    have threadsChanged :=
      state.pending_setPhase thread (.recorded job fh backingId) ino
    have handlesChanged :=
      FMap.count_set state.fhToIno fh job.ino (fun query => query = ino)
    have counts := before.counts ino
    rw [stored] at threadsChanged
    rw [unrecorded] at handlesChanged
    simp only [FMap.weight, Phase.pendsOn, decide_eq_true_eq,
      Bool.false_eq_true, if_false] at threadsChanged handlesChanged
    change state.count ino =
      (state.fhToIno.set fh job.ino).count (fun query => query = ino) +
        (state.setPhase thread _).pending ino
    unfold mapped at counts
    omega
  · exact before.positive
  · intro other different
    exact FMap.get?_set_of_ne _ different _
  · intro phase isStored
    simp only [State.setPhase, FMap.get?_set_self, Option.some.injEq]
      at isStored
    subst isStored
    exact ⟨FMap.get?_set_self _ _ _, backs⟩
  · intro query
    by_cases same : query = fh
    · rw [same]
      exact Or.inr ⟨_, stored, rfl⟩
    · exact Or.inl (FMap.get?_set_of_ne _ same _)
  · intro ino old new backsOld backsNew
    exact Backs.unique backsNew backsOld
  · intro query answer heldNow
    exact Or.inl heldNow

/-- A thread that does not wait for its handle ends, with or without a
reply that hands the handle out. -/
theorem Counted.finish
    (before : state.Counted)
    {phase : Phase}
    (stored : state.threads.get? thread = some phase)
    (counted : ∀ ino, phase.pendsOn ino = false)
    (held : FMap Nat Answer)
    (given :
      ∀ fh answer, held.get? fh = some answer →
        phase.fh? = some fh ∧ state.AnswerOk fh answer ∨
          state.held.get? fh = some answer) :
    ({ state with held := held }.finish thread).Counted := by
  apply before.turn thread
  · apply before.owned.finish stored
    intro fh answer heldNow
    exact (given fh answer heldNow).imp And.left id
  · intro ino
    have changed := state.pending_finish thread ino
    have counts := before.counts ino
    rw [stored] at changed
    simp only [FMap.weight, counted ino, Bool.false_eq_true, if_false]
      at changed
    change state.count ino = state.mapped ino + _
    rw [counts]
    exact congrArg (state.mapped ino + ·) changed.symm
  · exact before.positive
  · intro other different
    exact (FMap.get?_remove _ _ _).trans (if_neg different)
  · intro later isStored
    simp [State.finish] at isStored
  · intro fh
    exact Or.inl rfl
  · intro ino old new backsOld backsNew
    exact Backs.unique backsNew backsOld
  · intro fh answer heldNow
    rcases given fh answer heldNow with ⟨-, ok⟩ | heldBefore
    · exact Or.inr ok
    · exact Or.inl heldBefore

/-- A release begins: the handle goes from the kernel to the thread. -/
theorem Counted.takeBack
    (before : state.Counted)
    (idle : state.threads.get? thread = none)
    {fh : Nat}
    {answer : Answer}
    (isHeld : state.held.get? fh = some answer) :
    ({ state with held := state.held.remove fh }.setPhase thread
      (.releasing fh)).Counted := by
  have owned := before.owned
  have fewer :
      ∀ query answer, (state.held.remove fh).get? query = some answer →
        query ≠ fh ∧ state.held.get? query = some answer := by
    intro query answer heldNow
    rw [FMap.get?_remove] at heldNow
    split at heldNow
    · cases heldNow
    · next different => exact ⟨different, heldNow⟩
  have dropped : ({ state with held := state.held.remove fh }).Counted := by
    refine ⟨⟨owned.used, ?_, owned.keyUsed, owned.apart, ?_⟩, before.counts,
      before.positive, ?_, ?_⟩
    · intro query answer heldNow
      exact owned.heldUsed query answer (fewer query answer heldNow).2
    · intro other phase query stored hasFh
      simp only [FMap.get?_remove]
      split
      · rfl
      · exact owned.heldApart other phase query stored hasFh
    · intro other phase stored
      have ok := before.phases other phase stored
      cases phase with
      | _ => exact ok
    · intro query answer backingId heldNow
      exact before.answers query answer backingId
        (fewer query answer heldNow).2
  apply dropped.setPhase
  · intro query hasFh
    cases hasFh
    refine ⟨owned.heldUsed fh answer isHeld, FMap.get?_remove_self _ _, ?_⟩
    intro other phase stored hasFh
    rw [owned.heldApart other phase fh stored hasFh] at isHeld
    cases isHeld
  · trivial
  · intro ino
    simp [idle, FMap.weight, Phase.pendsOn]

/-! ## Giving a backing back -/

theorem count_giveBack
    (state : State)
    (ino query : UInt64) :
    (state.giveBack ino).count query =
      if query = ino then state.count ino - 1 else state.count query := by
  unfold giveBack
  split
  · next absent =>
      split
      · next same => simp [count, same, absent]
      · rfl
  · next backingId number found =>
      split
      · next last =>
          simp only [count, FMap.get?_remove]
          split
          · simp [found, last]
          · rfl
      · simp only [count, FMap.get?_set]
        split
        · simp [found]
        · rfl

/-- An entry after a release was there before, with at least its count. -/
theorem entry_giveBack
    {ino query : UInt64}
    {backingId : BackingId}
    {number : Nat}
    (stored :
      (state.giveBack ino).inodeBackings.get? query =
        some (backingId, number)) :
    ∃ earlier, state.inodeBackings.get? query = some (backingId, earlier) ∧
      (number = earlier ∨ 0 < number) := by
  unfold giveBack at stored
  split at stored
  · exact ⟨number, stored, Or.inl rfl⟩
  · next old oldNumber found =>
      split at stored
      · simp only [FMap.get?_remove] at stored
        split at stored
        · cases stored
        · exact ⟨number, stored, Or.inl rfl⟩
      · next more =>
          simp only [FMap.get?_set] at stored
          split at stored
          · next same =>
              cases stored
              rw [same]
              exact ⟨oldNumber, found, Or.inr (Nat.pos_of_ne_zero more)⟩
          · exact ⟨number, stored, Or.inl rfl⟩

theorem giveBack_keeps
    (state : State)
    (ino : UInt64) :
    (state.giveBack ino).threads = state.threads ∧
      (state.giveBack ino).held = state.held ∧
      (state.giveBack ino).nextFh = state.nextFh ∧
      (state.giveBack ino).fhToIno = state.fhToIno := by
  unfold giveBack
  split
  · exact ⟨rfl, rfl, rfl, rfl⟩
  · split <;> exact ⟨rfl, rfl, rfl, rfl⟩

/-- A release drops its handle and its share of the backing. -/
theorem Counted.giveBack
    (before : state.Counted)
    {fh : Nat}
    {ino : UInt64}
    (stored : state.threads.get? thread = some (.releasing fh))
    (recorded : state.fhToIno.get? fh = some ino) :
    (({ state with fhToIno := state.fhToIno.remove fh }.giveBack
      ino).setPhase thread (.closing fh)).Counted := by
  have free : state.Free thread (.closing fh) :=
    before.owned.free_of_same stored (fun _ hasFh => hasFh)
  have owned := before.owned.setPhase free
  obtain ⟨threads, held, nextFh, fhToIno⟩ :=
    giveBack_keeps { state with fhToIno := state.fhToIno.remove fh } ino
  have fewer :
      ∀ query, query ≠ fh →
        (state.fhToIno.remove fh).get? query = state.fhToIno.get? query :=
    fun query different =>
      (FMap.get?_remove _ _ _).trans (if_neg different)
  apply before.turn thread
  · constructor
    · intro other phase query isStored hasFh
      simp only [State.setPhase, threads, nextFh] at isStored ⊢
      exact owned.used other phase query isStored hasFh
    · intro query answer heldNow
      simp only [State.setPhase, held, nextFh] at heldNow ⊢
      exact owned.heldUsed query answer heldNow
    · intro query number isRecorded
      simp only [State.setPhase, fhToIno, nextFh, FMap.get?_remove]
        at isRecorded ⊢
      split at isRecorded
      · cases isRecorded
      · exact before.owned.keyUsed query number isRecorded
    · simp only [State.setPhase, threads]
      exact owned.apart
    · simp only [State.setPhase, threads, held]
      exact owned.heldApart
  · intro query
    have threadsChanged := state.pending_setPhase thread (.closing fh) query
    have handlesChanged :=
      FMap.count_remove state.fhToIno fh (fun number => number = query)
    have counts := before.counts query
    rw [stored] at threadsChanged
    rw [recorded] at handlesChanged
    simp only [FMap.weight, Phase.pendsOn, decide_eq_true_eq,
      Bool.false_eq_true, if_false] at threadsChanged handlesChanged
    have given := count_giveBack
      { state with fhToIno := state.fhToIno.remove fh } ino query
    have mappedNow :
        (({ state with fhToIno := state.fhToIno.remove fh }.giveBack
            ino).setPhase thread (.closing fh)).mapped query =
          (state.fhToIno.remove fh).count (fun number => number = query) := by
      simp only [mapped, State.setPhase, fhToIno]
    have pendingNow :
        (({ state with fhToIno := state.fhToIno.remove fh }.giveBack
            ino).setPhase thread (.closing fh)).pending query =
          (state.setPhase thread (.closing fh)).pending query := by
      simp only [pending, State.setPhase, threads]
    rw [mappedNow, pendingNow]
    refine given.trans ?_
    change (if query = ino then state.count ino - 1
      else state.count query) = _
    unfold mapped at counts
    by_cases same : query = ino
    · subst same
      rw [if_pos rfl] at handlesChanged ⊢
      omega
    · rw [if_neg (fun isQuery => same isQuery.symm)] at handlesChanged
      rw [if_neg same]
      omega
  · intro query backingId number isStored
    obtain ⟨earlier, wasStored, same | more⟩ := entry_giveBack isStored
    · rw [same]
      exact before.positive query backingId earlier wasStored
    · exact more
  · intro other different
    simp only [State.setPhase, threads]
    exact FMap.get?_set_of_ne _ different _
  · intro phase isStored
    simp only [State.setPhase, FMap.get?_set_self, Option.some.injEq]
      at isStored
    subst isStored
    trivial
  · intro query
    by_cases same : query = fh
    · rw [same]
      exact Or.inr ⟨_, stored, rfl⟩
    · simp only [State.setPhase, fhToIno]
      exact Or.inl (fewer query same)
  · rintro query old new backsOld ⟨number, isNew⟩
    obtain ⟨earlier, wasStored, -⟩ := entry_giveBack isNew
    exact Backs.unique ⟨earlier, wasStored⟩ backsOld
  · intro query answer heldNow
    simp only [State.setPhase, held] at heldNow
    exact Or.inl heldNow

/-! ## Whole runs -/

/-- The step of `create` that inserts its backing finds no entry of the
number; every other step is as it may be. -/
def careful
    (state : State) :
    Action → Bool
  | .advance thread _ =>
      match state.threads.get? thread with
      | some (.recheck job _ _) =>
          !job.creates || (state.inodeBackings.get? job.ino).isNone
      | _ => true
  | _ => true

/-- Every step of a run is careful. -/
def carefulRun :
    State → List Action → Bool
  | _, [] => true
  | state, action :: rest =>
      state.careful action && (state.step action).all (carefulRun · rest)

theorem absent_of_careful
    {state : State}
    {thread : Nat}
    {backs : Bool}
    (careful : state.careful (.advance thread backs) = true)
    {job : Job}
    {fh : Nat}
    {backingId : BackingId}
    (stored : state.threads.get? thread = some (.recheck job fh backingId))
    (creates : job.creates = true) :
    state.inodeBackings.get? job.ino = none := by
  simp only [State.careful, stored, creates, Bool.not_true, Bool.false_or,
    Option.isNone_iff_eq_none] at careful
  exact careful

/-- A phase without a handle takes none from anybody. -/
theorem free_of_none
    {phase : Phase}
    (noHandle : phase.fh? = none) :
    state.Free thread phase := by
  intro fh hasFh
  rw [noHandle] at hasFh
  cases hasFh

theorem weight_none
    {before : Phase}
    (stored : state.threads.get? thread = some before)
    (counted : ∀ ino, before.pendsOn ino = false)
    (ino : UInt64) :
    FMap.weight (Phase.pendsOn ino) (state.threads.get? thread) = 0 := by
  simp [stored, FMap.weight, counted ino]

/-- A thread that has counted nothing goes on to a phase without a handle. -/
theorem Counted.move
    (before : state.Counted)
    {phase next : Phase}
    (stored : state.threads.get? thread = some phase)
    (counted : ∀ ino, phase.pendsOn ino = false)
    (noHandle : next.fh? = none)
    (ok : state.PhaseOk next)
    (nextCounted : ∀ ino, next.pendsOn ino = false) :
    (state.setPhase thread next).Counted := by
  apply before.setPhase (free_of_none noHandle) ok
  intro ino
  rw [weight_none stored counted ino]
  simp [FMap.weight, nextCounted ino]

/-- A backing that is there is shared. -/
theorem Counted.reuse
    (before : state.Counted)
    {job : Job}
    {fh number : Nat}
    {backingId : BackingId}
    (free : state.Free thread (.counted job fh backingId))
    (unrecorded : state.fhToIno.get? fh = none)
    (counted :
      ∀ ino, FMap.weight (Phase.pendsOn ino) (state.threads.get? thread) = 0)
    (found : state.inodeBackings.get? job.ino = some (backingId, number)) :
    ((state.reuse job.ino backingId number).setPhase thread
      (.counted job fh backingId)).Counted := by
  have shared := before.share free unrecorded counted
    (fun old backs => Backs.unique backs ⟨number, found⟩)
  have isNumber : state.count job.ino = number := by
    simp [count, found]
  rw [isNumber] at shared
  exact shared

/-- A backing is inserted where there is none. -/
theorem Counted.insert
    (before : state.Counted)
    {job : Job}
    {fh : Nat}
    {backingId : BackingId}
    (stored :
      state.threads.get? thread = some (.recheck job fh backingId))
    (absent : state.inodeBackings.get? job.ino = none) :
    ({ state with
        inodeBackings :=
          state.inodeBackings.set job.ino (backingId, 1) }.setPhase thread
      (.counted job fh backingId)).Counted := by
  have free : state.Free thread (.counted job fh backingId) :=
    before.owned.free_of_same stored (fun _ hasFh => hasFh)
  have shared := before.share free (before.phases thread _ stored)
    (weight_none stored (fun _ => rfl))
    (by
      rintro old ⟨number, backs⟩
      rw [absent] at backs
      cases backs)
  have isZero : state.count job.ino = 0 := by
    simp [count, absent]
  rw [isZero] at shared
  exact shared

theorem Counted.advance
    (before : state.Counted)
    {phase : Phase}
    (stored : state.threads.get? thread = some phase)
    (backs : Bool)
    (careful : state.careful (.advance thread backs) = true) :
    (state.advance thread backs phase).Counted := by
  cases phase with
  | opened job =>
      apply before.move stored (fun _ => rfl)
      · split
        · rfl
        · split <;> rfl
      · split
        · trivial
        · split <;> trivial
      · intro ino
        split
        · rfl
        · split <;> rfl
  | check job =>
      simp only [State.advance]
      obtain ⟨unrecorded, drawn, free⟩ := before.fresh thread
      split
      · next backingId number found =>
          exact drawn.reuse (free _ rfl) unrecorded
            (weight_none stored (fun _ => rfl)) found
      · exact before.move stored (fun _ => rfl) rfl trivial (fun _ => rfl)
  | backing job =>
      simp only [State.advance]
      obtain ⟨unrecorded, drawn, free⟩ := before.fresh thread
      split
      · have later :
            ({ state with
                nextFh := state.nextFh + 1
                nextBacking := state.nextBacking + 1 }).Counted :=
          drawn.later rfl rfl rfl rfl le_rfl
        apply later.setPhase
        · exact free _ rfl
        · exact unrecorded
        · intro ino
          exact weight_none stored (fun _ => rfl) ino
      · exact before.move stored (fun _ => rfl) rfl trivial (fun _ => rfl)
  | recheck job fh backingId =>
      simp only [State.advance]
      cases creates : job.creates with
      | true =>
          simp only
          exact before.insert stored
            (absent_of_careful careful stored creates)
      | false =>
          cases found : state.inodeBackings.get? job.ino with
          | none =>
              exact before.insert stored found
          | some entry =>
              exact before.reuse
                (before.owned.free_of_same stored (fun _ hasFh => hasFh))
                (before.phases thread _ stored)
                (weight_none stored (fun _ => rfl)) found
  | counted job fh backingId =>
      have ok := before.phases thread _ stored
      have free : state.Free thread (.stored job fh backingId) :=
        before.owned.free_of_same stored (fun _ hasFh => hasFh)
      have later :
          ({ state with
              openFiles := state.openFiles.set fh job.file }).Counted :=
        before.later rfl rfl rfl rfl le_rfl
      apply later.setPhase free ok
      intro ino
      simp [stored, FMap.weight, Phase.pendsOn]
  | stored job fh backingId =>
      exact before.record stored
  | recorded job fh backingId =>
      obtain ⟨recorded, backsIno⟩ := before.phases thread _ stored
      apply before.finish stored (fun _ => rfl)
      intro query answer heldNow
      simp only [FMap.get?_set] at heldNow
      split at heldNow
      · next same =>
          cases heldNow
          rw [same]
          refine Or.inl ⟨rfl, ?_⟩
          intro given isGiven
          cases isGiven
          exact ⟨recorded, backsIno⟩
      · exact Or.inr heldNow
  | disable job =>
      have later : ({ state with passthroughEnabled := false }).Counted :=
        before.later rfl rfl rfl rfl le_rfl
      exact later.move stored (fun _ => rfl) rfl trivial (fun _ => rfl)
  | plain job =>
      obtain ⟨unrecorded, drawn, free⟩ := before.fresh thread
      have later :
          ({ state with
              openFiles := state.openFiles.set state.nextFh job.file
              nextFh := state.nextFh + 1 }).Counted :=
        drawn.later rfl rfl rfl rfl le_rfl
      apply later.setPhase
      · exact free _ rfl
      · trivial
      · intro ino
        exact weight_none stored (fun _ => rfl) ino
  | allocated job fh =>
      apply before.finish stored (fun _ => rfl)
      intro query answer heldNow
      simp only [FMap.get?_set] at heldNow
      split at heldNow
      · next same =>
          cases heldNow
          rw [same]
          refine Or.inl ⟨rfl, ?_⟩
          intro given isGiven
          cases isGiven
      · exact Or.inr heldNow
  | releasing fh =>
      simp only [State.advance]
      split
      · next ino recorded => exact before.giveBack stored recorded
      · apply before.setPhase
        · exact before.owned.free_of_same stored (fun _ hasFh => hasFh)
        · trivial
        · intro ino
          exact weight_none stored (fun _ => rfl) ino
  | closing fh =>
      have later :
          ({ state with openFiles := state.openFiles.remove fh }).Counted :=
        before.later rfl rfl rfl rfl le_rfl
      exact later.finish stored (fun _ => rfl) state.held
        (fun _ _ heldNow => Or.inr heldNow)

/-- A request of an idle thread begins. -/
theorem Counted.begins
    (before : state.Counted)
    (idle : (state.threads.get? thread).isSome = false)
    (job : Job) :
    (state.setPhase thread (.opened job)).Counted := by
  apply before.setPhase
  · exact free_of_none rfl
  · trivial
  · intro ino
    simp only [Option.isSome_eq_false_iff, Option.isNone_iff_eq_none] at idle
    simp [idle, FMap.weight, Phase.pendsOn]

/-- A careful step keeps the counts. -/
theorem Counted.step
    (before : state.Counted)
    {action : Action}
    {next : State}
    (careful : state.careful action = true)
    (stepped : state.step action = some next) :
    next.Counted := by
  cases action with
  | openFile thread ino needsWrite copy =>
      simp only [State.step] at stepped
      split at stepped
      · cases stepped
      next possible =>
      have idle := (Bool.or_eq_false_iff.mp
        (eq_false_of_ne_true possible)).2
      split at stepped
      · cases stepped
        have later :
            (state.setCurrent ino ⟨copy, false⟩).Counted :=
          before.later rfl rfl rfl rfl le_rfl
        exact later.begins idle _
      · cases stepped
        exact before.begins idle _
  | copyUp ino copy =>
      simp only [State.step] at stepped
      split at stepped
      · cases stepped
      · cases stepped
        exact before.later rfl rfl rfl rfl le_rfl
  | create thread ino file needsWrite =>
      simp only [State.step] at stepped
      split at stepped
      · cases stepped
      next possible =>
      have idle := (Bool.or_eq_false_iff.mp
        (eq_false_of_ne_true possible)).2
      cases stepped
      have later : (state.setCurrent ino ⟨file, false⟩).Counted :=
        before.later rfl rfl rfl rfl le_rfl
      exact later.begins idle _
  | release thread fh =>
      simp only [State.step] at stepped
      split at stepped
      · cases stepped
      next possible =>
      obtain ⟨idle, isHeld⟩ := Bool.or_eq_false_iff.mp
        (eq_false_of_ne_true possible)
      obtain ⟨answer, isHeld⟩ := Option.isSome_iff_exists.mp
        (Option.isNone_eq_false_iff.mp isHeld)
      cases stepped
      exact before.takeBack (Option.isNone_iff_eq_none.mp
        (Option.isSome_eq_false_iff.mp idle)) isHeld
  | advance thread backs =>
      obtain ⟨phase, stored, isNext⟩ := Option.map_eq_some_iff.mp stepped
      subst isNext
      exact before.advance stored backs careful

/-- A careful run keeps the counts. -/
theorem Counted.run
    (before : state.Counted)
    {actions : List Action}
    {final : State}
    (careful : state.carefulRun actions = true)
    (ran : state.run actions = some final) :
    final.Counted := by
  induction actions generalizing state with
  | nil =>
      cases ran
      exact before
  | cons action rest inductionHypothesis =>
      obtain ⟨next, stepped, ranRest⟩ := Option.bind_eq_some_iff.mp ran
      obtain ⟨first, later⟩ := Bool.and_eq_true_iff.mp careful
      rw [stepped] at later
      exact inductionHypothesis (before.step first stepped) later ranRest

/-- The counts are those of the handles and of the opens in flight, a
release finds a count to give back, an entry is there exactly while something
uses it, and the handles of a number share their backing. -/
structure Accounted (state : State) : Prop where
  counts : ∀ ino, state.count ino = state.mapped ino + state.pending ino
  releases :
    ∀ fh ino, state.fhToIno.get? fh = some ino →
      ∃ backingId count,
        state.inodeBackings.get? ino = some (backingId, count) ∧ 0 < count
  present :
    ∀ ino, (state.inodeBackings.get? ino).isSome ↔
      0 < state.mapped ino + state.pending ino
  same :
    ∀ first second firstAnswer secondAnswer firstId secondId,
      state.held.get? first = some firstAnswer →
      state.held.get? second = some secondAnswer →
      firstAnswer.job.ino = secondAnswer.job.ino →
      firstAnswer.backing = some firstId →
      secondAnswer.backing = some secondId → firstId = secondId

theorem Counted.accounted
    (counted : state.Counted) :
    state.Accounted := by
  refine ⟨counted.counts, ?_, ?_, ?_⟩
  · intro fh ino recorded
    have used : 0 < state.mapped ino := FMap.count_pos recorded (by simp)
    have counts := counted.counts ino
    have positive : 0 < state.count ino := by omega
    obtain ⟨backingId, number, found⟩ := backs_of_count positive
    exact ⟨backingId, number, found,
      counted.positive ino backingId number found⟩
  · intro ino
    rw [← counted.counts ino]
    constructor
    · intro present
      obtain ⟨⟨backingId, number⟩, found⟩ :=
        Option.isSome_iff_exists.mp present
      have positive := counted.positive ino backingId number found
      simpa [count, found] using positive
    · intro positive
      obtain ⟨backingId, number, found⟩ := backs_of_count positive
      simp [found]
  · intro first second firstAnswer secondAnswer firstId secondId firstHeld
      secondHeld sameIno firstGiven secondGiven
    have firstBacks :=
      (counted.answers first firstAnswer firstId firstHeld firstGiven).2
    have secondBacks :=
      (counted.answers second secondAnswer secondId secondHeld secondGiven).2
    rw [← sameIno] at secondBacks
    exact Backs.unique firstBacks secondBacks

end State

end Passthrough

namespace Sample

open Passthrough

/-- Every number stands for a file on a lower layer. -/
def lowerFile (_ : UInt64) : File :=
  ⟨0, true⟩

/-- Two threads open one file; the steps of both interleave. -/
def openBoth : List Action :=
  [.openFile 0 7 false 0, .openFile 1 7 false 0, .advance 0 true,
    .advance 1 true, .advance 0 true, .advance 1 true, .advance 0 true,
    .advance 1 true, .advance 1 true, .advance 0 true, .advance 0 true,
    .advance 1 true, .advance 0 true, .advance 1 true, .advance 0 true,
    .advance 1 true]

/-- `create` of a file with a number, up to its reply. -/
def createFile
    (thread : Nat)
    (ino : UInt64) :
    List Action :=
  .create thread ino 100 true :: List.replicate 6 (.advance thread true)

/-- A file with the name of a marker is created. -/
def createMarker : Call :=
  call (.create ⟨0, 0⟩ 1 (ascii ".wh.x") ⟨some .reg, 0o644⟩
    { OpenFlags.rdonly with write := true, creat := true })

/-- The root is listed and the marker created; a refresh hides it again. -/
def hideMarker : List Call :=
  [call (.opendir 1), createMarker, call (.ioctl 1 0 false .refreshDir)]

/-- The number and the handle that a `create` replies. -/
def createdAs
    (sys : Sys) :
    Option (UInt64 × Nat) :=
  match (sys.step (env 0) createMarker).1 with
  | .ok (.created st fh) => some (st.ino, fh)
  | _ => none

end Sample

namespace Passthrough

namespace State

open Sample

end State

end Passthrough

end FuseOverlay
