import FuseOverlay.PassthroughCounts

namespace FuseOverlay

/-!
# Files behind backings

A backing is kept by inode number, and the file behind a number changes when it
is copied up.  As long as that happens only while the number has no backing and
no open in flight, every backing was registered with the file that its number
stands for, so a write through it stays on the upper layer.
-/

namespace Passthrough

/-- The descriptor of an open is on the file of its number. -/
def Job.Current
    (current : UInt64 → File)
    (job : Job) : Prop :=
  job.file = current job.ino ∧
    (job.needsWrite = true → job.file.low = false)

/-- A thread works on the file of its number, with a backing of that file. -/
def Phase.Current
    (current : UInt64 → File) :
    Phase → Prop
  | .opened job | .check job | .backing job | .disable job | .plain job =>
      job.Current current
  | .allocated job _ => job.Current current
  | .recheck job _ backingId | .counted job _ backingId =>
      job.Current current ∧ backingId.file = current job.ino
  | .stored job _ backingId | .recorded job _ backingId =>
      job.Current current ∧ backingId.file = current job.ino
  | .releasing _ | .closing _ => True

/-- What a phase is about depends on the file of its own number only. -/
theorem Phase.Current.congr
    {phase : Phase}
    {first second : UInt64 → File}
    (isCurrent : phase.Current first)
    (same : ∀ job, phase.job? = some job → second job.ino = first job.ino) :
    phase.Current second := by
  cases phase with
  | releasing fh => trivial
  | closing fh => trivial
  | _ =>
      have sameIno := same _ rfl
      simp only [Phase.Current, Job.Current, sameIno] at isCurrent ⊢
      exact isCurrent

namespace State

/-- Every backing is one of the file that its number stands for. -/
structure Faithful (state : State) : Prop where
  counted : state.Counted
  threads :
    ∀ thread phase, state.threads.get? thread = some phase →
      phase.Current state.current
  entries :
    ∀ ino backingId, state.Backs ino backingId →
      backingId.file = state.current ino
  held :
    ∀ fh answer backingId, state.held.get? fh = some answer →
      answer.backing = some backingId →
      answer.job.Current state.current ∧
        backingId.file = state.current answer.job.ino

theorem faithful_init
    (enabled : Bool)
    (current : UInt64 → File) :
    (init enabled current).Faithful where
  counted := counted_init enabled current
  threads := by simp [init]
  entries := by simp [init, Backs]
  held := by simp [init]

/-- The number has no backing and no open in flight. -/
def quiet
    (state : State)
    (ino : UInt64) : Bool :=
  (state.inodeBackings.get? ino).isNone &&
    state.threads.count
      (fun phase => phase.job?.any (fun job => job.ino = ino)) = 0

/-- The file of a number changes only while the number is quiet. -/
def calm
    (state : State) :
    Action → Bool
  | .openFile _ ino needsWrite _ =>
      !(needsWrite && (state.current ino).low) || state.quiet ino
  | .copyUp ino _ => state.quiet ino
  | .create _ ino _ _ => state.quiet ino
  | _ => true

/-- Every step of a run is careful and calm. -/
def calmRun :
    State → List Action → Bool
  | _, [] => true
  | state, action :: rest =>
      state.careful action && state.calm action &&
        (state.step action).all (calmRun · rest)

variable {state : State} {thread : Nat}

/-! ## Steps of a thread -/

/-- A step that leaves the files alone keeps the backings faithful. -/
theorem Faithful.turn
    (before : state.Faithful)
    {after : State}
    (counted : after.Counted)
    (current : after.current = state.current)
    (threads :
      ∀ other phase, after.threads.get? other = some phase →
        phase.Current state.current ∨
          state.threads.get? other = some phase)
    (entries :
      ∀ ino backingId, after.Backs ino backingId →
        backingId.file = state.current ino ∨ state.Backs ino backingId)
    (held :
      ∀ fh answer, after.held.get? fh = some answer →
        (∀ backingId, answer.backing = some backingId →
          answer.job.Current state.current ∧
            backingId.file = state.current answer.job.ino) ∨
          state.held.get? fh = some answer) :
    after.Faithful := by
  refine ⟨counted, ?_, ?_, ?_⟩
  · intro other phase stored
    rw [current]
    rcases threads other phase stored with isCurrent | storedBefore
    · exact isCurrent
    · exact before.threads other phase storedBefore
  · intro ino backingId backs
    rw [current]
    rcases entries ino backingId backs with isCurrent | backsBefore
    · exact isCurrent
    · exact before.entries ino backingId backsBefore
  · intro fh answer backingId heldNow answered
    rw [current]
    rcases held fh answer heldNow with isCurrent | heldBefore
    · exact isCurrent backingId answered
    · exact before.held fh answer backingId heldBefore answered

/-- A thread after its step is at the new phase or where it was. -/
theorem threads_setPhase
    {phase : Phase}
    (isCurrent : phase.Current state.current)
    {other : Nat}
    {found : Phase}
    (stored :
      (state.threads.set thread phase).get? other = some found) :
    found.Current state.current ∨
      state.threads.get? other = some found := by
  rw [FMap.get?_set] at stored
  split at stored
  · cases stored
    exact Or.inl isCurrent
  · exact Or.inr stored

theorem threads_finish
    {other : Nat}
    {found : Phase}
    (stored : (state.threads.remove thread).get? other = some found) :
    state.threads.get? other = some found := by
  rw [FMap.get?_remove] at stored
  split at stored
  · cases stored
  · exact stored

/-- A step that only moves the thread. -/
theorem Faithful.setPhase
    (before : state.Faithful)
    {after : State}
    {phase : Phase}
    (counted : (after.setPhase thread phase).Counted)
    (current : after.current = state.current)
    (threads : after.threads = state.threads)
    (backings : after.inodeBackings = state.inodeBackings)
    (held : after.held = state.held)
    (isCurrent : phase.Current state.current) :
    (after.setPhase thread phase).Faithful := by
  apply before.turn counted current
  · intro other found stored
    rw [show (after.setPhase thread phase).threads =
      state.threads.set thread phase from by
        simp [State.setPhase, threads]] at stored
    exact threads_setPhase isCurrent stored
  · intro ino backingId backs
    unfold Backs at backs
    rw [show (after.setPhase thread phase).inodeBackings =
      state.inodeBackings from backings] at backs
    exact Or.inr backs
  · intro fh answer heldNow
    rw [show (after.setPhase thread phase).held = state.held from held]
      at heldNow
    exact Or.inr heldNow

/-- A step that enters a backing for the number of the thread. -/
theorem Faithful.enter
    (before : state.Faithful)
    {after : State}
    {phase : Phase}
    {ino : UInt64}
    {backingId : BackingId}
    {number : Nat}
    (counted : (after.setPhase thread phase).Counted)
    (current : after.current = state.current)
    (threads : after.threads = state.threads)
    (backings :
      after.inodeBackings =
        state.inodeBackings.set ino (backingId, number))
    (held : after.held = state.held)
    (isCurrent : phase.Current state.current)
    (isFile : backingId.file = state.current ino) :
    (after.setPhase thread phase).Faithful := by
  apply before.turn counted current
  · intro other found stored
    rw [show (after.setPhase thread phase).threads =
      state.threads.set thread phase from by
        simp [State.setPhase, threads]] at stored
    exact threads_setPhase isCurrent stored
  · rintro query found ⟨foundNumber, backs⟩
    rw [show (after.setPhase thread phase).inodeBackings =
      state.inodeBackings.set ino (backingId, number) from backings,
      FMap.get?_set] at backs
    split at backs
    · next same =>
        cases backs
        rw [same]
        exact Or.inl isFile
    · exact Or.inr ⟨foundNumber, backs⟩
  · intro fh answer heldNow
    rw [show (after.setPhase thread phase).held = state.held from held]
      at heldNow
    exact Or.inr heldNow

/-- A reply hands out a handle of the thread. -/
theorem Faithful.answer
    (before : state.Faithful)
    {fh : Nat}
    {answer : Answer}
    (counted :
      ({ state with held := state.held.set fh answer }.finish
        thread).Counted)
    (isCurrent :
      ∀ backingId, answer.backing = some backingId →
        answer.job.Current state.current ∧
          backingId.file = state.current answer.job.ino) :
    ({ state with held := state.held.set fh answer }.finish
      thread).Faithful := by
  apply before.turn counted rfl
  · intro other found stored
    exact Or.inr (threads_finish stored)
  · intro ino backingId backs
    exact Or.inr backs
  · intro query found heldNow
    simp only [State.finish, FMap.get?_set] at heldNow
    split at heldNow
    · cases heldNow
      exact Or.inl isCurrent
    · exact Or.inr heldNow

theorem current_giveBack
    (state : State)
    (ino : UInt64) :
    (state.giveBack ino).current = state.current := by
  unfold giveBack
  split
  · rfl
  · split <;> rfl

theorem Faithful.advance
    (before : state.Faithful)
    {phase : Phase}
    (stored : state.threads.get? thread = some phase)
    (backs : Bool)
    (careful : state.careful (.advance thread backs) = true) :
    (state.advance thread backs phase).Faithful := by
  have counted := before.counted.advance stored backs careful
  have isCurrent := before.threads thread phase stored
  cases phase with
  | opened job =>
      apply before.setPhase counted rfl rfl rfl rfl
      split
      · exact isCurrent
      · split <;> exact isCurrent
  | check job =>
      simp only [State.advance] at counted ⊢
      split at counted
      · next backingId number found =>
          have isFile := before.entries job.ino backingId ⟨number, found⟩
          exact before.enter counted rfl rfl rfl rfl ⟨isCurrent, isFile⟩
            isFile
      · exact before.setPhase counted rfl rfl rfl rfl isCurrent
  | backing job =>
      simp only [State.advance] at counted ⊢
      split at counted
      · next isBacked =>
          rw [if_pos isBacked]
          exact before.setPhase counted rfl rfl rfl rfl
            ⟨isCurrent, isCurrent.1⟩
      · next isPlain =>
          rw [if_neg isPlain]
          exact before.setPhase counted rfl rfl rfl rfl isCurrent
  | recheck job fh backingId =>
      obtain ⟨jobCurrent, isFile⟩ := isCurrent
      simp only [State.advance] at counted ⊢
      split at counted
      · next existing number creates found =>
          have isFile := before.entries job.ino existing ⟨number, found⟩
          exact before.enter counted rfl rfl rfl rfl ⟨jobCurrent, isFile⟩
            isFile
      · exact before.enter counted rfl rfl rfl rfl ⟨jobCurrent, isFile⟩
          isFile
  | counted job fh backingId =>
      exact before.setPhase counted rfl rfl rfl rfl isCurrent
  | stored job fh backingId =>
      exact before.setPhase counted rfl rfl rfl rfl isCurrent
  | recorded job fh backingId =>
      apply before.answer counted
      intro given isGiven
      cases isGiven
      exact isCurrent
  | disable job =>
      exact before.setPhase counted rfl rfl rfl rfl isCurrent
  | plain job =>
      exact before.setPhase counted rfl rfl rfl rfl isCurrent
  | allocated job fh =>
      apply before.answer counted
      intro given isGiven
      cases isGiven
  | releasing fh =>
      simp only [State.advance] at counted ⊢
      split at counted
      · next ino recorded =>
          obtain ⟨threads, held, -, -⟩ :=
            giveBack_keeps { state with fhToIno := state.fhToIno.remove fh }
              ino
          apply before.turn counted
          · exact current_giveBack _ _
          · intro other found isStored
            simp only [State.setPhase, threads] at isStored
            have isClosing : (Phase.closing fh).Current state.current :=
              trivial
            exact threads_setPhase isClosing isStored
          · rintro query backingId ⟨number, isStored⟩
            obtain ⟨earlier, wasStored, -⟩ := entry_giveBack isStored
            exact Or.inr ⟨earlier, wasStored⟩
          · intro query answer heldNow
            simp only [State.setPhase, held] at heldNow
            exact Or.inr heldNow
      · exact before.setPhase counted rfl rfl rfl rfl trivial
  | closing fh =>
      apply before.turn counted rfl
      · intro other found stored
        exact Or.inr (threads_finish stored)
      · intro ino backingId backs
        exact Or.inr backs
      · intro query found heldNow
        exact Or.inr heldNow

/-! ## Changes of files -/

/-- No thread works on a quiet number. -/
theorem job_of_quiet
    {ino : UInt64}
    (quiet : state.quiet ino = true)
    {phase : Phase}
    {job : Job}
    (stored : state.threads.get? thread = some phase)
    (isJob : phase.job? = some job) :
    job.ino ≠ ino := by
  intro same
  have busy :
      0 < state.threads.count
        (fun phase => phase.job?.any (fun job => job.ino = ino)) :=
    FMap.count_pos stored (by simp [isJob, same])
  have isZero := (Bool.and_eq_true_iff.mp quiet).2
  simp only [decide_eq_true_eq] at isZero
  omega

theorem absent_of_quiet
    {ino : UInt64}
    (quiet : state.quiet ino = true) :
    state.inodeBackings.get? ino = none :=
  Option.isNone_iff_eq_none.mp (Bool.and_eq_true_iff.mp quiet).1

/-- The file of a quiet number may change. -/
theorem Faithful.setCurrent
    (before : state.Faithful)
    {ino : UInt64}
    (quiet : state.quiet ino = true)
    (file : File) :
    (state.setCurrent ino file).Faithful := by
  have others :
      ∀ query, query ≠ ino →
        (state.setCurrent ino file).current query = state.current query :=
    fun query different => if_neg different
  refine ⟨before.counted.later rfl rfl rfl rfl le_rfl, ?_, ?_, ?_⟩
  · intro other phase stored
    apply Phase.Current.congr (before.threads other phase stored)
    intro job isJob
    exact others job.ino (job_of_quiet quiet stored isJob)
  · intro query backingId backs
    have different : query ≠ ino := by
      intro same
      obtain ⟨number, found⟩ := backs
      rw [same] at found
      exact Option.some_ne_none _ (found.symm.trans (absent_of_quiet quiet))
    rw [others query different]
    exact before.entries query backingId backs
  · intro fh answer backingId heldNow answered
    obtain ⟨-, number, found⟩ :=
      before.counted.answers fh answer backingId heldNow answered
    have different : answer.job.ino ≠ ino := by
      intro same
      rw [same] at found
      exact Option.some_ne_none _ (found.symm.trans (absent_of_quiet quiet))
    have isCurrent := before.held fh answer backingId heldNow answered
    unfold Job.Current at isCurrent ⊢
    rw [others answer.job.ino different]
    exact isCurrent

/-- A request begins with a descriptor of its number's file. -/
theorem Faithful.begins
    (before : state.Faithful)
    (idle : (state.threads.get? thread).isSome = false)
    {job : Job}
    (isCurrent : job.Current state.current) :
    (state.setPhase thread (.opened job)).Faithful :=
  before.setPhase (before.counted.begins idle job) rfl rfl rfl rfl isCurrent

/-- A careful and calm step keeps the backings faithful. -/
theorem Faithful.step
    (before : state.Faithful)
    {action : Action}
    {next : State}
    (careful : state.careful action = true)
    (calm : state.calm action = true)
    (stepped : state.step action = some next) :
    next.Faithful := by
  have counted := before.counted.step careful stepped
  cases action with
  | openFile thread ino needsWrite copy =>
      simp only [State.step] at stepped
      split at stepped
      · cases stepped
      next possible =>
      have idle := (Bool.or_eq_false_iff.mp
        (eq_false_of_ne_true possible)).2
      split at stepped
      · next copies =>
          cases stepped
          have quiet : state.quiet ino = true := by
            simpa [State.calm, copies] using calm
          apply (before.setCurrent quiet ⟨copy, false⟩).begins idle
          exact ⟨(if_pos rfl).symm, fun _ => rfl⟩
      · next stays =>
          cases stepped
          apply before.begins idle
          refine ⟨rfl, ?_⟩
          intro writes
          simp only at writes
          simpa [writes] using stays
  | copyUp ino copy =>
      simp only [State.step] at stepped
      split at stepped
      · cases stepped
      · cases stepped
        exact before.setCurrent calm ⟨copy, false⟩
  | create thread ino file needsWrite =>
      simp only [State.step] at stepped
      split at stepped
      · cases stepped
      next possible =>
      have idle := (Bool.or_eq_false_iff.mp
        (eq_false_of_ne_true possible)).2
      cases stepped
      apply (before.setCurrent calm ⟨file, false⟩).begins idle
      exact ⟨(if_pos rfl).symm, fun _ => rfl⟩
  | release thread fh =>
      simp only [State.step] at stepped
      split at stepped
      · cases stepped
      cases stepped
      apply before.turn counted rfl
      · intro other found stored
        have isReleasing : (Phase.releasing fh).Current state.current :=
          trivial
        exact threads_setPhase isReleasing stored
      · intro ino backingId backs
        exact Or.inr backs
      · intro query answer heldNow
        simp only [State.setPhase, FMap.get?_remove] at heldNow
        split at heldNow
        · cases heldNow
        · exact Or.inr heldNow
  | advance thread backs =>
      obtain ⟨phase, stored, isNext⟩ := Option.map_eq_some_iff.mp stepped
      subst isNext
      exact before.advance stored backs careful

/-- A careful and calm run keeps the backings faithful. -/
theorem Faithful.run
    (before : state.Faithful)
    {actions : List Action}
    {final : State}
    (calm : state.calmRun actions = true)
    (ran : state.run actions = some final) :
    final.Faithful := by
  induction actions generalizing state with
  | nil =>
      cases ran
      exact before
  | cons action rest inductionHypothesis =>
      obtain ⟨next, stepped, ranRest⟩ := Option.bind_eq_some_iff.mp ran
      obtain ⟨first, later⟩ := Bool.and_eq_true_iff.mp calm
      obtain ⟨careful, isCalm⟩ := Bool.and_eq_true_iff.mp first
      rw [stepped] at later
      exact inductionHypothesis (before.step careful isCalm stepped) later
        ranRest

/-- A handle that was opened for writing has a backing of its number's file
on the upper layer, and handles of a number that share a backing were opened
on one file. -/
structure WritesUpper (state : State) : Prop where
  upper :
    ∀ fh answer backingId, state.held.get? fh = some answer →
      answer.backing = some backingId → answer.job.needsWrite = true →
      backingId.file = state.current answer.job.ino ∧
        backingId.file.low = false
  same :
    ∀ first second firstAnswer secondAnswer backingId,
      state.held.get? first = some firstAnswer →
      state.held.get? second = some secondAnswer →
      firstAnswer.job.ino = secondAnswer.job.ino →
      firstAnswer.backing = some backingId →
      secondAnswer.backing = some backingId →
      firstAnswer.job.file = secondAnswer.job.file

theorem Faithful.writesUpper
    (faithful : state.Faithful) :
    state.WritesUpper := by
  constructor
  · intro fh answer backingId heldNow answered writes
    obtain ⟨⟨isFile, upper⟩, isBacking⟩ :=
      faithful.held fh answer backingId heldNow answered
    refine ⟨isBacking, ?_⟩
    rw [isBacking, ← isFile]
    exact upper writes
  · intro first second firstAnswer secondAnswer backingId firstHeld
      secondHeld sameIno firstGiven secondGiven
    have firstFile :=
      (faithful.held first firstAnswer backingId firstHeld firstGiven).1.1
    have secondFile :=
      (faithful.held second secondAnswer backingId secondHeld
        secondGiven).1.1
    rw [firstFile, secondFile, sameIno]

/-- In every interleaving in which a number's file changes only while the
number is quiet, writes through a backing stay on the upper layer. -/
theorem passthrough_writes_upper
    {enabled : Bool}
    {current : UInt64 → File}
    {actions : List Action}
    {state : State}
    (calm : (init enabled current).calmRun actions = true)
    (ran : (init enabled current).run actions = some state) :
    state.WritesUpper :=
  ((faithful_init enabled current).run calm ran).writesUpper

end State

end Passthrough

namespace Sample

open Passthrough

/-- A thread opens a file and replies. -/
def openFile
    (thread : Nat)
    (needsWrite : Bool)
    (steps : Nat) :
    List Action :=
  .openFile thread 7 needsWrite 100 ::
    List.replicate steps (.advance thread true)

/-- The file is opened for writing, which copies it up, and then for reading. -/
def writeThenRead : List Action :=
  openFile 0 true 7 ++ openFile 1 false 5

/-- The file is opened for reading and then for writing. -/
def readThenWrite : List Action :=
  openFile 0 false 7 ++ openFile 1 true 5

end Sample

namespace Passthrough

namespace State

open Sample

theorem passthrough_writes_upper_copied :
    ∃ state, (init true lowerFile).run writeThenRead = some state ∧
      (state.held.get? 1).bind (·.backing) = some ⟨0, ⟨100, false⟩⟩ ∧
      state.WritesUpper := by
  have ended :
      ((init true lowerFile).run writeThenRead).map
        (fun state => (state.held.get? 1).bind (·.backing)) =
      some (some ⟨0, ⟨100, false⟩⟩) := by
    decide +kernel
  obtain ⟨state, ran, backed⟩ := Option.map_eq_some_iff.mp ended
  exact ⟨state, ran, backed, passthrough_writes_upper (by decide +kernel) ran⟩

/-- The writer is answered with the backing that the reader registered with
the file on the lower layer. -/
theorem passthrough_writes_lower :
    ∃ state, (init true lowerFile).run readThenWrite = some state ∧
      ¬ state.WritesUpper := by
  have ended :
      ((init true lowerFile).run readThenWrite).map
        (fun state => state.held.get? 2) =
      some (some ⟨⟨7, ⟨100, false⟩, true, false⟩,
        some ⟨0, ⟨0, true⟩⟩⟩) := by
    decide +kernel
  obtain ⟨state, ran, heldNow⟩ := Option.map_eq_some_iff.mp ended
  refine ⟨state, ran, ?_⟩
  intro writes
  have upper := (writes.upper 2 _ _ heldNow rfl rfl).2
  cases upper

end State

end Passthrough

end FuseOverlay
