namespace FuseOverlay

/-!
# Actions with state and errors

An action changes a state and returns a value or an error; an error does not
undo the changes made before it.  `Holds` is the judgement of pre- and
postconditions, with one postcondition for both outcomes, and `Keeps` its
special case for an invariant.  The rules follow the way actions are written:
one for a value, an error, a sequence and an attempt.
-/

/-- An action over states `σ` that returns a value or an error. -/
def Act (ε σ α : Type) : Type :=
  σ → Except ε α × σ

namespace Act

variable {ε σ α β : Type}

/-- Run two actions in sequence; an error ends the sequence. -/
protected def bind
    (first : Act ε σ α)
    (next : α → Act ε σ β) :
    Act ε σ β :=
  fun state =>
    match first state with
    | (.ok value, middle) => next value middle
    | (.error error, middle) => (.error error, middle)

instance : Monad (Act ε σ) where
  pure value := fun state => (.ok value, state)
  bind := Act.bind

/-- End with an error. -/
def fail (error : ε) : Act ε σ α :=
  fun state => (.error error, state)

/-- Run an action and return its outcome; `let _ = ...` of the source. -/
def attempt
    (act : Act ε σ α) :
    Act ε σ (Except ε α) :=
  fun state => (.ok (act state).1, (act state).2)

/-- Read a part of the state. -/
def gets
    (read : σ → α) :
    Act ε σ α :=
  fun state => (.ok (read state), state)

/-- Change the state. -/
def modify
    (change : σ → σ) :
    Act ε σ Unit :=
  fun state => (.ok (), change state)

/-- Return an outcome that was computed before. -/
def ofExcept
    (outcome : Except ε α) :
    Act ε σ α :=
  fun state => (outcome, state)

/-- A missing value is an error. -/
def orFail
    (value : Option α)
    (error : ε) :
    Act ε σ α :=
  match value with
  | some found => pure found
  | none => fail error

/-- End with an error unless a test holds. -/
def check
    (test : Bool)
    (error : ε) :
    Act ε σ Unit :=
  if test then pure () else fail error

/-- Run an action when a test holds. -/
def runIf
    (test : Bool)
    (act : Act ε σ Unit) :
    Act ε σ Unit :=
  if test then act else pure ()

/-- Run an action for every element of a list. -/
def each
    (act : α → Act ε σ Unit) :
    List α → Act ε σ Unit
  | [] => pure ()
  | item :: rest => do
      act item
      each act rest

@[simp] theorem pure_apply
    (value : α)
    (state : σ) :
    (pure value : Act ε σ α) state = (.ok value, state) :=
  rfl

@[simp] theorem fail_apply
    (error : ε)
    (state : σ) :
    (fail error : Act ε σ α) state = (.error error, state) :=
  rfl

@[simp] theorem gets_apply
    (read : σ → α)
    (state : σ) :
    (gets read : Act ε σ α) state = (.ok (read state), state) :=
  rfl

@[simp] theorem modify_apply
    (change : σ → σ)
    (state : σ) :
    (modify change : Act ε σ Unit) state = (.ok (), change state) :=
  rfl

@[simp] theorem attempt_apply
    (act : Act ε σ α)
    (state : σ) :
    act.attempt state = (.ok (act state).1, (act state).2) :=
  rfl

@[simp] theorem ofExcept_apply
    (outcome : Except ε α)
    (state : σ) :
    (ofExcept outcome : Act ε σ α) state = (outcome, state) :=
  rfl

theorem bind_apply
    (first : Act ε σ α)
    (next : α → Act ε σ β)
    (state : σ) :
    (first >>= next) state =
      match first state with
      | (.ok value, middle) => next value middle
      | (.error error, middle) => (.error error, middle) :=
  rfl

theorem bind_ok
    {first : Act ε σ α}
    {state middle : σ}
    {value : α}
    (ran : first state = (.ok value, middle))
    (next : α → Act ε σ β) :
    (first >>= next) state = next value middle := by
  rw [bind_apply, ran]

theorem bind_error
    {first : Act ε σ α}
    {state middle : σ}
    {error : ε}
    (ran : first state = (.error error, middle))
    (next : α → Act ε σ β) :
    (first >>= next) state = (.error error, middle) := by
  rw [bind_apply, ran]

theorem bind_assoc
    {γ : Type}
    (first : Act ε σ α)
    (next : α → Act ε σ β)
    (last : β → Act ε σ γ) :
    first >>= next >>= last = first >>= fun value => next value >>= last := by
  funext state
  simp only [bind_apply]
  rcases first state with ⟨outcome, middle⟩
  cases outcome <;> rfl

theorem pure_bind
    (value : α)
    (next : α → Act ε σ β) :
    pure value >>= next = next value :=
  rfl

/-- A sequence that returns a value went through its first action. -/
theorem bind_returns
    {first : Act ε σ α}
    {next : α → Act ε σ β}
    {state : σ}
    {value : β}
    (returned : ((first >>= next) state).1 = .ok value) :
    ∃ middle later, first state = (.ok middle, later) ∧
      (first >>= next) state = next middle later := by
  rcases ran : first state with ⟨outcome, later⟩
  cases outcome with
  | ok middle =>
      exact ⟨middle, later, rfl, bind_ok ran next⟩
  | error error =>
      rw [bind_error ran] at returned
      cases returned

theorem orFail_returns
    {value : Option α}
    {error : ε}
    {state later : σ}
    {result : α}
    (returned : orFail value error state = (.ok result, later)) :
    value = some result ∧ later = state := by
  cases value with
  | none =>
      cases returned
  | some found =>
      cases returned
      exact ⟨rfl, rfl⟩

theorem check_returns
    {test : Bool}
    {error : ε}
    {state later : σ}
    {result : Unit}
    (returned : check test error state = (.ok result, later)) :
    test = true ∧ later = state := by
  cases test with
  | false =>
      cases returned
  | true =>
      cases returned
      exact ⟨rfl, rfl⟩

theorem check_true
    {test : Bool}
    (passes : test = true)
    (error : ε)
    (state : σ) :
    check test error state = (.ok (), state) := by
  rw [passes]
  rfl

theorem check_false
    {test : Bool}
    (fails : test = false)
    (error : ε)
    (state : σ) :
    check test error state = (.error error, state) := by
  rw [fails]
  rfl

theorem map_ok
    {act : Act ε σ α}
    {state later : σ}
    {value : α}
    (ran : act state = (.ok value, later))
    (transform : α → β) :
    (transform <$> act) state = (.ok (transform value), later) := by
  change Act.bind act (fun value => pure (transform value)) state = _
  unfold Act.bind
  rw [ran]
  rfl

/-- From `pre`, the action ends in `post`, with a value or an error. -/
def Holds
    (pre : σ → Prop)
    (act : Act ε σ α)
    (post : Except ε α → σ → Prop) : Prop :=
  ∀ state, pre state → post (act state).1 (act state).2

/-- The action keeps a property of the state, whatever its outcome. -/
def Keeps
    (kept : σ → Prop)
    (act : Act ε σ α) : Prop :=
  Holds kept act fun _ => kept

/-- From `pre`, a value that the action returns satisfies `post`. -/
def Gives
    (pre : σ → Prop)
    (act : Act ε σ α)
    (post : α → σ → Prop) : Prop :=
  ∀ state value later, pre state → act state = (.ok value, later) →
    post value later

namespace Holds

variable {pre : σ → Prop} {post : Except ε α → σ → Prop}

theorem pure
    {value : α}
    (done : ∀ state, pre state → post (.ok value) state) :
    Holds pre (Pure.pure value : Act ε σ α) post :=
  done

theorem fail
    {error : ε}
    (done : ∀ state, pre state → post (.error error) state) :
    Holds pre (Act.fail error : Act ε σ α) post :=
  done

theorem gets
    {read : σ → α}
    (done : ∀ state, pre state → post (.ok (read state)) state) :
    Holds pre (Act.gets read : Act ε σ α) post :=
  done

theorem modify
    {change : σ → σ}
    {post : Except ε Unit → σ → Prop}
    (done : ∀ state, pre state → post (.ok ()) (change state)) :
    Holds pre (Act.modify change : Act ε σ Unit) post :=
  done

theorem ofExcept
    {outcome : Except ε α}
    (done : ∀ state, pre state → post outcome state) :
    Holds pre (Act.ofExcept outcome : Act ε σ α) post :=
  done

theorem orFail
    {value : Option α}
    {error : ε}
    (found :
      ∀ result state, value = some result → pre state →
        post (.ok result) state)
    (missing : ∀ state, value = none → pre state → post (.error error) state) :
    Holds pre (Act.orFail value error : Act ε σ α) post := by
  intro state holds
  cases shape : value with
  | some result =>
      exact found result state shape holds
  | none =>
      exact missing state shape holds

/-- A sequence: the first outcome is an error or feeds the rest. -/
theorem bind
    {first : Act ε σ β}
    {next : β → Act ε σ α}
    {middle : Except ε β → σ → Prop}
    (firstHolds : Holds pre first middle)
    (nextHolds : ∀ value, Holds (middle (.ok value)) (next value) post)
    (errors :
      ∀ error state, middle (.error error) state →
        post (.error error) state) :
    Holds pre (first >>= next) post := by
  intro state holds
  have reached := firstHolds state holds
  rw [bind_apply]
  rcases outcome : first state with ⟨result, later⟩
  rw [outcome] at reached
  cases result with
  | ok value =>
      exact nextHolds value later reached
  | error error =>
      exact errors error later reached

/-- A sequence that starts with a read knows what it read. -/
theorem getsBind
    {read : σ → β}
    {next : β → Act ε σ α}
    (nextHolds :
      ∀ value, Holds (fun state => pre state ∧ read state = value)
        (next value) post) :
    Holds pre (Act.gets read >>= next) post :=
  fun state holds => nextHolds (read state) state ⟨holds, rfl⟩

/-- A sequence that needs a value to go on. -/
theorem orFailBind
    {value : Option β}
    {error : ε}
    {next : β → Act ε σ α}
    (found : ∀ result, value = some result → Holds pre (next result) post)
    (missing : ∀ state, pre state → post (.error error) state) :
    Holds pre (Act.orFail value error >>= next) post := by
  cases value with
  | some result =>
      exact found result rfl
  | none =>
      exact missing

/-- A sequence that starts with a change. -/
theorem modifyBind
    {change : σ → σ}
    {next : Unit → Act ε σ α}
    (middle : σ → Prop)
    (changed : ∀ state, pre state → middle (change state))
    (nextHolds : Holds middle (next ()) post) :
    Holds pre (Act.modify change >>= next) post :=
  fun state holds => nextHolds (change state) (changed state holds)

/-- A result that is only transformed. -/
theorem map
    {act : Act ε σ β}
    {transform : β → α}
    (inner :
      Holds pre act fun outcome state => post (outcome.map transform) state) :
    Holds pre (transform <$> act) post := by
  intro state holds
  have reached := inner state holds
  change post (Act.bind act (fun value => Pure.pure (transform value)) state).1
    (Act.bind act (fun value => Pure.pure (transform value)) state).2
  unfold Act.bind
  rcases outcome : act state with ⟨result, later⟩
  rw [outcome] at reached
  cases result <;> exact reached

/-- An attempt returns the outcome as a value. -/
theorem attempt
    {act : Act ε σ β}
    {post : Except ε (Except ε β) → σ → Prop}
    (inner : Holds pre act fun outcome state => post (.ok outcome) state) :
    Holds pre act.attempt post :=
  inner

/-- Strengthen the precondition and weaken the postcondition. -/
theorem imp
    {act : Act ε σ α}
    {pre' : σ → Prop}
    {post' : Except ε α → σ → Prop}
    (holds : Holds pre act post)
    (before : ∀ state, pre' state → pre state)
    (after : ∀ outcome state, post outcome state → post' outcome state) :
    Holds pre' act post' :=
  fun state given => after _ _ (holds state (before state given))

end Holds

namespace Keeps

variable {kept : σ → Prop}

theorem pure
    (value : α) :
    Keeps kept (Pure.pure value : Act ε σ α) :=
  fun _ holds => holds

theorem fail
    (error : ε) :
    Keeps kept (Act.fail error : Act ε σ α) :=
  fun _ holds => holds

theorem gets
    (read : σ → α) :
    Keeps kept (Act.gets read : Act ε σ α) :=
  fun _ holds => holds

theorem ofExcept
    (outcome : Except ε α) :
    Keeps kept (Act.ofExcept outcome : Act ε σ α) :=
  fun _ holds => holds

theorem orFail
    (value : Option α)
    (error : ε) :
    Keeps kept (Act.orFail value error : Act ε σ α) := by
  intro state holds
  cases value <;> exact holds

theorem check
    (test : Bool)
    (error : ε) :
    Keeps kept (Act.check test error : Act ε σ Unit) := by
  intro state holds
  cases test <;> exact holds

theorem modify
    {change : σ → σ}
    (keeps : ∀ state, kept state → kept (change state)) :
    Keeps kept (Act.modify change : Act ε σ Unit) :=
  keeps

theorem attempt
    {act : Act ε σ α}
    (keeps : Keeps kept act) :
    Keeps kept act.attempt :=
  keeps

theorem bind
    {first : Act ε σ α}
    {next : α → Act ε σ β}
    (firstKeeps : Keeps kept first)
    (nextKeeps : ∀ value, Keeps kept (next value)) :
    Keeps kept (first >>= next) :=
  Holds.bind firstKeeps nextKeeps fun _ _ holds => holds

theorem map
    {act : Act ε σ α}
    {transform : α → β}
    (keeps : Keeps kept act) :
    Keeps kept (transform <$> act) :=
  Holds.map keeps

theorem runIf
    {test : Bool}
    {act : Act ε σ Unit}
    (keeps : Keeps kept act) :
    Keeps kept (Act.runIf test act) := by
  cases test with
  | true =>
      exact keeps
  | false =>
      exact Keeps.pure ()

/-- A loop keeps what its body keeps. -/
theorem each
    {act : α → Act ε σ Unit}
    (keeps : ∀ item, Keeps kept (act item))
    (items : List α) :
    Keeps kept (Act.each act items) := by
  induction items with
  | nil =>
      exact Keeps.pure ()
  | cons item rest inductionHypothesis =>
      exact Keeps.bind (keeps item) fun _ => inductionHypothesis

end Keeps

namespace Gives

variable {pre : σ → Prop} {post : α → σ → Prop}

theorem pure
    {value : α}
    (done : ∀ state, pre state → post value state) :
    Gives pre (Pure.pure value : Act ε σ α) post := by
  intro state result later holds returned
  cases returned
  exact done state holds

theorem fail
    {error : ε} :
    Gives pre (Act.fail error : Act ε σ α) post := by
  intro state result later _ returned
  cases returned

theorem gets
    {read : σ → α}
    (done : ∀ state, pre state → post (read state) state) :
    Gives pre (Act.gets read : Act ε σ α) post := by
  intro state result later holds returned
  cases returned
  exact done state holds

/-- The first action feeds the rest. -/
theorem bind
    {first : Act ε σ β}
    {next : β → Act ε σ α}
    {middle : β → σ → Prop}
    (firstGives : Gives pre first middle)
    (nextGives : ∀ value, Gives (middle value) (next value) post) :
    Gives pre (first >>= next) post := by
  intro state result later holds returned
  obtain ⟨value, between, ran, rest⟩ :=
    bind_returns (congrArg Prod.fst returned)
  rw [rest] at returned
  exact nextGives value between result later
    (firstGives state value between holds ran) returned

/-- A sequence that starts with a read knows what it read. -/
theorem getsBind
    {read : σ → β}
    {next : β → Act ε σ α}
    (nextGives :
      ∀ value, Gives (fun state => pre state ∧ read state = value)
        (next value) post) :
    Gives pre (Act.gets read >>= next) post :=
  bind (gets fun _ holds => ⟨holds, rfl⟩) nextGives

theorem orFailBind
    {value : Option β}
    {error : ε}
    {next : β → Act ε σ α}
    (found : ∀ result, value = some result → Gives pre (next result) post) :
    Gives pre (Act.orFail value error >>= next) post := by
  cases value with
  | some result =>
      exact found result rfl
  | none =>
      intro state result later _ returned
      cases returned

theorem checkBind
    {test : Bool}
    {error : ε}
    {next : Unit → Act ε σ α}
    (passed : test = true → Gives pre (next ()) post) :
    Gives pre (Act.check test error >>= next) post := by
  cases test with
  | true =>
      exact passed rfl
  | false =>
      intro state result later _ returned
      cases returned

/-- An attempt returns either outcome. -/
theorem attempt
    {act : Act ε σ β}
    {post : Except ε β → σ → Prop}
    (inner : Holds pre act post) :
    Gives pre act.attempt post := by
  intro state result later holds returned
  cases returned
  exact inner state holds

theorem runIf
    {test : Bool}
    {act : Act ε σ Unit}
    {post : Unit → σ → Prop}
    (runs : test = true → Gives pre act post)
    (skips : test = false → ∀ state, pre state → post () state) :
    Gives pre (Act.runIf test act) post := by
  cases test with
  | true =>
      exact runs rfl
  | false =>
      exact pure (skips rfl)

/-- What an action keeps it gives with any value. -/
theorem ofKeeps
    {kept : σ → Prop}
    {act : Act ε σ α}
    (keeps : Keeps kept act) :
    Gives kept act fun _ => kept := by
  intro state value later holds returned
  have after := keeps state holds
  rw [returned] at after
  exact after

/-- A fact that does not depend on the state. -/
theorem given
    {fact : Prop}
    {act : Act ε σ α}
    (gives : fact → Gives pre act post) :
    Gives (fun state => fact ∧ pre state) act post :=
  fun state value later holds => gives holds.1 state value later holds.2

/-- A witness that the precondition speaks of. -/
theorem some
    {ι : Sort _}
    {pre : ι → σ → Prop}
    {act : Act ε σ α}
    (gives : ∀ witness, Gives (pre witness) act post) :
    Gives (fun state => ∃ witness, pre witness state) act post := by
  intro state value later holds
  obtain ⟨witness, holds⟩ := holds
  exact gives witness state value later holds

/-- Strengthen the precondition and weaken the postcondition. -/
theorem imp
    {act : Act ε σ α}
    {pre' : σ → Prop}
    {post' : α → σ → Prop}
    (gives : Gives pre act post)
    (before : ∀ state, pre' state → pre state)
    (after : ∀ value state, post value state → post' value state) :
    Gives pre' act post' :=
  fun state value later given returned =>
    after value later (gives state value later (before state given) returned)

end Gives

/-- The action does not end with the error. -/
def Never
    (error : ε)
    (act : Act ε σ α) : Prop :=
  ∀ state, (act state).1 ≠ .error error

namespace Never

variable {error : ε}

theorem pure
    (value : α) :
    Never error (Pure.pure value : Act ε σ α) :=
  fun _ failed => by cases failed

theorem gets
    (read : σ → α) :
    Never error (gets read : Act ε σ α) :=
  fun _ failed => by cases failed

theorem modify
    (change : σ → σ) :
    Never error (modify change : Act ε σ Unit) :=
  fun _ failed => by cases failed

theorem attempt
    (act : Act ε σ α) :
    Never error act.attempt :=
  fun _ failed => by cases failed

theorem orFail
    {other : ε}
    (different : other ≠ error)
    (value : Option α) :
    Never error (orFail value other : Act ε σ α) := by
  intro state failed
  cases value with
  | none =>
      exact different (Except.error.inj failed)
  | some found =>
      cases failed

theorem bind
    {first : Act ε σ α}
    {next : α → Act ε σ β}
    (firstNever : Never error first)
    (nextNever : ∀ value, Never error (next value)) :
    Never error (first >>= next) := by
  intro state
  rw [bind_apply]
  rcases ran : first state with ⟨outcome, middle⟩
  cases outcome with
  | ok value =>
      exact nextNever value middle
  | error other =>
      intro failed
      apply firstNever state
      rw [ran]
      exact congrArg Except.error (Except.error.inj failed)

theorem runIf
    {test : Bool}
    {act : Act ε σ Unit}
    (never : Never error act) :
    Never error (runIf test act) := by
  unfold Act.runIf
  split
  · exact never
  · exact .pure ()

theorem map
    {act : Act ε σ α}
    (never : Never error act)
    (transform : α → β) :
    Never error (transform <$> act) :=
  never.bind fun value => .pure (transform value)

theorem each
    {body : α → Act ε σ Unit}
    (never : ∀ item, Never error (body item))
    (items : List α) :
    Never error (each body items) := by
  induction items with
  | nil =>
      exact .pure ()
  | cons item rest inductionHypothesis =>
      exact .bind (never item) fun _ => inductionHypothesis

/-- An action without errors returns. -/
theorem returns
    {act : Act ε σ α}
    (never : ∀ error, Never error act)
    (state : σ) :
    ∃ value, (act state).1 = .ok value := by
  cases outcome : (act state).1 with
  | ok value =>
      exact ⟨value, rfl⟩
  | error error =>
      exact absurd outcome (never error state)

end Never

end Act

end FuseOverlay
