import FuseOverlay.Lib.Act

namespace FuseOverlay

/-!
# Two runs of one action

`Agrees` compares an action with itself: from related states it has one
outcome and leads to related states.  What the relation hides, the action does
not read.
-/

namespace Act

variable {ε σ α β : Type}

/-- From related states: the same outcome, and related states again. -/
def Agrees
    (rel : σ → σ → Prop)
    (act : Act ε σ α) : Prop :=
  ∀ first second, rel first second →
    (act first).1 = (act second).1 ∧ rel (act first).2 (act second).2

namespace Agrees

variable {rel : σ → σ → Prop}

theorem pure
    (value : α) :
    Agrees rel (Pure.pure value : Act ε σ α) :=
  fun _ _ related => ⟨rfl, related⟩

theorem fail
    (error : ε) :
    Agrees rel (Act.fail error : Act ε σ α) :=
  fun _ _ related => ⟨rfl, related⟩

theorem ofExcept
    (outcome : Except ε α) :
    Agrees rel (Act.ofExcept outcome : Act ε σ α) :=
  fun _ _ related => ⟨rfl, related⟩

theorem gets
    {read : σ → α}
    (same : ∀ first second, rel first second → read first = read second) :
    Agrees rel (Act.gets read : Act ε σ α) :=
  fun first second related =>
    ⟨congrArg Except.ok (same first second related), related⟩

theorem modify
    {change : σ → σ}
    (kept :
      ∀ first second, rel first second →
        rel (change first) (change second)) :
    Agrees rel (Act.modify change : Act ε σ Unit) :=
  fun first second related => ⟨rfl, kept first second related⟩

theorem orFail
    (value : Option α)
    (error : ε) :
    Agrees rel (Act.orFail value error : Act ε σ α) := by
  cases value with
  | some found =>
      exact pure found
  | none =>
      exact fail error

theorem check
    (test : Bool)
    (error : ε) :
    Agrees rel (Act.check test error : Act ε σ Unit) := by
  cases test with
  | true =>
      exact pure ()
  | false =>
      exact fail error

/-- The second action starts with one value and from related states. -/
theorem bind
    {act : Act ε σ α}
    {next : α → Act ε σ β}
    (actAgrees : Agrees rel act)
    (nextAgrees : ∀ value, Agrees rel (next value)) :
    Agrees rel (act >>= next) := by
  intro first second related
  obtain ⟨same, later⟩ := actAgrees first second related
  rw [bind_apply, bind_apply]
  rcases firstRun : act first with ⟨outcome, firstLater⟩
  rcases secondRun : act second with ⟨outcome', secondLater⟩
  rw [firstRun, secondRun] at same later
  cases same
  cases outcome with
  | ok value =>
      exact nextAgrees value firstLater secondLater later
  | error error =>
      exact ⟨rfl, later⟩

theorem map
    {act : Act ε σ α}
    (transform : α → β)
    (agrees : Agrees rel act) :
    Agrees rel (transform <$> act) :=
  bind agrees fun value => pure (transform value)

theorem attempt
    {act : Act ε σ α}
    (agrees : Agrees rel act) :
    Agrees rel act.attempt := by
  intro first second related
  obtain ⟨same, later⟩ := agrees first second related
  exact ⟨congrArg Except.ok same, later⟩

theorem runIf
    {test : Bool}
    {act : Act ε σ Unit}
    (agrees : Agrees rel act) :
    Agrees rel (Act.runIf test act) := by
  cases test with
  | true =>
      exact agrees
  | false =>
      exact pure ()

/-- A loop agrees when its body does. -/
theorem each
    {act : α → Act ε σ Unit}
    (agrees : ∀ item, Agrees rel (act item))
    (items : List α) :
    Agrees rel (Act.each act items) := by
  induction items with
  | nil =>
      exact pure ()
  | cons item rest inductionHypothesis =>
      exact bind (agrees item) fun _ => inductionHypothesis

end Agrees

/--
Two runs from states related by `before` have one outcome and lead to states
related by `after`; the value they return has the property `good`.
-/
def Couples
    (before after : σ → σ → Prop)
    (good : α → Prop)
    (act : Act ε σ α) : Prop :=
  ∀ first second, before first second →
    (act first).1 = (act second).1 ∧
      after (act first).2 (act second).2 ∧
      ∀ value, (act first).1 = .ok value → good value

namespace Couples

variable
  {before middle after : σ → σ → Prop}
  {good : α → Prop}

theorem ofAgrees
    {rel : σ → σ → Prop}
    {act : Act ε σ α}
    (agrees : Agrees rel act) :
    Couples rel rel (fun _ => True) act := by
  intro first second related
  obtain ⟨same, later⟩ := agrees first second related
  exact ⟨same, later, fun _ _ => trivial⟩

theorem agrees
    {rel : σ → σ → Prop}
    {act : Act ε σ α}
    (couples : Couples rel rel good act) :
    Agrees rel act := by
  intro first second related
  obtain ⟨same, later, -⟩ := couples first second related
  exact ⟨same, later⟩

theorem pure
    {rel : σ → σ → Prop}
    {value : α}
    (holds : good value) :
    Couples rel rel good (Pure.pure value : Act ε σ α) := by
  intro first second related
  refine ⟨rfl, related, ?_⟩
  intro returned same
  cases same
  exact holds

theorem gets
    {rel : σ → σ → Prop}
    {read : σ → α}
    (same : ∀ first second, rel first second → read first = read second)
    (holds : ∀ first second, rel first second → good (read first)) :
    Couples rel rel good (Act.gets read : Act ε σ α) := by
  intro first second related
  refine ⟨congrArg Except.ok (same first second related), related, ?_⟩
  intro returned isValue
  cases isValue
  exact holds first second related

theorem orFail
    {rel : σ → σ → Prop}
    {value : Option α}
    {error : ε}
    (holds : ∀ found, value = some found → good found) :
    Couples rel rel good (Act.orFail value error : Act ε σ α) := by
  cases value with
  | some found =>
      exact pure (holds found rfl)
  | none =>
      intro first second related
      exact ⟨rfl, related, nofun⟩

/-- The rest starts with a good value; an error ends both runs. -/
theorem bind
    {act : Act ε σ α}
    {next : α → Act ε σ β}
    {done : β → Prop}
    (actCouples : Couples before middle good act)
    (nextCouples : ∀ value, good value → Couples middle after done (next value))
    (ends : ∀ first second, middle first second → after first second) :
    Couples before after done (act >>= next) := by
  intro first second related
  obtain ⟨same, later, holds⟩ := actCouples first second related
  rw [bind_apply, bind_apply]
  rcases firstRun : act first with ⟨outcome, firstLater⟩
  rcases secondRun : act second with ⟨outcome', secondLater⟩
  rw [firstRun, secondRun] at same later
  rw [firstRun] at holds
  cases same
  cases outcome with
  | ok value =>
      exact nextCouples value (holds value rfl) firstLater secondLater later
  | error error =>
      exact ⟨rfl, ends _ _ later, nofun⟩

/-- A sequence whose first action is only known to agree. -/
theorem bindAfter
    {rel : σ → σ → Prop}
    {act : Act ε σ α}
    {next : α → Act ε σ β}
    {done : β → Prop}
    (agrees : Agrees rel act)
    (nextCouples : ∀ value, Couples rel rel done (next value)) :
    Couples rel rel done (act >>= next) :=
  bind (ofAgrees agrees) (fun value _ => nextCouples value)
    fun _ _ related => related

/-- A sequence whose first action returns a good value. -/
theorem bindAgrees
    {rel : σ → σ → Prop}
    {act : Act ε σ α}
    {next : α → Act ε σ β}
    (actCouples : Couples rel rel good act)
    (nextAgrees : ∀ value, good value → Agrees rel (next value)) :
    Agrees rel (act >>= next) :=
  agrees (bind actCouples
    (fun value holds => ofAgrees (nextAgrees value holds))
    fun _ _ related => related)

theorem attempt
    {act : Act ε σ α}
    (couples : Couples before after good act) :
    Couples before after (fun outcome => ∀ value, outcome = .ok value →
      good value) act.attempt := by
  intro first second related
  obtain ⟨same, later, holds⟩ := couples first second related
  refine ⟨congrArg Except.ok same, later, ?_⟩
  intro outcome isOutcome
  cases isOutcome
  exact holds

theorem imp
    {act : Act ε σ α}
    {before' after' : σ → σ → Prop}
    {good' : α → Prop}
    (couples : Couples before after good act)
    (weaker : ∀ first second, before' first second → before first second)
    (stronger : ∀ first second, after first second → after' first second)
    (values : ∀ value, good value → good' value) :
    Couples before' after' good' act := by
  intro first second related
  obtain ⟨same, later, holds⟩ := couples first second (weaker _ _ related)
  exact ⟨same, stronger _ _ later,
    fun value isValue => values value (holds value isValue)⟩

end Couples

end Act

end FuseOverlay
