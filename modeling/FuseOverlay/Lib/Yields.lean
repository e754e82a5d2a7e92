import FuseOverlay.Lib.Act

namespace FuseOverlay

/-!
# Results of actions that keep an invariant

`Yields` says of an action that it keeps a property of the state and that a
value it returns satisfies a fact which the rest of a sequence may use.
-/

namespace Act

variable {ε σ α β : Type}

/-- The action keeps a property, and its value satisfies a fact. -/
def Yields
    (kept : σ → Prop)
    (act : Act ε σ α)
    (fact : α → Prop) : Prop :=
  Holds kept act fun outcome state =>
    kept state ∧ ∀ value, outcome = .ok value → fact value

namespace Yields

variable {kept : σ → Prop} {fact : α → Prop}

theorem keeps
    {act : Act ε σ α}
    (yields : Yields kept act fact) :
    Keeps kept act :=
  fun state holds => (yields state holds).1

theorem ofKeeps
    {act : Act ε σ α}
    (keeps : Keeps kept act)
    (all : ∀ value, fact value) :
    Yields kept act fact :=
  fun state holds => ⟨keeps state holds, fun value _ => all value⟩

theorem pure
    {value : α}
    (holds : fact value) :
    Yields kept (Pure.pure value : Act ε σ α) fact := by
  intro state given
  refine ⟨given, fun result same => ?_⟩
  cases same
  exact holds

theorem fail
    (error : ε) :
    Yields kept (Act.fail error : Act ε σ α) fact :=
  fun _ given => ⟨given, fun _ same => by cases same⟩

theorem gets
    {read : σ → α}
    (holds : ∀ state, kept state → fact (read state)) :
    Yields kept (Act.gets read : Act ε σ α) fact := by
  intro state given
  refine ⟨given, fun result same => ?_⟩
  cases same
  exact holds state given

theorem orFail
    {value : Option α}
    {error : ε}
    (holds : ∀ result, value = some result → fact result) :
    Yields kept (Act.orFail value error : Act ε σ α) fact := by
  cases value with
  | none =>
      exact Yields.fail error
  | some result =>
      exact Yields.pure (holds result rfl)

/-- A test that was passed. -/
theorem check
    {test : Bool}
    {error : ε}
    {fact : Unit → Prop}
    (holds : test = true → fact ()) :
    Yields kept (Act.check test error : Act ε σ Unit) fact := by
  cases test with
  | false =>
      exact Yields.fail error
  | true =>
      exact Yields.pure (holds rfl)

/-- The rest of a sequence may use the fact. -/
theorem bind
    {first : Act ε σ β}
    {next : β → Act ε σ α}
    {middle : β → Prop}
    (firstYields : Yields kept first middle)
    (nextYields : ∀ value, middle value → Yields kept (next value) fact) :
    Yields kept (first >>= next) fact := by
  refine Holds.bind firstYields ?_ ?_
  · intro value state reached
    exact nextYields value (reached.2 value rfl) state reached.1
  · intro error state reached
    exact ⟨reached.1, fun value same => by cases same⟩

/-- A sequence that only has to keep the property. -/
theorem bindKeeps
    {first : Act ε σ β}
    {next : β → Act ε σ α}
    {middle : β → Prop}
    (firstYields : Yields kept first middle)
    (nextKeeps : ∀ value, middle value → Keeps kept (next value)) :
    Keeps kept (first >>= next) :=
  keeps (bind firstYields fun value holds =>
    @ofKeeps _ _ _ _ (fun _ => True) _ (nextKeeps value holds) fun _ => trivial)

/-- A sequence whose last action gives the fact. -/
theorem after
    {first : Act ε σ β}
    {next : β → Act ε σ α}
    (firstKeeps : Keeps kept first)
    (nextYields : ∀ value, Yields kept (next value) fact) :
    Yields kept (first >>= next) fact :=
  bind (@ofKeeps _ _ _ _ (fun _ => True) _ firstKeeps fun _ => trivial)
    fun value _ => nextYields value

theorem attempt
    {act : Act ε σ α}
    (yields : Yields kept act fact) :
    Yields kept act.attempt fun outcome =>
      ∀ value, outcome = .ok value → fact value := by
  intro state given
  refine ⟨(yields state given).1, fun outcome same => ?_⟩
  cases same
  exact (yields state given).2

/-- A result that is only transformed. -/
theorem map
    {act : Act ε σ β}
    {transform : β → α}
    (yields : Yields kept act fun value => fact (transform value)) :
    Yields kept (transform <$> act) fact := by
  apply Holds.map
  refine Holds.imp yields (fun _ given => given) ?_
  rintro outcome state ⟨holds, gives⟩
  refine ⟨holds, fun result same => ?_⟩
  cases outcome with
  | error error =>
      cases same
  | ok value =>
      cases same
      exact gives value rfl

theorem imp
    {act : Act ε σ α}
    {weaker : α → Prop}
    (yields : Yields kept act fact)
    (implies : ∀ value, fact value → weaker value) :
    Yields kept act weaker :=
  fun state given =>
    ⟨(yields state given).1, fun value same =>
      implies value ((yields state given).2 value same)⟩

end Yields

end Act

end FuseOverlay
