import ValueBus.Stream.Action

/-!
# Running actions

How the result of a composed action follows from the results of its parts.
-/

namespace ValueBus.Action

variable {σ α β : Type}

theorem bind_of_ok {first : Action σ α} {second : α → Action σ β} {before middle : σ} {answer : α}
    (answers : first before = .ok answer middle) :
    (first >>= second) before = second answer middle := by
  simp only [bind, EStateM.bind, answers]

theorem bind_of_error {first : Action σ α} {second : α → Action σ β} {before after : σ}
    {fault : StreamError} (fails : first before = .error fault after) :
    (first >>= second) before = .error fault after := by
  simp only [bind, EStateM.bind, fails]

/-- The first part may be replaced by another that ends the same way, even from another state. -/
theorem bind_of_eq {first other : Action σ α} {second : α → Action σ β} {before start : σ}
    (runs : first before = other start) : (first >>= second) before = (other >>= second) start := by
  simp only [bind, EStateM.bind, runs]

/-- If the second part fails whatever the first answers, the whole fails. -/
theorem bind_fails {first : Action σ α} {second : α → Action σ β}
    (fails : ∀ answer middle, ∃ fault after, second answer middle = .error fault after)
    (before : σ) : ∃ fault after, (first >>= second) before = .error fault after := by
  cases result : first before with
  | ok answer middle =>
      rw [bind_of_ok result]
      exact fails answer middle
  | error fault middle => exact ⟨fault, middle, bind_of_error result⟩

theorem bind_eq_ok_iff {first : Action σ α} {second : α → Action σ β} {before after : σ}
    {answer : β} :
    (first >>= second) before = .ok answer after ↔
      ∃ between middle,
        first before = .ok between middle ∧ second between middle = .ok answer after := by
  constructor
  · intro answers
    cases result : first before with
    | ok between middle =>
        rw [bind_of_ok result] at answers
        exact ⟨between, middle, rfl, answers⟩
    | error fault middle =>
        rw [bind_of_error result] at answers
        cases answers
  · rintro ⟨between, middle, firstAnswers, secondAnswers⟩
    rw [bind_of_ok firstAnswers, secondAnswers]

theorem map_eq_ok_iff {change : α → β} {first : Action σ α} {before after : σ} {answer : β} :
    (change <$> first) before = .ok answer after ↔
      ∃ between, first before = .ok between after ∧ change between = answer := by
  simp only [Functor.map, EStateM.map]
  cases first before with
  | ok between middle => grind
  | error fault middle => simp

theorem map_eq_error_iff {change : α → β} {first : Action σ α} {before after : σ}
    {fault : StreamError} :
    (change <$> first) before = .error fault after ↔ first before = .error fault after := by
  simp only [Functor.map, EStateM.map]
  cases first before with
  | ok between middle => simp
  | error fault middle => simp

theorem map_of_error {change : α → β} {first : Action σ α} {before after : σ}
    {fault : StreamError} (fails : first before = .error fault after) :
    (change <$> first) before = .error fault after :=
  map_eq_error_iff.2 fails

@[simp]
theorem pure_apply (answer : α) (before : σ) :
    (pure answer : Action σ α) before = .ok answer before :=
  rfl

variable [Latch σ]

theorem raise_ne_ok {fault : StreamError} {before after : σ} {answer : α} :
    (Latch.raise fault : Action σ α) before ≠ .ok answer after := by
  unfold Latch.raise
  cases Latch.error before <;> simp

/-- Nothing is done after an error is raised. -/
theorem raise_bind (fault : StreamError) (next : α → Action σ β) :
    ((Latch.raise fault : Action σ α) >>= next) = Latch.raise fault := by
  funext before
  simp only [bind, EStateM.bind, Latch.raise]
  cases Latch.error before <;> rfl

theorem raise_eq_error (fault : StreamError) (before : σ) :
    ∃ first after, (Latch.raise fault : Action σ α) before = .error first after := by
  unfold Latch.raise
  cases Latch.error before with
  | none => exact ⟨_, _, rfl⟩
  | some first => exact ⟨_, _, rfl⟩

theorem raise_of_unlatched {fault : StreamError} {before : σ}
    (unlatched : Latch.error before = none) :
    (Latch.raise fault : Action σ α) before = .error fault (Latch.setError fault before) := by
  unfold Latch.raise
  rw [unlatched]

theorem check_of_unlatched {before : σ} (unlatched : Latch.error before = none) :
    (Latch.check : Action σ Unit) before = .ok () before := by
  unfold Latch.check
  rw [unlatched]

end ValueBus.Action
