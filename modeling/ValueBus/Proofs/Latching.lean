import ValueBus.Proofs.Actions
import ValueBus.Stream.Input
import ValueBus.Stream.Output

/-!
# Streams that keep to the latch

The latch is an agreement between a stream and those who call it. Once an error is latched, every
call fails with it at once and has no effect. Until then a call that fails latches what it fails
with, and a call that answers latches nothing.

A composite action keeps to the latch if its parts do. The part of the agreement that concerns a
stream without a latched error is said of single results, since what comes second often depends on
the state that the first part has left.
-/

namespace ValueBus

/-- A latch that takes the first error and keeps it. -/
class LawfulLatch (σ : Type) [Latch σ] : Prop where
  error_setError : ∀ (newError : StreamError) (state : σ),
    Latch.error (Latch.setError newError state) = (Latch.error state).or (some newError)

namespace Action

variable {σ α β : Type}

/-- The state that an action leaves, whether it answers or fails. -/
def after (action : Action σ α) (before : σ) : σ :=
  match action before with
  | .ok _ final => final
  | .error _ final => final

theorem after_of_ok {action : Action σ α} {before final : σ} {answer : α}
    (answers : action before = .ok answer final) : action.after before = final := by
  simp only [after, answers]

theorem after_of_error {action : Action σ α} {before final : σ} {fault : StreamError}
    (fails : action before = .error fault final) : action.after before = final := by
  simp only [after, fails]

variable [Latch σ]

/-- What is latched afterwards is what the action failed with, if it failed. -/
def Settled : EStateM.Result StreamError σ α → Prop
  | .ok _ after => Latch.error after = none
  | .error fault after => Latch.error after = some fault

/-- Run without a latched error, the action latches what it fails with and nothing else. -/
def Settles (action : Action σ α) : Prop :=
  ∀ ⦃before : σ⦄, Latch.error before = none → Settled (action before)

/-- Run with a latched error, the action fails with it and has no effect. -/
def Refuses (action : Action σ α) : Prop :=
  ∀ ⦃before : σ⦄ ⦃first : StreamError⦄, Latch.error before = some first →
    action before = .error first before

theorem Settled.bind {first : Action σ α} {next : α → Action σ β} {before : σ}
    (settled : Settled (first before))
    (continues : ∀ {answer : α} {middle : σ}, first before = .ok answer middle →
      Settled (next answer middle)) :
    Settled ((first >>= next) before) := by
  cases result : first before with
  | ok answer middle =>
      rw [bind_of_ok result]
      exact continues result
  | error fault middle =>
      rw [result] at settled
      rw [bind_of_error result]
      exact settled

theorem Settled.unlatched_of_ok {action : Action σ α} {before after : σ} {answer : α}
    (settled : Settled (action before)) (answers : action before = .ok answer after) :
    Latch.error after = none := by
  rw [answers] at settled
  exact settled

theorem Settled.map {action : Action σ α} {before : σ} (settled : Settled (action before))
    (change : α → β) : Settled ((change <$> action) before) := by
  simp only [Functor.map, EStateM.map]
  cases result : action before with
  | ok answer after => exact settled.unlatched_of_ok result
  | error fault after =>
      rw [result] at settled
      exact settled

theorem Settles.bind {first : Action σ α} {next : α → Action σ β} (settles : first.Settles)
    (nextSettles : ∀ answer, (next answer).Settles) : (first >>= next).Settles := by
  intro before unlatched
  apply (settles unlatched).bind
  intro answer middle answers
  exact nextSettles answer ((settles unlatched).unlatched_of_ok answers)

/-- If an error is latched by an action, the action has failed with it. -/
theorem Settles.eq_error {action : Action σ α} (settles : action.Settles) {before : σ}
    {first : StreamError} (unlatched : Latch.error before = none)
    (latched : Latch.error (action.after before) = some first) :
    action before = .error first (action.after before) := by
  have settled := settles unlatched
  cases result : action before with
  | ok answer final =>
      rw [after_of_ok result, settled.unlatched_of_ok result] at latched
      cases latched
  | error fault final =>
      rw [result] at settled
      rw [after_of_error result] at latched ⊢
      rw [Option.some.inj (settled.symm.trans latched)]

theorem Settles.pure (answer : α) : (pure answer : Action σ α).Settles :=
  fun _ unlatched => unlatched

theorem Settles.map {action : Action σ α} (settles : action.Settles) (change : α → β) :
    (change <$> action).Settles :=
  fun _ unlatched => (settles unlatched).map change

theorem get_settles : (get : Action σ σ).Settles :=
  fun _ unlatched => unlatched

theorem check_settles : (Latch.check : Action σ Unit).Settles := by
  intro before unlatched
  rw [check_of_unlatched unlatched]
  exact unlatched

theorem raise_settles [LawfulLatch σ] (fault : StreamError) :
    (Latch.raise fault : Action σ α).Settles := by
  intro before unlatched
  rw [raise_of_unlatched unlatched, Settled, LawfulLatch.error_setError, unlatched]
  rfl

theorem Refuses.bind {first : Action σ α} (refuses : first.Refuses) (next : α → Action σ β) :
    (first >>= next).Refuses :=
  fun _ _ latched => bind_of_error (refuses latched)

/-- What answers was run without a latched error. -/
theorem Refuses.unlatched_of_ok {action : Action σ α} (refuses : action.Refuses) {before after : σ}
    {answer : α} (answers : action before = .ok answer after) : Latch.error before = none := by
  cases latched : Latch.error before with
  | none => rfl
  | some first =>
      rw [refuses latched] at answers
      cases answers

theorem Refuses.map {action : Action σ α} (refuses : action.Refuses) (change : α → β) :
    (change <$> action).Refuses :=
  fun _ _ latched => map_of_error (refuses latched)

theorem check_refuses : (Latch.check : Action σ Unit).Refuses := by
  intro before first latched
  simp only [Latch.check, latched]

theorem raise_refuses (fault : StreamError) : (Latch.raise fault : Action σ α).Refuses := by
  intro before first latched
  simp only [Latch.raise, latched]

/-- An action behind a check of the latch does as it does without one. -/
theorem Settles.of_check {action : Action σ α} (settles : action.Settles) :
    (Latch.check >>= fun _ => action).Settles :=
  check_settles.bind fun _ => settles

end Action

/-- An output stream whose calls keep to the latch. -/
class LawfulOutputStream (σ : Type) [OutputStream σ] : Prop extends LawfulLatch σ where
  settles : ∀ call : WriteCall, (OutputStream.perform call : Action σ Unit).Settles
  refuses : ∀ call : WriteCall, (OutputStream.perform call : Action σ Unit).Refuses

/-- An input stream whose calls keep to the latch. The question for another item cannot fail: it
answers no, and latches an error or does not. -/
class LawfulInputStream (σ : Type) [InputStream σ] : Prop extends LawfulLatch σ where
  leaf_settles : ∀ (kind : LeafKind) (deployment : Option Deployment),
    (InputStream.leaf kind deployment : Action σ Leaf).Settles
  leaf_refuses : ∀ (kind : LeafKind) (deployment : Option Deployment),
    (InputStream.leaf kind deployment : Action σ Leaf).Refuses
  enter_settles : ∀ (kind : FrameKind) (deployment : Option Deployment),
    (InputStream.enter kind deployment : Action σ Opening).Settles
  enter_refuses : ∀ (kind : FrameKind) (deployment : Option Deployment),
    (InputStream.enter kind deployment : Action σ Opening).Refuses
  leave_settles : ∀ kind : FrameKind, (InputStream.leave kind : Action σ Unit).Settles
  leave_refuses : ∀ kind : FrameKind, (InputStream.leave kind : Action σ Unit).Refuses
  hasMore_of_latched : ∀ (kind : Repetition) {state : σ} {first : StreamError},
    Latch.error state = some first → InputStream.hasMore kind state = (false, state)
  unlatched_of_hasMore : ∀ (kind : Repetition) {state : σ}, Latch.error state = none →
    (InputStream.hasMore kind state).1 = true →
      Latch.error (InputStream.hasMore kind state).2 = none

end ValueBus
