import ValueBus.Error

/-!
# Stream actions and the error latch

A call on a stream either answers or fails, and in both cases leaves a new state behind. Every
stream carries one error slot: the first error stays there for the rest of the stream's life, and
`raise` reports the error that is latched after it.
-/

namespace ValueBus

/-- A call on a stream with state `σ`. -/
abbrev Action (σ α : Type) :=
  EStateM StreamError σ α

/-- A state with an error slot. -/
class Latch (σ : Type) where
  /-- The latched error, if any. -/
  error : σ → Option StreamError
  /-- Latches an error; the first one stays. -/
  setError : StreamError → σ → σ

namespace Latch

variable {σ α : Type} [Latch σ]

def hasError (state : σ) : Bool :=
  (error state).isSome

/-- Fails with the latched error, if there is one. -/
def check : Action σ Unit := fun state =>
  match error state with
  | some first => .error first state
  | none => .ok () state

/-- Latches an error and fails: with the error that was latched before, if there was one. -/
def raise (newError : StreamError) : Action σ α := fun state =>
  match error state with
  | some first => .error first state
  | none => .error newError (setError newError state)

end Latch

end ValueBus
