import ValueBus.Proofs.Conforming
import ValueBus.Proofs.Following
import ValueBus.Value.Write

/-!
# Observing the calls of a run

Any stream can be observed: the observed stream does what the stream does, and notes the required
calls together with how each of them ended. The calls that a stream may leave to their default are
not noted.

A run on an observed stream is the run on the stream itself. What it notes, its `history`, is
described by recursion on the steps that are written or on the program that reads.
-/

namespace ValueBus

/-- A stream with the required calls that were made on it, oldest first, and how each ended. -/
structure Observed (ι ω σ : Type) where
  stream : σ
  made : List (ι × Except StreamError ω) := []

namespace Observed

variable {ι ω σ α β : Type}

/-- How a call ended. -/
def outcome (answer : α → ω) : EStateM.Result StreamError σ α → Except StreamError ω
  | .ok value _ => .ok (answer value)
  | .error fault _ => .error fault

/-- How the question for another item ended, which fails by latching an error. -/
def askedMore (more : Bool) : Option StreamError → Except StreamError Answer
  | some fault => .error fault
  | none => .ok (.more more)

theorem latched_of_askedMore {more : Bool} {latched : Option StreamError} {fault : StreamError}
    (failed : askedMore more latched = .error fault) : latched = some fault := by
  cases latched with
  | none => cases failed
  | some first => cases failed; rfl

theorem askedMore_injective {more otherMore : Bool} {otherLatched : Option StreamError}
    (same : askedMore more none = askedMore otherMore otherLatched) :
    more = otherMore ∧ otherLatched = none := by
  cases otherLatched with
  | none => cases same; exact ⟨rfl, rfl⟩
  | some first => cases same

def entry (required : Bool) (call : ι) (ended : Except StreamError ω) :
    List (ι × Except StreamError ω) :=
  if required then [(call, ended)] else []

/-- A result on a stream as the result on the observed stream that has noted the given calls. -/
def carry (made : List (ι × Except StreamError ω)) :
    EStateM.Result StreamError σ α → EStateM.Result StreamError (Observed ι ω σ) α
  | .ok value stream => .ok value { stream, made }
  | .error fault stream => .error fault { stream, made }

/-- Makes a call, and notes it if it is required. -/
def watch (required : Bool) (call : ι) (answer : α → ω) (action : Action σ α) :
    Action (Observed ι ω σ) α := fun observed =>
  let result := action observed.stream
  carry (observed.made ++ entry required call (outcome answer result)) result

/-- What an action on the observed stream notes, from the first call on. -/
def history (action : Action (Observed ι ω σ) α) (stream : σ) : List (ι × Except StreamError ω) :=
  (action.after { stream }).made

instance [Latch σ] : Latch (Observed ι ω σ) where
  error observed := Latch.error observed.stream
  setError newError observed :=
    { observed with stream := Latch.setError newError observed.stream }

instance [OutputStream σ] : OutputStream (Observed WriteCall Unit σ) where
  perform call := watch call.isRequired call id (OutputStream.perform call)

instance [InputStream σ] : InputStream (Observed Question Answer σ) where
  nesting observed := InputStream.nesting observed.stream
  leaf kind deployment :=
    let question := .leaf kind deployment
    watch question.isRequired question .leaf (InputStream.leaf kind deployment)
  enter kind deployment :=
    let question := .enter kind deployment
    watch question.isRequired question .opening (InputStream.enter kind deployment)
  leave kind :=
    let question := .leave kind
    watch question.isRequired question (fun _ => .done) (InputStream.leave kind)
  hasMore kind observed :=
    let (more, stream) := InputStream.hasMore kind observed.stream
    let ended := askedMore more (Latch.error stream)
    (more, { stream, made := observed.made ++ [(.hasMore kind, ended)] })

/-- What follows a call with a given result, if the call answers. -/
def follow (result : EStateM.Result StreamError σ α)
    (following : α → σ → List (ι × Except StreamError ω)) : List (ι × Except StreamError ω) :=
  match result with
  | .ok value stream => following value stream
  | .error _ _ => []

/-- What is noted of a call with a given result and of what follows it. -/
def notes (required : Bool) (call : ι) (answer : α → ω) (result : EStateM.Result StreamError σ α)
    (following : α → σ → List (ι × Except StreamError ω)) : List (ι × Except StreamError ω) :=
  entry required call (outcome answer result) ++ follow result following

theorem notes_of_required (call : ι) (answer : α → ω) (result : EStateM.Result StreamError σ α)
    (following : α → σ → List (ι × Except StreamError ω)) :
    notes true call answer result following =
      (call, outcome answer result) :: follow result following :=
  rfl

/-- If what follows a call is noted as described, so is the whole. -/
theorem watch_bind {required : Bool} {call : ι} {answer : α → ω} {action : Action σ α}
    {next : α → Action σ β} {observedNext : α → Action (Observed ι ω σ) β}
    {following : α → σ → List (ι × Except StreamError ω)}
    (nextEq : ∀ value stream made, observedNext value { stream, made } =
      carry (made ++ following value stream) (next value stream))
    (stream : σ) (made : List (ι × Except StreamError ω)) :
    (watch required call answer action >>= observedNext) { stream, made } =
      carry (made ++ notes required call answer (action stream) following)
        ((action >>= next) stream) := by
  cases result : action stream with
  | ok value after =>
      have watched : watch required call answer action { stream, made } =
          .ok value ⟨after, made ++ entry required call (.ok (answer value))⟩ := by
        simp only [watch, result, carry, outcome]
      rw [Action.bind_of_ok watched, Action.bind_of_ok result, nextEq]
      simp only [notes, follow, outcome, List.append_assoc]
  | error fault after =>
      have watched : watch required call answer action { stream, made } =
          .error fault ⟨after, made ++ entry required call (.error fault)⟩ := by
        simp only [watch, result, carry, outcome]
      rw [Action.bind_of_error watched, Action.bind_of_error result]
      simp only [notes, follow, outcome, List.append_nil, carry]

section Latched

variable [Latch σ]

theorem raise_observed (fault : StreamError) (stream : σ)
    (made : List (ι × Except StreamError ω)) :
    (Latch.raise fault : Action (Observed ι ω σ) α) { stream, made } =
      carry made (Latch.raise fault stream) := by
  have observed : Latch.error ({ stream, made } : Observed ι ω σ) = Latch.error stream := rfl
  simp only [Latch.raise, observed]
  cases Latch.error stream <;> rfl

/-- The latch is checked alike, and nothing is noted of it. -/
theorem check_bind {next : Action σ β} {observedNext : Action (Observed ι ω σ) β} {stream : σ}
    {made more : List (ι × Except StreamError ω)}
    (latched : ∀ first, Latch.error stream = some first → more = [])
    (nextEq : Latch.error stream = none →
      observedNext { stream, made } = carry (made ++ more) (next stream)) :
    (Latch.check >>= fun _ => observedNext) { stream, made } =
      carry (made ++ more) ((Latch.check >>= fun _ => next) stream) := by
  cases error : Latch.error stream with
  | none =>
      have observedError : Latch.error ({ stream, made } : Observed ι ω σ) = none := error
      rw [Action.bind_of_ok (Action.check_of_unlatched observedError),
        Action.bind_of_ok (Action.check_of_unlatched error)]
      exact nextEq error
  | some first =>
      have observedError : Latch.error ({ stream, made } : Observed ι ω σ) = some first := error
      rw [Action.bind_of_error (Action.check_refuses observedError),
        Action.bind_of_error (Action.check_refuses error), latched first error, List.append_nil]
      rfl

end Latched

theorem history_of_carry {action : Action (Observed ι ω σ) α} {stream : σ}
    {made : List (ι × Except StreamError ω)} {result : EStateM.Result StreamError σ α}
    (carried : action { stream } = carry made result) : history action stream = made := by
  rw [history, Action.after, carried]
  cases result <;> rfl

end Observed

open Observed (carry notes)

namespace WriteStep

variable {σ : Type} [OutputStream σ]

/-- What steps note on a stream. -/
def noted : List WriteStep → σ → List (WriteCall × Except StreamError Unit)
  | [], _ | .raise _ :: _, _ => []
  | .call request :: rest, stream =>
      notes request.isRequired request id (OutputStream.perform request stream) fun _ after =>
        noted rest after

theorem runAll_observed (steps : List WriteStep) (stream : σ)
    (made : List (WriteCall × Except StreamError Unit)) :
    runAll steps { stream, made } = carry (made ++ noted steps stream) (runAll steps stream) := by
  induction steps generalizing stream made with
  | nil =>
      rw [noted, List.append_nil]
      rfl
  | cons step rest ih =>
      cases step with
      | call request =>
          exact Observed.watch_bind (fun _ after noted => ih after noted) stream made
      | raise fault =>
          simp only [runAll, noted, run, Action.raise_bind, List.append_nil]
          exact Observed.raise_observed fault stream made

end WriteStep

/-- The required calls that writing a value makes on a stream, and how each of them ended. -/
def Value.callsOn {σ : Type} [OutputStream σ] (value : Value) (deployment : Option Deployment)
    (stream : σ) : List (WriteCall × Except StreamError Unit) :=
  Observed.history (value.write deployment) stream

theorem Value.callsOn_eq {σ : Type} [OutputStream σ] (value : Value)
    (deployment : Option Deployment) (stream : σ) :
    value.callsOn deployment stream = WriteStep.noted (value.steps deployment) stream :=
  Observed.history_of_carry (WriteStep.runAll_observed _ stream [])

namespace ReadProgram

variable {σ α : Type} [InputStream σ]

/-- What a program notes on a stream. -/
def noted : ReadProgram α → σ → List (Question × Except StreamError Answer)
  | .done _, _ | .raise _, _ => []
  | .leaf kind deployment next, stream =>
      let question := .leaf kind deployment
      notes question.isRequired question .leaf (InputStream.leaf kind deployment stream)
        fun leaf after => (next leaf).noted after
  | .enter kind deployment next, stream =>
      let question := .enter kind deployment
      notes question.isRequired question .opening (InputStream.enter kind deployment stream)
        fun opening after => (next opening).noted after
  | .leave kind next, stream =>
      let question := .leave kind
      notes question.isRequired question (fun _ => .done) (InputStream.leave kind stream)
        fun _ after => next.noted after
  | .hasMore kind next, stream =>
      let (more, after) := InputStream.hasMore kind stream
      (.hasMore kind, Observed.askedMore more (Latch.error after)) :: (next more).noted after
  | .check next, stream =>
      match Latch.error stream with
      | some _ => []
      | none => next.noted stream

theorem noted_hasMore (kind : Repetition) (next : Bool → ReadProgram α) (stream : σ) :
    (hasMore kind next).noted stream =
      (.hasMore kind, Observed.askedMore (InputStream.hasMore kind stream).1
        (Latch.error (InputStream.hasMore kind stream).2)) ::
          (next (InputStream.hasMore kind stream).1).noted (InputStream.hasMore kind stream).2 :=
  rfl

theorem noted_check (next : ReadProgram α) {stream : σ} (unlatched : Latch.error stream = none) :
    (check next).noted stream = next.noted stream := by
  simp only [noted, unlatched]

theorem run_observed (program : ReadProgram α) (stream : σ)
    (made : List (Question × Except StreamError Answer)) :
    program.run { stream, made : Observed Question Answer σ } =
      carry (made ++ program.noted stream) (program.run stream) := by
  induction program generalizing stream made with
  | done value =>
      rw [noted, List.append_nil]
      rfl
  | raise fault =>
      simp only [noted, run, List.append_nil]
      exact Observed.raise_observed fault stream made
  | leaf kind deployment next ih =>
      exact Observed.watch_bind (fun leaf after noted => ih leaf after noted) stream made
  | enter kind deployment next ih =>
      exact Observed.watch_bind (fun opening after noted => ih opening after noted) stream made
  | leave kind next ih =>
      exact Observed.watch_bind (fun _ after noted => ih after noted) stream made
  | hasMore kind next ih =>
      have observed : (hasMore kind next).run ({ stream, made } : Observed Question Answer σ) =
          (next (InputStream.hasMore kind stream).1).run
            { stream := (InputStream.hasMore kind stream).2,
              made := made ++ [(.hasMore kind, Observed.askedMore
                (InputStream.hasMore kind stream).1
                (Latch.error (InputStream.hasMore kind stream).2))] } := rfl
      rw [observed, ih, List.append_assoc]
      rfl
  | check next ih =>
      apply Observed.check_bind
      · intro first latched
        simp only [noted, latched]
      · intro unlatched
        simp only [noted, unlatched]
        exact ih stream made

/-- The required questions that a program asks a stream, and how each of them ended. -/
def questionsTo (program : ReadProgram α) (stream : σ) :
    List (Question × Except StreamError Answer) :=
  Observed.history program.run stream

theorem questionsTo_eq (program : ReadProgram α) (stream : σ) :
    program.questionsTo stream = program.noted stream :=
  Observed.history_of_carry (program.run_observed stream [])

end ReadProgram

namespace Schema

variable {σ : Type} [InputStream σ]

/-- The required questions that reading a value asks a stream, and how each of them ended. -/
def questionsTo (schema : Schema) (type : DataType) (deployment : Option Deployment) (stream : σ) :
    List (Question × Except StreamError Answer) :=
  Observed.history (schema.read type deployment) stream

theorem questionsTo_eq (schema : Schema) (type : DataType) (deployment : Option Deployment)
    (stream : σ) :
    schema.questionsTo type deployment stream =
      (schema.program (schema.allowance stream) type deployment).noted stream :=
  Observed.history_of_carry (ReadProgram.run_observed _ stream [])

end Schema

end ValueBus
