import ValueBus.Proofs.MemoryLatch

/-!
# A latched error freezes a stream

Operations may be done to a stream in any order, and go on after one of them has failed. The first
error that is latched freezes the stream: what it holds stays what it was, and whatever can fail
fails with that error.
-/

namespace ValueBus

namespace Action

variable {σ α : Type}

/-- The state after actions that are taken in order, also after one of them has failed. -/
def afterAll (actions : List (Action σ α)) (state : σ) : σ :=
  actions.foldl (fun state action => action.after state) state

theorem afterAll_of_fixed {actions : List (Action σ α)} {state : σ}
    (fixed : ∀ action ∈ actions, action.after state = state) : afterAll actions state = state := by
  induction actions with
  | nil => rfl
  | cons action rest ih =>
      rw [List.forall_mem_cons] at fixed
      simp only [afterAll, List.foldl_cons, fixed.1]
      exact ih fixed.2

end Action

/-- What can be done to an output stream. -/
inductive WriteOperation where
  | call (request : WriteCall)
  | check
  | raise (newError : StreamError)
  | setError (newError : StreamError)
  deriving Repr

namespace WriteOperation

section Performing

variable {σ : Type} [OutputStream σ]

def perform : WriteOperation → Action σ Unit
  | .call request => OutputStream.perform request
  | .check => Latch.check
  | .raise newError => Latch.raise newError
  | .setError newError => modify (Latch.setError newError)

/-- The stream after operations, whether they answered or failed. -/
def performAll (operations : List WriteOperation) (stream : σ) : σ :=
  Action.afterAll (operations.map perform) stream

end Performing

/-- Whether an operation can fail. -/
def isFallible : WriteOperation → Bool
  | .setError _ => false
  | _ => true

variable {σ : Type} [OutputStream σ] [LawfulOutputStream σ]

theorem settles {operation : WriteOperation} (fallible : operation.isFallible = true) :
    (operation.perform : Action σ Unit).Settles := by
  cases operation with
  | call request => exact LawfulOutputStream.settles request
  | check => exact Action.check_settles
  | raise newError => exact Action.raise_settles newError
  | setError newError => cases fallible

theorem refuses {operation : WriteOperation} (fallible : operation.isFallible = true) :
    (operation.perform : Action σ Unit).Refuses := by
  cases operation with
  | call request => exact LawfulOutputStream.refuses request
  | check => exact Action.check_refuses
  | raise newError => exact Action.raise_refuses newError
  | setError newError => cases fallible

end WriteOperation

/-- What can be done to an input stream. -/
inductive ReadOperation where
  | ask (question : Question)
  | check
  | raise (newError : StreamError)
  | setError (newError : StreamError)
  deriving Repr

namespace ReadOperation

section Performing

variable {σ : Type} [InputStream σ]

def perform : ReadOperation → Action σ Answer
  | .ask question => question.ask
  | .check => (fun _ => .done) <$> Latch.check
  | .raise newError => Latch.raise newError
  | .setError newError => (fun _ => .done) <$> modify (Latch.setError newError)

/-- The stream after operations, whether they answered or failed. -/
def performAll (operations : List ReadOperation) (stream : σ) : σ :=
  Action.afterAll (operations.map perform) stream

end Performing

/-- Whether an operation can fail. -/
def isFallible : ReadOperation → Bool
  | .ask (.hasMore _) | .setError _ => false
  | _ => true

variable {σ : Type} [InputStream σ] [LawfulInputStream σ]

theorem settles {operation : ReadOperation} (fallible : operation.isFallible = true) :
    (operation.perform : Action σ Answer).Settles := by
  cases operation with
  | ask question =>
      cases question with
      | leaf kind deployment => exact (LawfulInputStream.leaf_settles kind deployment).map _
      | enter kind deployment => exact (LawfulInputStream.enter_settles kind deployment).map _
      | leave kind => exact (LawfulInputStream.leave_settles kind).map _
      | hasMore kind => cases fallible
  | check => exact Action.check_settles.map _
  | raise newError => exact Action.raise_settles newError
  | setError newError => cases fallible

theorem refuses {operation : ReadOperation} (fallible : operation.isFallible = true) :
    (operation.perform : Action σ Answer).Refuses := by
  cases operation with
  | ask question =>
      cases question with
      | leaf kind deployment => exact (LawfulInputStream.leaf_refuses kind deployment).map _
      | enter kind deployment => exact (LawfulInputStream.enter_refuses kind deployment).map _
      | leave kind => exact (LawfulInputStream.leave_refuses kind).map _
      | hasMore kind => cases fallible
  | check => exact Action.check_refuses.map _
  | raise newError => exact Action.raise_refuses newError
  | setError newError => cases fallible

end ReadOperation

namespace MemoryWriter

variable {writer : MemoryWriter} {first : StreamError}

theorem after_of_latched (operation : WriteOperation) (latched : writer.error = some first) :
    operation.perform.after writer = writer := by
  cases fallible : operation.isFallible with
  | true => exact Action.after_of_error (WriteOperation.refuses fallible latched)
  | false =>
      cases operation with
      | setError newError => exact setError_of_latched newError latched
      | call request => cases fallible
      | check => cases fallible
      | raise newError => cases fallible

/-- An operation that latches an error leaves the bytes alone. -/
theorem bytes_of_latching (operation : WriteOperation) (unlatched : writer.error = none)
    (latched : (operation.perform.after writer).error = some first) :
    (operation.perform.after writer).bytes = writer.bytes := by
  cases operation with
  | call request =>
      have settles : ((WriteOperation.call request).perform : Action MemoryWriter Unit).Settles :=
        WriteOperation.settles rfl
      have failed := settles.eq_error unlatched latched
      have checked := check_checks.andThen fun _ => takeCall_checksFirst request
      exact congrArg WriteCursor.bytes (checked.keeps failed)
  | check => exact congrArg WriteCursor.bytes (check_checks.keeps writer)
  | raise newError => exact congrArg WriteCursor.bytes ((raise_checks newError).keeps writer)
  | setError newError => rfl

/-- The state of a writer that an error has frozen: its bytes are given, and all it does is fail. -/
structure Frozen (first : StreamError) (bytes : List UInt8) (writer : MemoryWriter) : Prop where
  error : writer.error = some first
  bytes_eq : writer.bytes = bytes
  finish_eq : writer.finish = .error first
  fails : ∀ operation : WriteOperation, operation.isFallible = true →
    operation.perform writer = .error first writer

theorem frozen_of_latched (latched : writer.error = some first) :
    writer.Frozen first writer.bytes where
  error := latched
  bytes_eq := rfl
  finish_eq := by simp only [finish, latched]
  fails _ fallible := WriteOperation.refuses fallible latched

theorem performAll_of_latched (operations : List WriteOperation)
    (latched : writer.error = some first) :
    WriteOperation.performAll operations writer = writer := by
  apply Action.afterAll_of_fixed
  intro action performed
  rcases List.mem_map.1 performed with ⟨operation, _, rfl⟩
  exact after_of_latched operation latched

end MemoryWriter

namespace MemoryReader

variable {reader : MemoryReader} {first : StreamError}

theorem after_of_latched (operation : ReadOperation) (latched : reader.error = some first) :
    operation.perform.after reader = reader := by
  cases fallible : operation.isFallible with
  | true => exact Action.after_of_error (ReadOperation.refuses fallible latched)
  | false =>
      cases operation with
      | ask question =>
          cases question with
          | hasMore kind =>
              have asked : InputStream.hasMore kind reader = (false, reader) :=
                hasMore_of_latched kind latched
              have answered : (ReadOperation.ask (.hasMore kind)).perform reader =
                  .ok (.more (InputStream.hasMore kind reader).1)
                    (InputStream.hasMore kind reader).2 := rfl
              rw [Action.after_of_ok answered, asked]
          | leaf kind deployment => cases fallible
          | enter kind deployment => cases fallible
          | leave kind => cases fallible
      | setError newError => exact setError_of_latched newError latched
      | check => cases fallible
      | raise newError => cases fallible

/-- The state of a reader that an error has frozen: what is left of the bytes and the open frames
are given, and all it does is fail and announce no items. -/
structure Frozen (first : StreamError) (remaining : Nat) (frames : List ReadFrame)
    (reader : MemoryReader) : Prop where
  error : reader.error = some first
  remaining_eq : reader.remaining = remaining
  frames_eq : reader.frames = frames
  finish_eq : reader.finish = .error first
  hasMore_eq : ∀ kind : Repetition, InputStream.hasMore kind reader = (false, reader)
  fails : ∀ operation : ReadOperation, operation.isFallible = true →
    operation.perform reader = .error first reader

theorem frozen_of_latched (latched : reader.error = some first) :
    reader.Frozen first reader.remaining reader.frames where
  error := latched
  remaining_eq := rfl
  frames_eq := rfl
  finish_eq := by simp only [finish, latched]
  hasMore_eq kind := hasMore_of_latched kind latched
  fails _ fallible := ReadOperation.refuses fallible latched

theorem performAll_of_latched (operations : List ReadOperation)
    (latched : reader.error = some first) :
    ReadOperation.performAll operations reader = reader := by
  apply Action.afterAll_of_fixed
  intro action performed
  rcases List.mem_map.1 performed with ⟨operation, _, rfl⟩
  exact after_of_latched operation latched

end MemoryReader

/-- The operation that latches the first error of a memory stream has failed with that error if it
can fail at all, and put nothing. Whatever is done later finds the stream frozen. -/
theorem memory_streams_freeze (limits : Limits) :
    (∀ (earlier : List WriteOperation) (operation : WriteOperation) (later : List WriteOperation)
        (first : StreamError) (before after : MemoryWriter),
      WriteOperation.performAll earlier (MemoryWriter.withLimits limits) = before →
      operation.perform.after before = after →
      before.error = none → after.error = some first →
        (operation.isFallible = true → operation.perform before = .error first after) ∧
          (WriteOperation.performAll later after).Frozen first before.bytes) ∧
    (∀ (bytes : List UInt8) (earlier : List ReadOperation) (operation : ReadOperation)
        (later : List ReadOperation) (first : StreamError) (before after : MemoryReader),
      ReadOperation.performAll earlier (MemoryReader.ofBytes bytes limits) = before →
      operation.perform.after before = after →
      before.error = none → after.error = some first →
        (operation.isFallible = true → operation.perform before = .error first after) ∧
          (ReadOperation.performAll later after).Frozen first after.remaining after.frames) := by
  constructor
  · intro earlier operation later first before after _ performed unlatched latched
    subst performed
    constructor
    · intro fallible
      have settles : (operation.perform : Action MemoryWriter Unit).Settles :=
        WriteOperation.settles fallible
      exact settles.eq_error unlatched latched
    · rw [MemoryWriter.performAll_of_latched later latched,
        ← MemoryWriter.bytes_of_latching operation unlatched latched]
      exact MemoryWriter.frozen_of_latched latched
  · intro bytes earlier operation later first before after _ performed unlatched latched
    subst performed
    constructor
    · intro fallible
      have settles : (operation.perform : Action MemoryReader Answer).Settles :=
        ReadOperation.settles fallible
      exact settles.eq_error unlatched latched
    · rw [MemoryReader.performAll_of_latched later latched]
      exact MemoryReader.frozen_of_latched latched

/-- A struct that is left as a sequence, and a boolean that is spelled 7. -/
theorem memory_streams_freeze_misused :
    (WriteOperation.performAll
        [.call (.leaf (.bool true) none), .call (.enter .struct none), .call (.leave .sequence),
          .call (.leaf (.bool true) none), .setError .emptyVariant]
        (MemoryWriter.withLimits {})).Frozen
      (.unbalanced (.endedWriting .sequence (some .struct))) [1, 0, 0, 0, 0, 0, 0, 0] ∧
    (ReadOperation.performAll
        [.ask (.leaf .bool none), .ask (.leaf .bool none), .ask (.hasMore .sequence), .check]
        (MemoryReader.ofBytes [1, 7, 0] {})).Frozen
      (.invalidData (.booleanByte 7)) 1 [] := by
  constructor
  · exact ((memory_streams_freeze {}).1
      [.call (.leaf (.bool true) none), .call (.enter .struct none)] (.call (.leave .sequence))
      [.call (.leaf (.bool true) none), .setError .emptyVariant] _ _ _ rfl rfl rfl rfl).2
  · exact ((memory_streams_freeze {}).2 [1, 7, 0] [.ask (.leaf .bool none)]
      (.ask (.leaf .bool none)) [.ask (.hasMore .sequence), .check] _ _ _ rfl rfl rfl rfl).2

end ValueBus
