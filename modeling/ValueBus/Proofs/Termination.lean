import ValueBus.Codec
import ValueBus.Proofs.Allowance
import ValueBus.Proofs.Moments

/-!
# Decoding ends within the limits

A type may refer to itself without end, and the bytes that announce its values may be anything. All
the same, decoding comes to a value or an error: the frames that are open bound how deep it goes,
and what each of them announced bounds how often it repeats. Any allowance above the depth limit
leads to the same end, and no computation on the way leaves its range.

A variant is entered at most once more along a chain of calls than frames may be open. That last
time fails. It fails with the depth limit if there is a byte left for its index.
-/

namespace ValueBus

/-- Decodes in machine arithmetic, where at most `allowance` declared types may be entered inside
one another. Nothing comes of it if a computation leaves its range. -/
def decodeChecked (schema : Schema) (allowance : Nat) (type : DataType) (bytes : List UInt8)
    (deployment : Option Deployment) (limits : Limits) : Option (Except Error Value) :=
  match (schema.program allowance type deployment).runChecked.run (.ofBytes bytes limits) with
  | .error error _ => some (.error (.ofStream error))
  | .ok none _ => none
  | .ok (some value) reader => some do
      reader.finish.mapError .ofStream
      return value

/-- How the decoding of some bytes ends, and what holds on the way. -/
structure DecodesWithin (schema : Schema) (type : DataType) (bytes : List UInt8)
    (deployment : Option Deployment) (limits : Limits) : Prop where
  /-- Every allowance above the depth limit leads to the same value or error, and no computation
  leaves its range. -/
  ends : ∀ allowance, limits.maxDepth < allowance →
    decodeChecked schema allowance type bytes deployment limits =
      some (decode schema type bytes deployment limits)
  /-- It is never an allowance that runs out. -/
  genuine : ∀ fault, decode schema type bytes deployment limits = .error (.serialization fault) →
    ¬ fault.Exhausted
  /-- Before every call the bounds hold and the rest of the calls comes to the same result, whatever
  the allowance. -/
  within : ∀ allowance moment,
    (Moment.mk (schema.program allowance type deployment) (.ofBytes bytes limits) []).Reaches
      moment →
    (schema.program allowance type deployment).run (MemoryReader.ofBytes bytes limits) =
        moment.rest.run moment.reader ∧
      moment.Within limits
  /-- The bound on the frames holds after the last call too, also if it fails. -/
  left : (Action.after (schema.read type deployment)
    (MemoryReader.ofBytes bytes limits)).frames.length ≤ limits.maxDepth

section

variable {schema : Schema} {type : DataType} {bytes : List UInt8} {limits : Limits}

theorem Error.eq_of_ofStream {found fault : StreamError}
    (reported : Error.ofStream found = .serialization fault) : found = fault := by
  unfold Error.ofStream at reported
  split at reported
  · cases reported
  · exact Error.serialization.inj reported

theorem ready_ofBytes (addressable : bytes.length < Machine.memorySize) (limits : Limits) :
    Ready limits [] (.ofBytes bytes limits) :=
  ⟨.ofBytes addressable limits, rfl, rfl⟩

theorem decodeChecked_eq (addressable : bytes.length < Machine.memorySize)
    (deployment : Option Deployment) {allowance : Nat} (enough : limits.maxDepth < allowance) :
    decodeChecked schema allowance type bytes deployment limits =
      some (decode schema type bytes deployment limits) := by
  have ready := ready_ofBytes addressable limits
  have coincide := schema.coincide_program type deployment enough
    (schema.depth_lt_allowance (.ofBytes bytes limits))
  have checked := (schema.program allowance type deployment).runChecked_eq ready.sane
  have same : (schema.program allowance type deployment).run (MemoryReader.ofBytes bytes limits) =
      schema.read type deployment (MemoryReader.ofBytes bytes limits) := coincide.run_eq ready
  unfold decodeChecked decode
  rw [checked]
  cases result : schema.read type deployment (MemoryReader.ofBytes bytes limits) with
  | ok value after => rw [Checked.run_lift_of_ok (same.trans result)]
  | error fault after => rw [Checked.run_lift_of_error (same.trans result)]

/-- What is left to fail after the value was read is about the bytes behind it. -/
theorem genuine_of_decode (addressable : bytes.length < Machine.memorySize)
    (deployment : Option Deployment) {fault : StreamError}
    (failed : decode schema type bytes deployment limits = .error (.serialization fault)) :
    ¬ fault.Exhausted := by
  have ready := ready_ofBytes addressable limits
  have coincide := schema.coincide_read type deployment (.ofBytes bytes limits)
  unfold decode at failed
  cases result : schema.read type deployment (MemoryReader.ofBytes bytes limits) with
  | ok value after =>
      rcases coincide.answers ready result with ⟨outer, readyAfter, rfl⟩
      rw [result] at failed
      simp only [MemoryReader.finish, readyAfter.unlatched, readyAfter.frames_eq] at failed
      split_ifs at failed
      · cases failed
      · cases failed
        exact id
  | error found after =>
      rw [result] at failed
      cases Error.eq_of_ofStream (Except.error.inj failed)
      exact (coincide.fails ready result).2

theorem frames_after_read_le (addressable : bytes.length < Machine.memorySize)
    (deployment : Option Deployment) :
    (Action.after (schema.read type deployment)
      (MemoryReader.ofBytes bytes limits)).frames.length ≤ limits.maxDepth := by
  have ready := ready_ofBytes addressable limits
  have coincide := schema.coincide_read type deployment (.ofBytes bytes limits)
  cases result : schema.read type deployment (MemoryReader.ofBytes bytes limits) with
  | ok value after =>
      rcases coincide.answers ready result with ⟨_, readyAfter, _⟩
      rw [Action.after_of_ok result]
      exact readyAfter.sane.shallow
  | error fault after =>
      rw [Action.after_of_error result]
      exact (coincide.fails ready result).1.shallow

end

/-- Decoding ends with a value or an error within the limits, for every type and any bytes that fit
into memory. -/
theorem decode_ends_within_limits (schema : Schema) (type : DataType) (bytes : List UInt8)
    (deployment : Option Deployment) (limits : Limits)
    (addressable : bytes.length < Machine.memorySize) :
    DecodesWithin schema type bytes deployment limits where
  ends _ enough := decodeChecked_eq addressable deployment enough
  genuine _ failed := genuine_of_decode addressable deployment failed
  within allowance moment reaches := by
    have careful := schema.program_careful allowance type deployment
    have consistent := (Moment.Consistent.start addressable careful).reaches reaches
    exact ⟨reaches.run_eq, consistent.within⟩
  left := frames_after_read_le addressable deployment

/-- A variant that may hold itself behind a reference, alone or in a tuple, and in a sequence or a
map. -/
def Schema.nested : Schema :=
  let self : DataType := .declared (.variant "Nested")
  { variants := [("Nested",
      [⟨"number", .number .int32⟩, ⟨"text", .leaf .text⟩, ⟨"items", .sequence self⟩,
        ⟨"members", .map .sorted (.leaf .text) self⟩, ⟨"content", .boxed self⟩,
        ⟨"wrapped", .boxed (.tuple [self])⟩])] }

theorem decode_ends_within_limits_nested :
    ([4, 4, 4] : List UInt8).length < Machine.memorySize ∧
      DecodesWithin .nested (.declared (.variant "Nested")) [4, 4, 4] none { maxDepth := 2 } ∧
      decode .nested (.declared (.variant "Nested")) [4, 4, 4] none { maxDepth := 2 } =
        .error (.serialization (.limitExceeded .depth 2 3)) :=
  ⟨by decide, decode_ends_within_limits _ _ _ _ _ (by decide), rfl⟩

/-- Where the bytes end before the index of the variant that would be one too deep, it is their end
that is reported and not the depth limit. -/
theorem last_entry_fails_at_end :
    decode .nested (.declared (.variant "Nested")) [4] none { maxDepth := 1 } =
        .error (.serialization (.readFailed 1 .endOfBuffer)) ∧
      ¬ ∀ (moment : Moment Value) deployment next,
        (Moment.mk (Schema.nested.program 2 (.declared (.variant "Nested")) none)
          (.ofBytes [4] { maxDepth := 1 }) []).Reaches moment →
        moment.rest = .enter .variant deployment next → moment.entries = 1 + 1 →
        ∃ after, InputStream.enter .variant deployment moment.reader =
          .error (.limitExceeded .depth 1 2) after := by
  refine ⟨rfl, ?_⟩
  intro holds
  have entered : InputStream.enter .variant none (MemoryReader.ofBytes [4] { maxDepth := 1 }) =
      .ok (.variant 4) ⟨⟨[4], 1⟩, [.plain .variant], { maxDepth := 1 }, none⟩ := rfl
  -- The one byte is the index of the outer variant, so none is left for that of the inner one.
  rcases holds _ _ _ (.single (.enter entered)) rfl rfl with ⟨after, failed⟩
  cases failed

end ValueBus
