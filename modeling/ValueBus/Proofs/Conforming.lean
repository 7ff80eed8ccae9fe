import ValueBus.Proofs.Latching
import ValueBus.Recording.Reader
import ValueBus.Recording.Writer

/-!
# Conforming streams

A stream need not treat every bracket: those of a map entry and the end of a variant may be left to
their default, which is to check the latch. A conforming stream keeps to the latch and leaves them
all to the default. The recording streams are conforming, whatever they are told to fail at.
-/

namespace ValueBus

open ValueBus.Action (Settled Settles Refuses)

/-- Whether a question reaches a stream that leaves the optional brackets to their default. -/
def Question.isRequired : Question → Bool
  | .enter .mapEntry _ | .leave .mapEntry | .leave .variant => false
  | _ => true

/-- An output stream that leaves the optional brackets to their default. -/
class ConformingOutputStream (σ : Type) [OutputStream σ] : Prop extends LawfulOutputStream σ where
  perform_of_optional : ∀ call : WriteCall, call.isRequired = false →
    (OutputStream.perform call : Action σ Unit) = Latch.check

/-- An input stream that leaves the optional brackets to their default. -/
class ConformingInputStream (σ : Type) [InputStream σ] : Prop extends LawfulInputStream σ where
  enter_of_optional : ∀ (kind : FrameKind) (deployment : Option Deployment),
    (Question.enter kind deployment).isRequired = false →
      (InputStream.enter kind deployment : Action σ Opening) =
        (fun _ => .mapEntry) <$> Latch.check
  leave_of_optional : ∀ kind : FrameKind, (Question.leave kind).isRequired = false →
    (InputStream.leave kind : Action σ Unit) = Latch.check

namespace RecordingWriter

instance : LawfulLatch RecordingWriter where
  error_setError _ _ := Option.orElse_eq_or

theorem note_settles (request : WriteCall) : (note request).Settles := by
  intro before unlatched
  have noted : note request before =
      (if before.failAt = some before.calls.length then
        Latch.raise (.writeFailed before.calls.length (.described "injected")) else pure ())
          { before with calls := before.calls ++ [request] } := rfl
  rw [noted]
  split
  · exact Action.raise_settles _ unlatched
  · exact unlatched

instance : ConformingOutputStream RecordingWriter where
  settles request := by
    apply Settles.of_check
    split
    · exact note_settles request
    · exact Settles.pure ()
  refuses request := Action.check_refuses.bind _
  perform_of_optional request optional := by
    simp only [OutputStream.perform, optional, Bool.false_eq_true, if_false]
    exact bind_pure Latch.check

end RecordingWriter

namespace RecordingReader

variable {τ α : Type}

instance : LawfulLatch (RecordingReader τ) where
  error_setError _ _ := Option.orElse_eq_or

theorem note_settles (question : Question) :
    (note question : Action (RecordingReader τ) Unit).Settles :=
  fun _ unlatched => unlatched

variable [Token τ]

/-- What a reader answers from its next token. -/
def answerFrom (answer? : τ → Option α) (used : Nat) :
    Option τ → Action (RecordingReader τ) α
  | none => Latch.raise (.readFailed used (.described "script"))
  | some token =>
      match Token.failure? token with
      | some reason => Latch.raise (.invalidData (.described reason))
      | none =>
          match answer? token with
          | some value => pure value
          | none => Latch.raise (.readFailed used (.described "script"))

theorem answer_apply (answer? : τ → Option α) (reader : RecordingReader τ) :
    answer answer? reader =
      answerFrom answer? reader.used reader.tokens.head?
        { reader with tokens := reader.tokens.tail, used := reader.used + 1 } :=
  rfl

theorem answerFrom_settles (answer? : τ → Option α) (used : Nat) (token : Option τ) :
    (answerFrom answer? used token).Settles := by
  unfold answerFrom
  split
  · exact Action.raise_settles _
  · split
    · exact Action.raise_settles _
    · split
      · exact Settles.pure _
      · exact Action.raise_settles _

theorem answer_settles (answer? : τ → Option α) : (answer answer?).Settles := by
  intro before unlatched
  rw [answer_apply]
  exact answerFrom_settles answer? before.used before.tokens.head? unlatched

theorem enter_settles (kind : FrameKind) (deployment : Option Deployment) :
    (enter kind deployment : Action (RecordingReader τ) Opening).Settles := by
  cases kind with
  | struct => exact (note_settles _).bind fun _ => Settles.pure _
  | polymorphic => exact (note_settles _).bind fun _ => (answer_settles _).map _
  | variant => exact (note_settles _).bind fun _ => (answer_settles _).map _
  | sequence =>
      exact (note_settles _).bind fun _ => Action.get_settles.bind fun _ => Settles.pure _
  | map => exact (note_settles _).bind fun _ => Action.get_settles.bind fun _ => Settles.pure _
  | mapEntry => exact Settles.pure _

/-- The question for another item, as an action that may fail. -/
def askMore (kind : Repetition) : Action (RecordingReader τ) Bool := do
  Latch.check
  note (.hasMore kind)
  answer Token.more?

theorem hasMore_of_ok {kind : Repetition} {reader after : RecordingReader τ} {more : Bool}
    (asked : askMore kind reader = .ok more after) : hasMore kind reader = (more, after) := by
  unfold askMore at asked
  simp only [hasMore, asked]

theorem hasMore_of_error {kind : Repetition} {reader after : RecordingReader τ}
    {fault : StreamError} (asked : askMore kind reader = .error fault after) :
    hasMore kind reader = (false, after) := by
  unfold askMore at asked
  simp only [hasMore, asked]

theorem askMore_settles (kind : Repetition) :
    (askMore kind : Action (RecordingReader τ) Bool).Settles :=
  Settles.of_check ((note_settles _).bind fun _ => answer_settles _)

instance : ConformingInputStream (RecordingReader τ) where
  leaf_settles kind deployment :=
    Settles.of_check ((note_settles _).bind fun _ => answer_settles _)
  leaf_refuses kind deployment := Action.check_refuses.bind _
  enter_settles kind deployment := (enter_settles kind deployment).of_check
  enter_refuses kind deployment := Action.check_refuses.bind _
  leave_settles kind := by
    apply Settles.of_check
    split
    · exact Settles.pure ()
    · exact note_settles _
  leave_refuses kind := Action.check_refuses.bind _
  hasMore_of_latched kind reader first latched :=
    hasMore_of_error (Action.check_refuses.bind _ latched)
  unlatched_of_hasMore kind reader unlatched more := by
    have settled := askMore_settles kind unlatched
    cases asked : askMore kind reader with
    | ok answer after =>
        have askedMore : InputStream.hasMore kind reader = (answer, after) := hasMore_of_ok asked
        rw [askedMore]
        exact settled.unlatched_of_ok asked
    | error fault after =>
        have askedMore : InputStream.hasMore kind reader = (false, after) :=
          hasMore_of_error asked
        rw [askedMore] at more
        cases more
  enter_of_optional kind deployment optional := by
    cases kind with
    | mapEntry => exact (map_eq_pure_bind _ Latch.check).symm
    | _ => cases optional
  leave_of_optional kind optional := by
    cases kind with
    | mapEntry => exact bind_pure Latch.check
    | variant => exact bind_pure Latch.check
    | _ => cases optional

end RecordingReader

/-- Answers may serve as tokens: one that does not fit the question makes it fail. -/
instance : Token Answer where
  failure? _ := none
  leaf?
    | kind, .leaf value => if value.kind = kind then some value else none
    | _, _ => none
  serial?
    | .opening (.polymorphic serial) => some serial
    | _ => none
  tag?
    | .opening (.variant tag) => some tag
    | _ => none
  more?
    | .more more => some more
    | _ => none

end ValueBus
