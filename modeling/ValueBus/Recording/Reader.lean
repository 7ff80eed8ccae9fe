import ValueBus.Stream.Input

/-!
# The recording reader

An input stream that answers from a list of tokens and notes the questions that reach it. Leaves,
serials, tags and the question for another item take one token each. A token that cannot answer the
question fails it, and so does the end of the list; a token may also be a failure of its own.
-/

namespace ValueBus

/-- What a token can answer. -/
class Token (τ : Type) where
  /-- The reason of a token that stands for a failure. -/
  failure? : τ → Option String
  leaf? : LeafKind → τ → Option Leaf
  serial? : τ → Option UInt32
  tag? : τ → Option Nat
  more? : τ → Option Bool

/-- The tokens still to come, the number of tokens asked for, and the questions, oldest first. -/
structure RecordingReader (τ : Type) where
  tokens : List τ
  used : Nat := 0
  questions : List Question := []
  error : Option StreamError := none
  deriving Inhabited

namespace RecordingReader

variable {τ : Type} [Token τ]

instance : Latch (RecordingReader τ) where
  error reader := reader.error
  setError newError reader := { reader with error := reader.error <|> some newError }

def note (question : Question) : Action (RecordingReader τ) Unit :=
  modify fun reader => { reader with questions := reader.questions ++ [question] }

/-- Takes the next token and answers from it. -/
def answer {α : Type} (answer? : τ → Option α) : Action (RecordingReader τ) α := do
  let reader ← get
  set { reader with tokens := reader.tokens.tail, used := reader.used + 1 }
  match reader.tokens.head? with
  | none => Latch.raise (.readFailed reader.used (.described "script"))
  | some token =>
      match Token.failure? token with
      | some reason => Latch.raise (.invalidData (.described reason))
      | none =>
          match answer? token with
          | some value => pure value
          | none => Latch.raise (.readFailed reader.used (.described "script"))

/-- Enters a frame; as many items as tokens may follow in a repeating one. -/
def enter (kind : FrameKind) (deployment : Option Deployment) :
    Action (RecordingReader τ) Opening := do
  match kind with
  | .struct =>
      note (.enter .struct deployment)
      return .struct
  | .polymorphic =>
      note (.enter .polymorphic deployment)
      .polymorphic <$> answer Token.serial?
  | .variant =>
      note (.enter .variant deployment)
      .variant <$> answer Token.tag?
  | .sequence =>
      note (.enter .sequence deployment)
      return .sequence (← get).tokens.length
  | .map =>
      note (.enter .map deployment)
      return .map (← get).tokens.length
  | .mapEntry => return .mapEntry

/-- Answers whether another item follows; a question that fails answers no. -/
def hasMore (kind : Repetition) (reader : RecordingReader τ) : Bool × RecordingReader τ :=
  let asked : Action (RecordingReader τ) Bool := do
    Latch.check
    note (.hasMore kind)
    answer Token.more?
  match asked reader with
  | .ok more after => (more, after)
  | .error _ after => (false, after)

instance : InputStream (RecordingReader τ) where
  nesting reader := reader.tokens.length
  leaf kind deployment := do
    Latch.check
    note (.leaf kind deployment)
    answer (Token.leaf? kind)
  enter kind deployment := do
    Latch.check
    enter kind deployment
  leave kind := do
    Latch.check
    if kind = .mapEntry ∨ kind = .variant then pure () else note (.leave kind)
  hasMore := hasMore

end RecordingReader

end ValueBus
