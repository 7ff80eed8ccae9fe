import ValueBus.Stream.Output

/-!
# The recording writer

An output stream without a wire format: it notes the calls that reach it, and can be told to fail at
one of them. The brackets of a map entry and the end of a variant do not reach it; they only check
the latch.
-/

namespace ValueBus

/-- Whether a call reaches a binding that leaves the optional brackets to their default, which is
to check the latch. -/
def WriteCall.isRequired : WriteCall → Bool
  | .enter .mapEntry _ | .leave .mapEntry | .leave .variant => false
  | _ => true

/-- The calls noted so far, oldest first, and the position of the call that fails. -/
structure RecordingWriter where
  calls : List WriteCall := []
  failAt : Option Nat := none
  error : Option StreamError := none
  deriving Repr, Inhabited

namespace RecordingWriter

instance : Latch RecordingWriter where
  error writer := writer.error
  setError newError writer := { writer with error := writer.error <|> some newError }

/-- Notes a call, and fails if it is the one that was chosen to fail. -/
def note (request : WriteCall) : Action RecordingWriter Unit := do
  let writer ← get
  let position := writer.calls.length
  set { writer with calls := writer.calls ++ [request] }
  if writer.failAt = some position then
    Latch.raise (.writeFailed position (.described "injected"))

instance : OutputStream RecordingWriter where
  perform request := do
    Latch.check
    if request.isRequired then note request

end RecordingWriter

end ValueBus
