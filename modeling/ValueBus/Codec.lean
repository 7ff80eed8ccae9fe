import ValueBus.Memory.Reader
import ValueBus.Memory.Writer
import ValueBus.Schema.Read
import ValueBus.Value.Write

/-!
# Encoding and decoding

Whole values to bytes and back, through the memory streams.
-/

namespace ValueBus

/-- The bytes that steps write. -/
def WriteStep.encode (steps : List WriteStep) (limits : Limits) :
    Except StreamError (List UInt8) :=
  match runAll steps (MemoryWriter.withLimits limits) with
  | .error error _ => .error error
  | .ok () writer => writer.finish

def encode (value : Value) (deployment : Option Deployment) (limits : Limits) :
    Except Error (List UInt8) :=
  (WriteStep.encode (value.steps deployment) limits).mapError .ofStream

/-- The value of a type that bytes spell, all of them being used. -/
def decode (schema : Schema) (type : DataType) (bytes : List UInt8)
    (deployment : Option Deployment) (limits : Limits) : Except Error Value :=
  match schema.read type deployment (MemoryReader.ofBytes bytes limits) with
  | .error error _ => .error (.ofStream error)
  | .ok value reader => do
      reader.finish.mapError .ofStream
      return value

end ValueBus
