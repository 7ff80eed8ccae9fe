import ValueBus.Bytes.LittleEndian
import ValueBus.Deployment
import ValueBus.Error

/-!
# Length fields

Strings, byte buffers, sequences and maps start with a length field. It is four bytes wide unless
the deployment sets its width to 1, 2 or 4; any other width is refused.
-/

namespace ValueBus

inductive LengthWidth where
  | one
  | two
  | four
  deriving DecidableEq, Repr

namespace LengthWidth

/-- The width in bytes, which is also the alignment of the field. -/
def size : LengthWidth → Nat
  | .one => 1
  | .two => 2
  | .four => 4

/-- The greatest length that fits. -/
def greatest (width : LengthWidth) : Nat :=
  LittleEndian.span width.size - 1

/-- The width that a deployment selects; only an integer hint counts. -/
def ofDeployment (deployment : Option Deployment) : Except DataFault LengthWidth :=
  match deployment.bind (·.integerHint? Deployment.lengthWidthHint) with
  | none => .ok .four
  | some width =>
      if width = 1 then .ok .one
      else if width = 2 then .ok .two
      else if width = 4 then .ok .four
      else .error (.unsupportedLengthWidth width.toInt)

end LengthWidth

end ValueBus
