/-!
# Stream limits

The bounds that both memory streams enforce, their defaults, and the check that none of them is
zero. A reader under some limits accepts what a writer under the same limits produced.
-/

namespace ValueBus

/-- Bounds on open frames, on the bytes of a string or byte buffer, and on the items of a sequence
or map. -/
structure Limits where
  maxDepth : Nat := 64
  maxStringLength : Nat := 16 * 1024 * 1024
  maxSequenceLength : Nat := 1024 * 1024
  deriving DecidableEq, Repr, Inhabited

/-- The three bounds, by name. -/
inductive LimitField where
  | depth
  | stringLength
  | sequenceLength
  deriving DecidableEq, Repr

/-- The key of a bound in a configuration document. -/
def LimitField.key : LimitField → String
  | .depth => "max_depth"
  | .stringLength => "max_string_length"
  | .sequenceLength => "max_sequence_length"

/-- Why a configuration was refused. -/
inductive ConfigFault where
  /-- A bound that would make every read fail. -/
  | zeroLimit (field : LimitField)
  /-- The document does not describe limits. -/
  | malformed
  /-- The document could not be read as a text. -/
  | unreadable (path cause : String)
  /-- A reason given in words. -/
  | described (reason : String)
  deriving DecidableEq, Repr

def ConfigFault.message : ConfigFault → String
  | .zeroLimit field => s!"{field.key} must be > 0"
  | .malformed => "Failed to parse YAML"
  | .unreadable path cause => s!"Failed to read {path}: {cause}"
  | .described reason => reason

namespace Limits

def get (limits : Limits) : LimitField → Nat
  | .depth => limits.maxDepth
  | .stringLength => limits.maxStringLength
  | .sequenceLength => limits.maxSequenceLength

def set (limits : Limits) : LimitField → Nat → Limits
  | .depth, bound => { limits with maxDepth := bound }
  | .stringLength, bound => { limits with maxStringLength := bound }
  | .sequenceLength, bound => { limits with maxSequenceLength := bound }

/-- The bounds in the order in which they are checked. -/
def fields : List LimitField :=
  [.depth, .stringLength, .sequenceLength]

/-- Refuses limits that would make every read fail; the first zero bound is reported. -/
def validate (limits : Limits) : Except ConfigFault Unit :=
  match fields.find? (limits.get · = 0) with
  | some field => .error (.zeroLimit field)
  | none => .ok ()

end Limits

end ValueBus
