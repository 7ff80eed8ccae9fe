import ValueBus.Number

/-!
# Leaves

The values without members: booleans, numbers, texts and byte buffers. Each goes to a stream in one
call.
-/

namespace ValueBus

inductive LeafKind where
  | bool
  | number (kind : NumberKind)
  | text
  | bytes
  deriving DecidableEq, Repr

/-- A value without members. -/
inductive Leaf where
  | bool (value : Bool)
  | number (value : Number)
  | text (value : String)
  | bytes (value : List UInt8)
  deriving DecidableEq, Repr

namespace Leaf

def kind : Leaf → LeafKind
  | .bool _ => .bool
  | .number value => .number value.kind
  | .text _ => .text
  | .bytes _ => .bytes

/-- The number that a leaf holds, if it is one. -/
def number? : Leaf → Option Number
  | .number value => some value
  | _ => none

/-- The integer that a leaf stands for; 0 for a leaf that is no number. -/
def toInt : Leaf → Int
  | .number value => value.toInt
  | _ => 0

/-- The equality of values: floats by the floating-point comparison, all else as it is. -/
def ieeeEq : Leaf → Leaf → Bool
  | .number left, .number right => left.ieeeEq right
  | left, right => left == right

/-- The total order of leaves: by kind, then by value; texts and buffers lexicographically. -/
def order : Leaf → Leaf → Ordering
  | .bool left, .bool right => compare left right
  | .number left, .number right => left.order right
  | .text left, .text right => compare left right
  | .bytes left, .bytes right => compare left right
  | left, right => compare left.ctorIdx right.ctorIdx

end Leaf

end ValueBus
