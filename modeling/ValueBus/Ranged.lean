import ValueBus.Leaf

/-!
# Ranged integers

A 32-bit integer between two bounds. The bounds are free: when the lower one is above the upper one
no integer is in range.
-/

namespace ValueBus

/-- The bounds of a ranged integer, both included. -/
structure Range where
  least : Int32
  greatest : Int32
  deriving DecidableEq, Repr

namespace Range

def contains (range : Range) (value : Int32) : Bool :=
  range.least ≤ value && value ≤ range.greatest

/-- Whether a leaf is an integer in range. -/
def admits (range : Range) : Leaf → Bool
  | .number (.int32 value) => range.contains value
  | _ => false

/-- The integer itself, if it is in range. -/
def new? (range : Range) (value : Int32) : Option Int32 :=
  if range.contains value then some value else none

/-- The integer if it is in range, else the integer as the reason of failure. -/
def tryFrom (range : Range) (value : Int32) : Except Int32 Int32 :=
  match range.new? value with
  | some value => .ok value
  | none => .error value

/-- Zero when it is in range, otherwise the lower bound. -/
def defaultValue (range : Range) : Int32 :=
  if range.contains 0 then 0 else range.least

end Range

end ValueBus
