import ValueBus.Leaf

/-!
# Values

The values that travel over a stream. A value knows its own form and not its type: an enumerator is
the number behind it, a ranged integer is a number, records and tuples are lists of members. Whether
a value belongs to a type is said by `Schema.HasType`.

The entries of a map stand in the order in which they are written.
-/

namespace ValueBus

/-- A value of the data model. -/
inductive Value where
  | leaf (value : Leaf)
  | sequence (items : List Value)
  | map (entries : List (Value × Value))
  /-- A record or a tuple: its members in order. -/
  | record (members : List Value)
  /-- A variant that holds nothing. -/
  | vacant
  /-- A variant that holds a value of the alternative at `index`. -/
  | holding (index : Nat) (value : Value)
  deriving Repr, Inhabited

namespace Value

def number (value : Number) : Value :=
  .leaf (.number value)

def text (value : String) : Value :=
  .leaf (.text value)

mutual

/-- The total order of values: leaves by their order, composites lexicographically. -/
def order : Value → Value → Ordering
  | .leaf left, .leaf right => left.order right
  | .sequence left, .sequence right => orderAll left right
  | .map left, .map right => orderEntries left right
  | .record left, .record right => orderAll left right
  | .vacant, .vacant => .eq
  | .holding index left, .holding other right => (compare index other).then (order left right)
  | left, right => compare left.ctorIdx right.ctorIdx

def orderAll : List Value → List Value → Ordering
  | [], [] => .eq
  | [], _ :: _ => .lt
  | _ :: _, [] => .gt
  | left :: lefts, right :: rights => (order left right).then (orderAll lefts rights)

def orderEntries : List (Value × Value) → List (Value × Value) → Ordering
  | [], [] => .eq
  | [], _ :: _ => .lt
  | _ :: _, [] => .gt
  | (key, value) :: lefts, (otherKey, otherValue) :: rights =>
      ((order key otherKey).then (order value otherValue)).then (orderEntries lefts rights)

end

mutual

/-- The equality of values, under which floats are compared as floats and maps as finite maps. -/
def ieeeEq : Value → Value → Bool
  | .leaf left, .leaf right => left.ieeeEq right
  | .sequence left, .sequence right => ieeeEqAll left right
  | .map left, .map right => left.length == right.length && ieeeEqEntries left right
  | .record left, .record right => ieeeEqAll left right
  | .vacant, .vacant => true
  | .holding index left, .holding other right => index == other && ieeeEq left right
  | _, _ => false

def ieeeEqAll : List Value → List Value → Bool
  | [], [] => true
  | left :: lefts, right :: rights => ieeeEq left right && ieeeEqAll lefts rights
  | _, _ => false

/-- Whether every entry on the left has an entry with the same key and an equal value on the
right. -/
def ieeeEqEntries : List (Value × Value) → List (Value × Value) → Bool
  | [], _ => true
  | (key, value) :: lefts, rights =>
      (match rights.find? fun entry => (order key entry.1).isEq with
        | some (_, other) => ieeeEq value other
        | none => false) && ieeeEqEntries lefts rights

end

end Value

end ValueBus
