import ValueBus.Error
import ValueBus.Value

/-!
# Variants

A variant holds at most one value, of one alternative of a closed set. The alternatives are known by
index, and by name in errors. Asking for an alternative that is not held fails and changes nothing.
-/

namespace ValueBus

/-- A value of the alternative at an index. -/
structure Alternative where
  index : Nat
  value : Value
  deriving Repr, Inhabited

namespace Alternative

/-- The value, if it is of the alternative asked for. -/
def peek (held : Alternative) (index : Nat) : Option Value :=
  if held.index = index then some held.value else none

/-- The value and the alternative with another one in its place, if it is the alternative asked
for. -/
def poke (held : Alternative) (index : Nat) (value : Value) : Option (Value × Alternative) :=
  if held.index = index then some (held.value, { held with value }) else none

/-- The value, if it is of the alternative asked for, else the alternative unchanged. -/
def unwrap (held : Alternative) (index : Nat) : Except Alternative Value :=
  match held.peek index with
  | some value => .ok value
  | none => .error held

/-- The name of an alternative among the names of its set. -/
def nameIn (names : List String) (index : Nat) : String :=
  names[index]?.getD "<unknown>"

end Alternative

/-- A variant: empty, or holding one alternative. -/
structure Variant where
  slot : Option Alternative := none
  deriving Repr, Inhabited

namespace Variant

def empty : Variant :=
  {}

/-- The variant that holds a value of the alternative at an index. -/
def new (index : Nat) (value : Value) : Variant :=
  ⟨some ⟨index, value⟩⟩

def ofAlternative (held : Alternative) : Variant :=
  ⟨some held⟩

def set (_ : Variant) (index : Nat) (value : Value) : Variant :=
  new index value

def clear (_ : Variant) : Variant :=
  empty

/-- Moves what is held out: the moved variant and the one left behind, which is empty. -/
def take (variant : Variant) : Variant × Variant :=
  (variant, empty)

def hasValue (variant : Variant) : Bool :=
  variant.slot.isSome

def isEmpty (variant : Variant) : Bool :=
  variant.slot.isNone

/-- Whether a value of the alternative at an index is held. -/
def isType (variant : Variant) (index : Nat) : Bool :=
  match variant.slot with
  | some held => held.index = index
  | none => false

/-- The index of the alternative that is held; for an empty variant the number of alternatives. -/
def valueType (names : List String) (variant : Variant) : Nat :=
  match variant.slot with
  | some held => held.index
  | none => names.length

/-- The name of the alternative that is held. -/
def typeName (names : List String) (variant : Variant) : Option String :=
  variant.slot.map fun held => Alternative.nameIn names held.index

/-- The error of asking for the alternative at an index. -/
def mismatch (names : List String) (variant : Variant) (index : Nat) : Error :=
  .typeMismatch (Alternative.nameIn names index) (variant.typeName names)

/-- The value, which must be of the alternative at an index. -/
def get (names : List String) (variant : Variant) (index : Nat) : Except Error Value :=
  match variant.slot.bind (·.peek index) with
  | some value => .ok value
  | none => .error (variant.mismatch names index)

/-- Replaces the value, which must be of the alternative at an index: the value that was held and
the variant afterwards. -/
def exchange (names : List String) (variant : Variant) (index : Nat) (value : Value) :
    Except Error (Value × Variant) :=
  match variant.slot.bind (·.poke index value) with
  | some (held, changed) => .ok (held, ofAlternative changed)
  | none => .error (variant.mismatch names index)

/-- The value if it is of the alternative at an index, else the variant unchanged. -/
def intoValue (variant : Variant) (index : Nat) : Except Variant Value :=
  match variant.slot with
  | some held => (held.unwrap index).mapError ofAlternative
  | none => .error empty

def toValue (variant : Variant) : Value :=
  match variant.slot with
  | some held => .holding held.index held.value
  | none => .vacant

/-- Whether two variants hold equal values of the same alternative, or nothing both. -/
def ieeeEq (left right : Variant) : Bool :=
  left.toValue.ieeeEq right.toValue

end Variant

end ValueBus
