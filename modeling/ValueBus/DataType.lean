import ValueBus.Enumeration
import ValueBus.Ranged
import ValueBus.Value.Entries

/-!
# Types and schemas

A `DataType` describes the values that a reader expects. Records and sets of alternatives are
declared in a `Schema` and referred to by name, so a declaration may refer to itself.
-/

namespace ValueBus

/-- A reference to a declaration of a schema. -/
inductive Declared where
  | record (name : String)
  /-- A variant over a declared set of alternatives. -/
  | variant (set : String)
  deriving DecidableEq, Repr

/-- A type of values. -/
inductive DataType where
  | leaf (kind : LeafKind)
  | enumeration (enumeration : Enumeration)
  | ranged (range : Range)
  /-- A value behind a reference, written as the value itself. -/
  | boxed (content : DataType)
  | sequence (item : DataType)
  | map (mapOrder : MapOrder) (key value : DataType)
  | tuple (items : List DataType)
  | declared (name : Declared)
  deriving Repr, Inhabited

abbrev DataType.number (kind : NumberKind) : DataType :=
  .leaf (.number kind)

/-- A field of a record, or an alternative of a variant. -/
structure Member where
  name : String
  type : DataType
  deriving Repr, Inhabited

/-- The declarations that types refer to. -/
structure Schema where
  records : List (String × List Member) := []
  variants : List (String × List Member) := []
  deriving Repr, Inhabited

namespace Schema

/-- The fields of a record, in order; a name that is not declared has none. -/
def fields (schema : Schema) (record : String) : List Member :=
  (schema.records.lookup record).getD []

/-- The alternatives of a variant, by index; a name that is not declared has none. -/
def alternatives (schema : Schema) (set : String) : List Member :=
  (schema.variants.lookup set).getD []

end Schema

end ValueBus
