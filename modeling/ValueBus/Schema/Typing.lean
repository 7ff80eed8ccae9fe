import ValueBus.DataType

/-!
# Values of a type

`Schema.HasType` says which values belong to a type of a schema. It looks at the shape of a value
alone: how long texts are, how deep values are nested and whether a variant holds something is no
matter of its type.

A map belongs to its type if no key occurs twice; the entries of an ordered map stand in the order
of their keys.
-/

namespace ValueBus

/-- Whether entries may make up a map: keys increase in an ordered one, and differ in any other. -/
def MapOrder.Admits : MapOrder → List (Value × Value) → Prop
  | .sorted, entries =>
      entries.Pairwise fun earlier later => (Value.order earlier.1 later.1).isLT = true
  | .unsorted, entries =>
      entries.Pairwise fun earlier later => Value.sameKey earlier.1 later.1 = false

/-- Which values belong to a type. -/
inductive Schema.HasType (schema : Schema) : DataType → Value → Prop where
  | leaf {value : Leaf} : HasType schema (.leaf value.kind) (.leaf value)
  | enumeration {choices : Enumeration} {value : Leaf} :
      choices.declares value = true → HasType schema (.enumeration choices) (.leaf value)
  | ranged {range : Range} {value : Leaf} :
      range.admits value = true → HasType schema (.ranged range) (.leaf value)
  | boxed {content : DataType} {value : Value} :
      HasType schema content value → HasType schema (.boxed content) value
  | sequence {type : DataType} {items : List Value} :
      (∀ item ∈ items, HasType schema type item) → HasType schema (.sequence type) (.sequence items)
  | map {mapOrder : MapOrder} {key value : DataType} {entries : List (Value × Value)} :
      (∀ entry ∈ entries, HasType schema key entry.1) →
      (∀ entry ∈ entries, HasType schema value entry.2) →
      mapOrder.Admits entries → HasType schema (.map mapOrder key value) (.map entries)
  | tuple {types : List DataType} {members : List Value} :
      types.length = members.length →
      (∀ pair ∈ types.zip members, HasType schema pair.1 pair.2) →
      HasType schema (.tuple types) (.record members)
  | record {name : String} {members : List Value} :
      (schema.fields name).length = members.length →
      (∀ pair ∈ (schema.fields name).zip members, HasType schema pair.1.type pair.2) →
      HasType schema (.declared (.record name)) (.record members)
  | vacant {set : String} : HasType schema (.declared (.variant set)) .vacant
  | holding {set : String} {index : Nat} {alternative : Member} {value : Value} :
      (schema.alternatives set)[index]? = some alternative →
      HasType schema alternative.type value →
      HasType schema (.declared (.variant set)) (.holding index value)

end ValueBus
