import ValueBus.DataType

/-!
# Signatures

A type describes itself by a list of calls, one for each scalar and one for each bracket, and a
signature is what those calls print: a letter for each leaf, `a` and the item for a sequence, `a{`,
key, value and `}` for a map, parentheses around the fields of a struct, and `(yv)` for a variant
whatever its alternatives are.

A record that contains itself other than through a variant has no finite description.
-/

namespace ValueBus

/-- A call that describes a part of a type. -/
inductive TypeCall where
  | leaf (kind : LeafKind)
  | variant
  | enterSequence
  | leaveSequence
  | enterMap
  | leaveMap
  | enterStruct
  | leaveStruct
  deriving DecidableEq, Repr

/-- The letter of a number kind; both floats share theirs, as do the two kinds of one byte. -/
def NumberKind.letter : NumberKind → String
  | .int8 | .uint8 => "y"
  | .int16 => "n"
  | .int32 => "i"
  | .int64 => "x"
  | .uint16 => "q"
  | .uint32 => "u"
  | .uint64 => "t"
  | .float32 | .float64 => "d"

/-- The signature of a leaf; a byte buffer has that of a sequence of bytes. -/
def LeafKind.signature : LeafKind → String
  | .bool => "b"
  | .number kind => kind.letter
  | .text => "s"
  | .bytes => "ay"

/-- What a describing call adds to a signature; the end of a sequence adds nothing. -/
def TypeCall.text : TypeCall → String
  | .leaf kind => kind.signature
  | .variant => "(yv)"
  | .enterSequence => "a"
  | .leaveSequence => ""
  | .enterMap => "a\x7b"
  | .leaveMap => "\x7d"
  | .enterStruct => "("
  | .leaveStruct => ")"

/-- The signature that a list of describing calls prints. -/
def TypeCall.textAll (calls : List TypeCall) : String :=
  String.join (calls.map TypeCall.text)

mutual

/-- The calls that describe a type, given those of records. -/
def DataType.describeWith (record : String → Option (List TypeCall)) :
    DataType → Option (List TypeCall)
  | .leaf kind => some [.leaf kind]
  | .enumeration choices => some [.leaf (.number choices.base)]
  | .ranged _ => some [.leaf (.number .int32)]
  | .boxed content => content.describeWith record
  | .sequence item => do
      return .enterSequence :: (← item.describeWith record) ++ [.leaveSequence]
  | .map _ key value => do
      return .enterMap :: (← key.describeWith record) ++ (← value.describeWith record) ++
        [.leaveMap]
  | .tuple items => do
      return .enterStruct :: (← DataType.describeAllWith record items) ++ [.leaveStruct]
  | .declared (.record name) => record name
  | .declared (.variant _) => some [.variant]

/-- The calls that describe types one after the other. -/
def DataType.describeAllWith (record : String → Option (List TypeCall)) :
    List DataType → Option (List TypeCall)
  | [] => some []
  | type :: rest => do
      return (← type.describeWith record) ++ (← DataType.describeAllWith record rest)

end

namespace Schema

/-- The calls that describe a record whose nested records are at most `depth` deep. -/
def describeRecord (schema : Schema) : Nat → String → Option (List TypeCall)
  | 0, _ => none
  | depth + 1, name => do
      let fields ← DataType.describeAllWith (schema.describeRecord depth)
        ((schema.fields name).map Member.type)
      return .enterStruct :: fields ++ [.leaveStruct]

/-- The calls that describe a type. Records nested deeper than there are declarations contain
themselves; they and whatever contains them have no description. -/
def describe? (schema : Schema) (type : DataType) : Option (List TypeCall) :=
  type.describeWith (schema.describeRecord (schema.records.length + 1))

def signature? (schema : Schema) (type : DataType) : Option String :=
  (schema.describe? type).map TypeCall.textAll

end Schema

end ValueBus
