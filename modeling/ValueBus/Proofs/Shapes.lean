import ValueBus.Proofs.Nesting
import ValueBus.Proofs.Sound
import ValueBus.Schema.Signature

/-!
# Shapes

A shape is what a signature can tell of a type: the scalars, sequences, maps and structs that it is
made of, but not the names of its records and enumerations, the bounds of its integers, the order of
its maps and the alternatives of its variants. A type has a shape if its records contain one another
to a finite depth only, and then it has one shape.

A type that has a shape has a description, whose calls print the shape. The description of a record
is bounded by the number of declarations, which suffices: a record inside itself would have a shape
smaller than its own.
-/

namespace ValueBus

/-- The scalars that have letters of their own. -/
inductive Scalar where
  | bool
  | byte
  | int16 | int32 | int64
  | uint16 | uint32 | uint64
  | double
  | text
  deriving DecidableEq

namespace Scalar

def letter : Scalar → Char
  | .bool => 'b'
  | .byte => 'y'
  | .int16 => 'n'
  | .int32 => 'i'
  | .int64 => 'x'
  | .uint16 => 'q'
  | .uint32 => 'u'
  | .uint64 => 't'
  | .double => 'd'
  | .text => 's'

/-- The scalar of a number; the two kinds of one byte are the same, and so are the two floats. -/
def ofNumber : NumberKind → Scalar
  | .int8 | .uint8 => .byte
  | .int16 => .int16
  | .int32 => .int32
  | .int64 => .int64
  | .uint16 => .uint16
  | .uint32 => .uint32
  | .uint64 => .uint64
  | .float32 | .float64 => .double

theorem letter_ofNumber (kind : NumberKind) : kind.letter.toList = [(ofNumber kind).letter] := by
  cases kind <;> rfl

theorem letter_injective {first second : Scalar} (same : first.letter = second.letter) :
    first = second := by
  cases first <;> cases second <;> first | rfl | exact absurd same (by decide)

theorem letter_ne_a (kind : Scalar) : kind.letter ≠ 'a' := by
  cases kind <;> decide

theorem letter_ne_parenthesis (kind : Scalar) : kind.letter ≠ '(' := by
  cases kind <;> decide

end Scalar

/-- What a signature can tell of a type. -/
inductive Shape where
  | scalar (kind : Scalar)
  | sequence (item : Shape)
  | map (key value : Shape)
  | struct (fields : List Shape)
  | variant

namespace Shape

/-- Induction on shapes: every field of a struct satisfies the motive. -/
@[elab_as_elim, induction_eliminator]
theorem induction {motive : Shape → Prop}
    (scalar : ∀ kind, motive (.scalar kind))
    (sequence : ∀ item, motive item → motive (.sequence item))
    (map : ∀ key value, motive key → motive value → motive (.map key value))
    (struct : ∀ fields, (∀ field ∈ fields, motive field) → motive (.struct fields))
    (variant : motive .variant) (shape : Shape) : motive shape := by
  refine @Shape.rec motive (fun fields => ∀ field ∈ fields, motive field)
    scalar sequence map struct variant ?_ ?_ shape
  · simp
  · intro head tail headHolds tailHolds field fieldMem
    rcases List.mem_cons.1 fieldMem with rfl | fieldMem
    · exact headHolds
    · exact tailHolds field fieldMem

theorem sizeOf_lt_sequence (item : Shape) : sizeOf item < sizeOf (sequence item) := by
  rw [sequence.sizeOf_spec]
  omega

theorem sizeOf_key_lt_map (key value : Shape) : sizeOf key < sizeOf (map key value) := by
  rw [map.sizeOf_spec]
  omega

theorem sizeOf_value_lt_map (key value : Shape) : sizeOf value < sizeOf (map key value) := by
  rw [map.sizeOf_spec]
  omega

theorem sizeOf_lt_struct {α : Type} {items : List α} {shapes : List Shape} {pair : α × Shape}
    (pairMem : pair ∈ items.zip shapes) : sizeOf pair.2 < sizeOf (Shape.struct shapes) := by
  have smaller := List.sizeOf_lt_of_mem (List.of_mem_zip pairMem).2
  rw [struct.sizeOf_spec]
  omega

mutual

/-- The signature of a shape. -/
def chars : Shape → List Char
  | .scalar kind => [kind.letter]
  | .sequence item => 'a' :: chars item
  | .map key value => 'a' :: '\x7b' :: (chars key ++ chars value ++ ['\x7d'])
  | .struct fields => '(' :: (charsAll fields ++ [')'])
  | .variant => ['(', 'y', 'v', ')']

/-- The signatures of shapes one after the other. -/
def charsAll : List Shape → List Char
  | [] => []
  | shape :: rest => chars shape ++ charsAll rest

end

end Shape

namespace Schema

/-- The shape of a type. A boxed type has that of its content, an enumeration and a ranged integer
that of their numbers, a byte buffer that of a sequence of bytes, and a record that of the tuple of
its fields. -/
inductive HasShape (schema : Schema) : DataType → Shape → Prop where
  | bool : HasShape schema (.leaf .bool) (.scalar .bool)
  | number {kind : NumberKind} : HasShape schema (.leaf (.number kind)) (.scalar (.ofNumber kind))
  | text : HasShape schema (.leaf .text) (.scalar .text)
  | bytes : HasShape schema (.leaf .bytes) (.sequence (.scalar .byte))
  | enumeration {choices : Enumeration} :
      HasShape schema (.enumeration choices) (.scalar (.ofNumber choices.base))
  | ranged {range : Range} : HasShape schema (.ranged range) (.scalar .int32)
  | boxed {content : DataType} {shape : Shape} :
      HasShape schema content shape → HasShape schema (.boxed content) shape
  | sequence {item : DataType} {shape : Shape} :
      HasShape schema item shape → HasShape schema (.sequence item) (.sequence shape)
  | map {mapOrder : MapOrder} {key value : DataType} {keyShape valueShape : Shape} :
      HasShape schema key keyShape → HasShape schema value valueShape →
      HasShape schema (.map mapOrder key value) (.map keyShape valueShape)
  | tuple {types : List DataType} {shapes : List Shape} :
      types.length = shapes.length →
      (∀ pair ∈ types.zip shapes, HasShape schema pair.1 pair.2) →
      HasShape schema (.tuple types) (.struct shapes)
  | record {name : String} {shapes : List Shape} :
      (schema.fields name).length = shapes.length →
      (∀ pair ∈ (schema.fields name).zip shapes, HasShape schema pair.1.type pair.2) →
      HasShape schema (.declared (.record name)) (.struct shapes)
  | variant {set : String} : HasShape schema (.declared (.variant set)) .variant

namespace HasShape

variable {schema : Schema} {type : DataType} {shape other : Shape}

/-- Lists that are paired with the same items are equal if no item has two partners. -/
theorem eq_of_zip {α : Type} {items : List α} {shapes others : List Shape}
    (lengthEq : items.length = shapes.length) (otherLengthEq : items.length = others.length)
    (same : ∀ pair ∈ items.zip shapes, ∀ other, (pair.1, other) ∈ items.zip others →
      pair.2 = other) : shapes = others := by
  induction items generalizing shapes others with
  | nil =>
      rw [List.eq_nil_of_length_eq_zero lengthEq.symm,
        List.eq_nil_of_length_eq_zero otherLengthEq.symm]
  | cons item items ih =>
      rcases shapes with _ | ⟨shape, shapes⟩
      · cases lengthEq
      rcases others with _ | ⟨other, others⟩
      · cases otherLengthEq
      have headEq : shape = other := same (item, shape) (by simp) other (by simp)
      have tailEq : shapes = others := by
        apply ih (Nat.succ.inj lengthEq) (Nat.succ.inj otherLengthEq)
        intro pair pairMem other otherMem
        exact same pair (List.mem_cons_of_mem _ pairMem) other (List.mem_cons_of_mem _ otherMem)
      rw [headEq, tailEq]

/-- A type has one shape. -/
theorem unique (shaped : schema.HasShape type shape) (otherShaped : schema.HasShape type other) :
    shape = other := by
  induction shaped generalizing other with
  | boxed _ ih =>
      cases otherShaped with
      | boxed contentShaped => exact ih contentShaped
  | sequence _ ih =>
      cases otherShaped with
      | sequence itemShaped => rw [ih itemShaped]
  | map _ _ keyIh valueIh =>
      cases otherShaped with
      | map keyShaped valueShaped => rw [keyIh keyShaped, valueIh valueShaped]
  | tuple lengthEq _ ih =>
      cases otherShaped with
      | tuple otherLengthEq fieldsShaped =>
          rw [eq_of_zip lengthEq otherLengthEq fun pair pairMem other otherMem =>
            ih pair pairMem (fieldsShaped (pair.1, other) otherMem)]
  | record lengthEq _ ih =>
      cases otherShaped with
      | record otherLengthEq fieldsShaped =>
          rw [eq_of_zip lengthEq otherLengthEq fun pair pairMem other otherMem =>
            ih pair pairMem (fieldsShaped (pair.1, other) otherMem)]
  | _ => cases otherShaped; rfl

end HasShape

/-- The records that are entered around a type, whose shape is a proper part of theirs. -/
structure Around (schema : Schema) (names : List String) (shape : Shape) : Prop where
  nodup : names.Nodup
  declared : names ⊆ schema.records.map Prod.fst
  smaller : ∀ name ∈ names, ∃ outer, schema.HasShape (.declared (.record name)) outer ∧
    sizeOf shape < sizeOf outer

namespace Around

variable {schema : Schema} {names : List String} {shape part : Shape}

theorem nil (shape : Shape) : schema.Around [] shape :=
  ⟨List.nodup_nil, List.nil_subset _, by simp⟩

theorem of_smaller (around : schema.Around names shape) (smaller : sizeOf part < sizeOf shape) :
    schema.Around names part := by
  refine ⟨around.nodup, around.declared, ?_⟩
  intro name nameMem
  rcases around.smaller name nameMem with ⟨outer, outerShaped, shapeSmaller⟩
  exact ⟨outer, outerShaped, Nat.lt_trans smaller shapeSmaller⟩

/-- A record that is entered is none of those around it. -/
theorem record {name : String} {field : Member} (around : schema.Around names shape)
    (shaped : schema.HasShape (.declared (.record name)) shape)
    (fieldMem : field ∈ schema.fields name) (smaller : sizeOf part < sizeOf shape) :
    schema.Around (name :: names) part := by
  have fresh : name ∉ names := by
    intro nameMem
    rcases around.smaller name nameMem with ⟨outer, outerShaped, shapeSmaller⟩
    rw [shaped.unique outerShaped] at shapeSmaller
    exact Nat.lt_irrefl _ shapeSmaller
  refine ⟨List.nodup_cons.2 ⟨fresh, around.nodup⟩, ?_, ?_⟩
  · exact List.cons_subset.2 ⟨Chain.mem_records fieldMem, around.declared⟩
  · intro outer outerMem
    rcases List.mem_cons.1 outerMem with rfl | outerMem
    · exact ⟨shape, shaped, smaller⟩
    · exact (around.of_smaller smaller).smaller outer outerMem

theorem length_le (around : schema.Around names shape) : names.length ≤ schema.records.length := by
  have bounded := around.nodup.length_le_of_subset around.declared
  rwa [List.length_map] at bounded

end Around

end Schema

namespace TypeCall

@[simp]
theorem toList_textAll_nil : (textAll []).toList = [] :=
  rfl

@[simp]
theorem toList_textAll_cons (call : TypeCall) (calls : List TypeCall) :
    (textAll (call :: calls)).toList = call.text.toList ++ (textAll calls).toList := by
  simp [textAll]

@[simp]
theorem toList_textAll_append (first second : List TypeCall) :
    (textAll (first ++ second)).toList = (textAll first).toList ++ (textAll second).toList := by
  simp [textAll]

theorem toList_textAll_number (kind : NumberKind) :
    (textAll [.leaf (.number kind)]).toList = (Shape.scalar (.ofNumber kind)).chars := by
  simp [text, LeafKind.signature, Scalar.letter_ofNumber, Shape.chars]

/-- What brackets put around the fields. -/
theorem toList_textAll_struct {calls : List TypeCall} {shapes : List Shape}
    (textEq : (textAll calls).toList = Shape.charsAll shapes) :
    (textAll (.enterStruct :: calls ++ [.leaveStruct])).toList =
      (Shape.struct shapes).chars := by
  simp [text, Shape.chars, textEq]

end TypeCall

namespace DataType

variable {record : String → Option (List TypeCall)} {type : DataType} {shape : Shape}

/-- The calls that describe the type print the shape, given the descriptions of records. -/
def Prints (record : String → Option (List TypeCall)) (type : DataType) (shape : Shape) : Prop :=
  ∃ calls, type.describeWith record = some calls ∧ (TypeCall.textAll calls).toList = shape.chars

theorem printsAll {types : List DataType} {shapes : List Shape}
    (lengthEq : types.length = shapes.length)
    (prints : ∀ pair ∈ types.zip shapes, Prints record pair.1 pair.2) :
    ∃ calls, describeAllWith record types = some calls ∧
      (TypeCall.textAll calls).toList = Shape.charsAll shapes := by
  induction types generalizing shapes with
  | nil =>
      rw [List.eq_nil_of_length_eq_zero lengthEq.symm]
      exact ⟨[], rfl, rfl⟩
  | cons type types ih =>
      rcases shapes with _ | ⟨shape, shapes⟩
      · cases lengthEq
      rw [List.zip_cons_cons, List.forall_mem_cons] at prints
      rcases prints.1 with ⟨first, firstDescribed, firstText⟩
      rcases ih (Nat.succ.inj lengthEq) prints.2 with ⟨rest, restDescribed, restText⟩
      refine ⟨first ++ rest, ?_, ?_⟩
      · simp [describeAllWith, firstDescribed, restDescribed]
      · rw [TypeCall.toList_textAll_append, firstText, restText, Shape.charsAll]

theorem Prints.sequence (prints : Prints record type shape) :
    Prints record (.sequence type) (.sequence shape) := by
  rcases prints with ⟨calls, described, textEq⟩
  refine ⟨.enterSequence :: calls ++ [.leaveSequence], ?_, ?_⟩
  · simp [describeWith, described]
  · simp [TypeCall.text, Shape.chars, textEq]

theorem Prints.map {mapOrder : MapOrder} {value : DataType} {valueShape : Shape}
    (prints : Prints record type shape) (valuePrints : Prints record value valueShape) :
    Prints record (.map mapOrder type value) (.map shape valueShape) := by
  rcases prints with ⟨calls, described, textEq⟩
  rcases valuePrints with ⟨valueCalls, valueDescribed, valueTextEq⟩
  refine ⟨.enterMap :: calls ++ valueCalls ++ [.leaveMap], ?_, ?_⟩
  · simp [describeWith, described, valueDescribed]
  · simp [TypeCall.text, Shape.chars, textEq, valueTextEq]

end DataType

namespace Schema

open DataType (Prints)
open TypeCall (toList_textAll_number toList_textAll_struct)

variable {schema : Schema} {type : DataType} {shape : Shape}

/-- A type that has a shape is described to any depth that is not used up by the records around it,
even if all that are declared are. -/
theorem HasShape.prints (shaped : schema.HasShape type shape) {names : List String} {depth : Nat}
    (around : schema.Around names shape)
    (enough : schema.records.length + 1 ≤ depth + names.length) :
    Prints (schema.describeRecord depth) type shape := by
  induction shaped generalizing names depth with
  | bool => exact ⟨_, rfl, rfl⟩
  | @number kind => exact ⟨_, rfl, toList_textAll_number kind⟩
  | text => exact ⟨_, rfl, rfl⟩
  | bytes => exact ⟨_, rfl, rfl⟩
  | @enumeration choices => exact ⟨_, rfl, toList_textAll_number choices.base⟩
  | ranged => exact ⟨_, rfl, rfl⟩
  | boxed _ ih => exact ih around enough
  | sequence _ ih =>
      exact (ih (around.of_smaller (Shape.sizeOf_lt_sequence _)) enough).sequence
  | map _ _ keyIh valueIh =>
      have keyPrints := keyIh (around.of_smaller (Shape.sizeOf_key_lt_map _ _)) enough
      exact keyPrints.map (valueIh (around.of_smaller (Shape.sizeOf_value_lt_map _ _)) enough)
  | tuple lengthEq _ ih =>
      have fieldsPrint := DataType.printsAll lengthEq fun pair pairMem =>
        ih pair pairMem (around.of_smaller (Shape.sizeOf_lt_struct pairMem)) enough
      rcases fieldsPrint with ⟨calls, described, textEq⟩
      refine ⟨.enterStruct :: calls ++ [.leaveStruct], ?_, ?_⟩
      · simp [DataType.describeWith, described]
      · exact toList_textAll_struct textEq
  | @record name shapes lengthEq typed ih =>
      have bounded := around.length_le
      rcases Nat.exists_eq_add_one_of_ne_zero (show depth ≠ 0 by omega) with ⟨depth, rfl⟩
      have fieldsPrint : ∀ pair ∈ ((schema.fields name).map Member.type).zip shapes,
          Prints (schema.describeRecord depth) pair.1 pair.2 := by
        intro pair pairMem
        rw [List.zip_map_left] at pairMem
        rcases List.mem_map.1 pairMem with ⟨field, fieldMem, rfl⟩
        apply ih field fieldMem
        · exact around.record (.record lengthEq typed) (List.of_mem_zip fieldMem).1
            (Shape.sizeOf_lt_struct fieldMem)
        · rw [List.length_cons]
          omega
      rcases DataType.printsAll (by rw [List.length_map, lengthEq]) fieldsPrint with
        ⟨calls, described, textEq⟩
      refine ⟨.enterStruct :: calls ++ [.leaveStruct], ?_, ?_⟩
      · simp [DataType.describeWith, describeRecord, described]
      · exact toList_textAll_struct textEq
  | variant => exact ⟨_, rfl, rfl⟩

/-- The signature of a type that has a shape is that of the shape. -/
theorem HasShape.signature_eq (shaped : schema.HasShape type shape) :
    schema.signature? type = some (String.ofList shape.chars) := by
  rcases shaped.prints (.nil shape) (Nat.le_refl _) with ⟨calls, described, textEq⟩
  rw [signature?, describe?, described, Option.map_some, ← textEq, String.ofList_toList]

theorem exists_shapes {α : Type} {items : List α} {shaped : α → Shape → Prop}
    (shapeExists : ∀ item ∈ items, ∃ shape, shaped item shape) :
    ∃ shapes : List Shape, items.length = shapes.length ∧
      ∀ pair ∈ items.zip shapes, shaped pair.1 pair.2 := by
  induction items with
  | nil => exact ⟨[], rfl, by simp⟩
  | cons item items ih =>
      rw [List.forall_mem_cons] at shapeExists
      rcases shapeExists.1 with ⟨shape, itemShaped⟩
      rcases ih shapeExists.2 with ⟨shapes, lengthEq, itemsShaped⟩
      exact ⟨shape :: shapes, congrArg (· + 1) lengthEq,
        List.forall_mem_cons.2 ⟨itemShaped, itemsShaped⟩⟩

theorem exists_described {record : String → Option (List TypeCall)} {types : List DataType}
    {calls : List TypeCall} (described : DataType.describeAllWith record types = some calls) :
    ∀ type ∈ types, ∃ calls, type.describeWith record = some calls := by
  induction types generalizing calls with
  | nil => simp
  | cons type types ih =>
      simp only [DataType.describeAllWith, Option.bind_eq_bind,
        Option.bind_eq_some_iff] at described
      rcases described with ⟨first, firstDescribed, rest, restDescribed, _⟩
      exact List.forall_mem_cons.2 ⟨⟨first, firstDescribed⟩, ih restDescribed⟩

theorem exists_shape_of_described {record : String → Option (List TypeCall)}
    (recordsShaped : ∀ name calls, record name = some calls →
      ∃ shape, schema.HasShape (.declared (.record name)) shape)
    (type : DataType) {calls : List TypeCall} (described : type.describeWith record = some calls) :
    ∃ shape, schema.HasShape type shape := by
  induction type generalizing calls with
  | leaf kind =>
      cases kind with
      | bool => exact ⟨_, .bool⟩
      | number kind => exact ⟨_, .number⟩
      | text => exact ⟨_, .text⟩
      | bytes => exact ⟨_, .bytes⟩
  | enumeration choices => exact ⟨_, .enumeration⟩
  | ranged range => exact ⟨_, .ranged⟩
  | boxed content ih =>
      rcases ih described with ⟨shape, shaped⟩
      exact ⟨shape, .boxed shaped⟩
  | sequence item ih =>
      simp only [DataType.describeWith, Option.bind_eq_bind, Option.bind_eq_some_iff] at described
      rcases described with ⟨_, itemDescribed, _⟩
      rcases ih itemDescribed with ⟨shape, shaped⟩
      exact ⟨_, .sequence shaped⟩
  | map mapOrder key value keyIh valueIh =>
      simp only [DataType.describeWith, Option.bind_eq_bind, Option.bind_eq_some_iff] at described
      rcases described with ⟨_, keyDescribed, _, valueDescribed, _⟩
      rcases keyIh keyDescribed with ⟨_, keyShaped⟩
      rcases valueIh valueDescribed with ⟨_, valueShaped⟩
      exact ⟨_, .map keyShaped valueShaped⟩
  | tuple items ih =>
      simp only [DataType.describeWith, Option.bind_eq_bind, Option.bind_eq_some_iff] at described
      rcases described with ⟨_, itemsDescribed, _⟩
      have itemsShaped : ∀ item ∈ items, ∃ shape, schema.HasShape item shape := by
        intro item itemMem
        rcases exists_described itemsDescribed item itemMem with ⟨_, itemDescribed⟩
        exact ih item itemMem itemDescribed
      rcases exists_shapes itemsShaped with ⟨shapes, lengthEq, shaped⟩
      exact ⟨_, .tuple lengthEq shaped⟩
  | declared name =>
      cases name with
      | record name => exact recordsShaped name calls described
      | variant set => exact ⟨_, .variant⟩

theorem exists_shape_of_describeRecord {depth : Nat} {name : String} {calls : List TypeCall}
    (described : schema.describeRecord depth name = some calls) :
    ∃ shape, schema.HasShape (.declared (.record name)) shape := by
  induction depth generalizing name calls with
  | zero => cases described
  | succ depth ih =>
      simp only [describeRecord, Option.bind_eq_bind, Option.bind_eq_some_iff] at described
      rcases described with ⟨_, fieldsDescribed, _⟩
      have fieldsShaped : ∀ field ∈ schema.fields name, ∃ shape,
          schema.HasShape field.type shape := by
        intro field fieldMem
        rcases exists_described fieldsDescribed field.type (List.mem_map_of_mem fieldMem) with
          ⟨_, fieldDescribed⟩
        exact exists_shape_of_described (fun name calls => ih) field.type fieldDescribed
      rcases exists_shapes fieldsShaped with ⟨shapes, lengthEq, shaped⟩
      exact ⟨_, .record lengthEq shaped⟩

/-- A type has a signature if it has a shape. -/
theorem signature?_isSome_iff :
    (schema.signature? type).isSome = true ↔ ∃ shape, schema.HasShape type shape := by
  constructor
  · intro signed
    rcases Option.isSome_iff_exists.1 signed with ⟨text, signatureEq⟩
    rcases Option.map_eq_some_iff.1 signatureEq with ⟨calls, described, _⟩
    exact exists_shape_of_described (fun _ _ => exists_shape_of_describeRecord) type described
  · rintro ⟨shape, shaped⟩
    rw [shaped.signature_eq]
    rfl

end Schema

end ValueBus
