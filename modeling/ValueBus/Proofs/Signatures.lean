import Mathlib.Data.List.Forall2
import ValueBus.Proofs.Shapes

/-!
# Signatures are uniquely parseable

The first letter of a signature tells the kind of its shape, except that sequences and maps share
theirs, and so do structs and variants. The second letter tells the former apart, since no signature
begins with a brace, and the third the latter, since none begins with `v`. Thus signatures can be
read from left to right, and a shape is found again whatever follows it. So no signature is a proper
beginning of another, and lists of types print the same text only if they have the same shapes.
-/

namespace ValueBus

/-- The words of the grammar of signatures: a letter, `a` and a word, `a`, a brace, two words and a
brace, any number of words in parentheses, or `(yv)`. -/
inductive CompleteType : List Char → Prop where
  | letter {letter : Char} : letter ∈ ['b', 'y', 'n', 'q', 'i', 'u', 'x', 't', 'd', 's'] →
      CompleteType [letter]
  | sequence {item : List Char} : CompleteType item → CompleteType ('a' :: item)
  | map {key value : List Char} : CompleteType key → CompleteType value →
      CompleteType ('a' :: '\x7b' :: (key ++ value ++ ['\x7d']))
  | struct {fields : List (List Char)} : (∀ field ∈ fields, CompleteType field) →
      CompleteType ('(' :: (fields.flatten ++ [')']))
  | variant : CompleteType ['(', 'y', 'v', ')']

namespace Shape

variable {rest later : List Char}

theorem charsAll_eq_flatten (shapes : List Shape) :
    charsAll shapes = (shapes.map chars).flatten := by
  induction shapes with
  | nil => rfl
  | cons shape shapes ih => rw [charsAll, ih, List.map_cons, List.flatten_cons]

theorem completeType_chars (shape : Shape) : CompleteType shape.chars := by
  induction shape with
  | scalar kind => exact .letter (by cases kind <;> decide)
  | sequence item ih => exact .sequence ih
  | map key value keyIh valueIh => exact .map keyIh valueIh
  | struct fields ih =>
      rw [chars, charsAll_eq_flatten]
      exact .struct (List.forall_mem_map.2 ih)
  | variant => exact .variant

section Append

variable (rest : List Char)

theorem sequence_append (item : Shape) :
    (sequence item).chars ++ rest = 'a' :: (item.chars ++ rest) :=
  rfl

theorem map_append (key value : Shape) :
    (map key value).chars ++ rest =
      'a' :: '\x7b' :: (key.chars ++ (value.chars ++ '\x7d' :: rest)) := by
  simp [chars]

theorem struct_append (fields : List Shape) :
    (struct fields).chars ++ rest = '(' :: (charsAll fields ++ ')' :: rest) := by
  simp [chars]

theorem variant_append : variant.chars ++ rest = '(' :: 'y' :: 'v' :: ')' :: rest :=
  rfl

end Append

/-- The first letter of the signature of a shape. -/
def opener : Shape → Char
  | .scalar kind => kind.letter
  | .sequence _ | .map _ _ => 'a'
  | .struct _ | .variant => '('

theorem exists_chars_eq (shape : Shape) : ∃ tail, shape.chars = shape.opener :: tail := by
  cases shape <;> exact ⟨_, rfl⟩

theorem opener_notMem (shape : Shape) : shape.opener ∉ ['\x7b', '\x7d', ')', 'v'] := by
  cases shape with
  | scalar kind => cases kind <;> decide
  | _ => simp [opener]

theorem opener_eq {shape other : Shape} (same : shape.chars ++ rest = other.chars ++ later) :
    shape.opener = other.opener := by
  rcases shape.exists_chars_eq with ⟨tail, charsEq⟩
  rcases other.exists_chars_eq with ⟨otherTail, otherCharsEq⟩
  rw [charsEq, otherCharsEq] at same
  exact (List.cons.inj same).1

/-- No signature begins here. -/
def Stops (rest : List Char) : Prop :=
  ∀ (shape : Shape) (tail : List Char), shape.chars ++ tail ≠ rest

theorem stops_nil : Stops [] := by
  intro shape tail
  rcases shape.exists_chars_eq with ⟨inner, charsEq⟩
  simp [charsEq]

theorem stops_cons {letter : Char} (other : letter ∈ ['\x7b', '\x7d', ')', 'v'])
    (rest : List Char) : Stops (letter :: rest) := by
  intro shape tail same
  rcases shape.exists_chars_eq with ⟨inner, charsEq⟩
  rw [charsEq, List.cons_append] at same
  rw [← (List.cons.inj same).1] at other
  exact shape.opener_notMem other

/-- The shape is found again, whatever follows its signature. -/
def Parsed (shape : Shape) : Prop :=
  ∀ ⦃other : Shape⦄ ⦃rest later : List Char⦄, shape.chars ++ rest = other.chars ++ later →
    shape = other ∧ rest = later

/-- Shapes are found again, as many as there are, before something else. -/
theorem parsed_all {shapes others : List Shape} (parsed : ∀ shape ∈ shapes, shape.Parsed)
    (restStops : Stops rest) (laterStops : Stops later)
    (same : charsAll shapes ++ rest = charsAll others ++ later) :
    shapes = others ∧ rest = later := by
  induction shapes generalizing others with
  | nil =>
      cases others with
      | nil => exact ⟨rfl, same⟩
      | cons other others =>
          rw [charsAll, charsAll, List.append_assoc] at same
          exact absurd same.symm (restStops other _)
  | cons shape shapes ih =>
      rw [List.forall_mem_cons] at parsed
      rw [charsAll, List.append_assoc] at same
      cases others with
      | nil => exact absurd same (laterStops shape _)
      | cons other others =>
          rw [charsAll, List.append_assoc] at same
          rcases parsed.1 same with ⟨rfl, restSame⟩
          rcases ih parsed.2 restSame with ⟨rfl, restEq⟩
          exact ⟨rfl, restEq⟩

/-- The fields of a struct are never printed like the inside of a variant. -/
theorem charsAll_ne_variant (fields : List Shape) :
    charsAll fields ++ ')' :: rest ≠ 'y' :: 'v' :: later := by
  intro same
  cases fields with
  | nil => exact absurd (List.cons.inj same).1 (by decide)
  | cons field fields =>
      rw [charsAll, List.append_assoc] at same
      have headSame : field.chars ++ _ = (scalar .byte).chars ++ 'v' :: later := same
      cases field with
      | scalar kind =>
          -- What follows the first field begins with another field or ends the struct.
          have tailSame := (List.cons.inj headSame).2
          cases fields with
          | nil => exact absurd (List.cons.inj tailSame).1 (by decide)
          | cons field fields =>
              rw [charsAll, List.append_assoc] at tailSame
              exact stops_cons (by decide) later field _ tailSame
      | _ => exact absurd (opener_eq headSame) (by simp [opener, Scalar.letter])

/-- No item begins with a brace. -/
theorem sequence_ne_map {item key value : Shape} :
    (sequence item).chars ++ rest ≠ (map key value).chars ++ later := by
  intro same
  rw [sequence_append, map_append] at same
  exact stops_cons (by decide) _ item rest (List.cons.inj same).2

theorem struct_ne_variant {fields : List Shape} :
    (struct fields).chars ++ rest ≠ variant.chars ++ later := by
  intro same
  rw [struct_append, variant_append] at same
  exact charsAll_ne_variant fields (List.cons.inj same).2

theorem parsed (shape : Shape) : shape.Parsed := by
  induction shape with
  | scalar kind =>
      intro other rest later same
      have sameOpener := opener_eq same
      cases other with
      | scalar other =>
          rw [Scalar.letter_injective sameOpener] at same ⊢
          exact ⟨rfl, (List.cons.inj same).2⟩
      | sequence item => exact absurd sameOpener kind.letter_ne_a
      | map key value => exact absurd sameOpener kind.letter_ne_a
      | struct fields => exact absurd sameOpener kind.letter_ne_parenthesis
      | variant => exact absurd sameOpener kind.letter_ne_parenthesis
  | sequence item ih =>
      intro other rest later same
      have sameOpener := opener_eq same
      cases other with
      | scalar kind => exact absurd sameOpener.symm kind.letter_ne_a
      | sequence other =>
          rcases ih (List.cons.inj same).2 with ⟨rfl, restEq⟩
          exact ⟨rfl, restEq⟩
      | map key value => exact absurd same sequence_ne_map
      | struct fields => exact absurd sameOpener (by simp [opener])
      | variant => exact absurd sameOpener (by simp [opener])
  | map key value keyIh valueIh =>
      intro other rest later same
      have sameOpener := opener_eq same
      cases other with
      | scalar kind => exact absurd sameOpener.symm kind.letter_ne_a
      | sequence other => exact absurd same.symm sequence_ne_map
      | map otherKey otherValue =>
          rw [map_append, map_append] at same
          rcases keyIh (List.cons.inj (List.cons.inj same).2).2 with ⟨rfl, valuesSame⟩
          rcases valueIh valuesSame with ⟨rfl, closedSame⟩
          exact ⟨rfl, (List.cons.inj closedSame).2⟩
      | struct fields => exact absurd sameOpener (by simp [opener])
      | variant => exact absurd sameOpener (by simp [opener])
  | struct fields ih =>
      intro other rest later same
      have sameOpener := opener_eq same
      cases other with
      | scalar kind => exact absurd sameOpener.symm kind.letter_ne_parenthesis
      | sequence other => exact absurd sameOpener (by simp [opener])
      | map key value => exact absurd sameOpener (by simp [opener])
      | struct others =>
          rw [struct_append, struct_append] at same
          rcases parsed_all ih (stops_cons (by decide) rest) (stops_cons (by decide) later)
            (List.cons.inj same).2 with ⟨rfl, closedSame⟩
          exact ⟨rfl, (List.cons.inj closedSame).2⟩
      | variant => exact absurd same struct_ne_variant
  | variant =>
      intro other rest later same
      have sameOpener := opener_eq same
      cases other with
      | scalar kind => exact absurd sameOpener.symm kind.letter_ne_parenthesis
      | sequence other => exact absurd sameOpener (by simp [opener])
      | map key value => exact absurd sameOpener (by simp [opener])
      | struct fields => exact absurd same.symm struct_ne_variant
      | variant =>
          rw [variant_append, variant_append] at same
          exact ⟨rfl, by simpa using same⟩

/-- Shapes that print the same text are the same, one by one. -/
theorem charsAll_injective {shapes others : List Shape} (same : charsAll shapes = charsAll others) :
    shapes = others := by
  apply (@parsed_all [] [] shapes others (fun shape _ => shape.parsed) stops_nil stops_nil _).1
  rw [same]

/-- No signature is a proper beginning of another. -/
theorem eq_of_prefix {shape other : Shape} (begins : shape.chars <+: other.chars) :
    shape = other := by
  rcases begins with ⟨tail, same⟩
  exact (@parsed shape other tail [] (by rw [same, List.append_nil])).1

def text (shape : Shape) : String :=
  String.ofList shape.chars

theorem toList_join_text (shapes : List Shape) :
    (String.join (shapes.map text)).toList = charsAll shapes := by
  rw [String.toList_join, List.flatMap_map, charsAll_eq_flatten, ← List.flatMap_def]
  simp only [text, String.toList_ofList]

end Shape

/-- What a writer holds after calls, given what it held before. -/
def TypeCall.writeAll (calls : List TypeCall) (start : String) : String :=
  calls.foldl (fun written call => written ++ call.text) start

theorem TypeCall.writeAll_eq (calls : List TypeCall) (start : String) :
    writeAll calls start = start ++ textAll calls := by
  induction calls generalizing start with
  | nil => exact String.append_empty.symm
  | cons call rest ih =>
      have first : writeAll (call :: rest) start = writeAll rest (start ++ call.text) := rfl
      rw [first, ih, String.append_assoc, textAll, textAll, List.map_cons, String.join_cons]

namespace Schema

variable {schema : Schema} {types : List DataType} {shapes : List Shape}

/-- The calls that describe types one after the other. -/
def describeAll? (schema : Schema) (types : List DataType) : Option (List TypeCall) :=
  DataType.describeAllWith (schema.describeRecord (schema.records.length + 1)) types

theorem signatures_eq (shaped : List.Forall₂ schema.HasShape types shapes) :
    types.map schema.signature? = (shapes.map Shape.text).map some := by
  induction shaped with
  | nil => rfl
  | cons typeShaped _ ih =>
      rw [List.map_cons, List.map_cons, List.map_cons, ih, typeShaped.signature_eq]
      rfl

/-- Types that are described to one writer add their signatures to what it holds. -/
theorem exists_describeAll?_eq (shaped : List.Forall₂ schema.HasShape types shapes) :
    ∃ calls, schema.describeAll? types = some calls ∧
      ∀ start, TypeCall.writeAll calls start = start ++ String.join (shapes.map Shape.text) := by
  rcases List.forall₂_iff_zip.1 shaped with ⟨lengthEq, pairsShaped⟩
  have prints : ∀ pair ∈ types.zip shapes,
      DataType.Prints (schema.describeRecord (schema.records.length + 1)) pair.1 pair.2 := by
    intro pair pairMem
    exact (pairsShaped pairMem).prints (.nil pair.2) (Nat.le_refl _)
  rcases DataType.printsAll lengthEq prints with ⟨calls, described, textEq⟩
  refine ⟨calls, described, ?_⟩
  intro start
  rw [TypeCall.writeAll_eq, String.ext (textEq.trans (Shape.toList_join_text shapes).symm)]

end Schema

/-- Describing types to one writer appends their signatures, and types of other shapes never append
the same text: every signature is one complete type, and none begins with another. -/
theorem signatures_parse_uniquely (schema other : Schema) (types others : List DataType)
    (shapes otherShapes : List Shape) (shaped : List.Forall₂ schema.HasShape types shapes)
    (othersShaped : List.Forall₂ other.HasShape others otherShapes) :
    ∃ texts otherTexts : List String,
      types.map schema.signature? = texts.map some ∧
      others.map other.signature? = otherTexts.map some ∧
      (∃ calls, schema.describeAll? types = some calls ∧
        ∀ start, TypeCall.writeAll calls start = start ++ String.join texts) ∧
      (String.join texts = String.join otherTexts ↔ shapes = otherShapes) ∧
      (∀ text ∈ texts, CompleteType text.toList) ∧
      ∀ text ∈ texts, ∀ otherText ∈ otherTexts, text.toList <+: otherText.toList →
        text = otherText := by
  refine ⟨shapes.map Shape.text, otherShapes.map Shape.text, Schema.signatures_eq shaped,
    Schema.signatures_eq othersShaped, Schema.exists_describeAll?_eq shaped, ?_, ?_, ?_⟩
  · constructor
    · intro same
      have charsSame := congrArg String.toList same
      rw [Shape.toList_join_text, Shape.toList_join_text] at charsSame
      exact Shape.charsAll_injective charsSame
    · rintro rfl
      rfl
  · intro text textMem
    rcases List.mem_map.1 textMem with ⟨shape, _, rfl⟩
    rw [Shape.text, String.toList_ofList]
    exact shape.completeType_chars
  · intro text textMem otherText otherMem begins
    rcases List.mem_map.1 textMem with ⟨shape, _, rfl⟩
    rcases List.mem_map.1 otherMem with ⟨otherShape, _, rfl⟩
    rw [Shape.text, Shape.text, String.toList_ofList, String.toList_ofList] at begins
    rw [Shape.eq_of_prefix begins]

/-- A record of an integer and a float. -/
def Schema.points : Schema :=
  { records := [("Point", [⟨"x", .number .int32⟩, ⟨"y", .number .float32⟩])] }

theorem Schema.hasShape_point :
    Schema.points.HasShape (.declared (.record "Point"))
      (.struct [.scalar .int32, .scalar .double]) := by
  refine .record rfl ?_
  have zipped : (Schema.points.fields "Point").zip [Shape.scalar .int32, .scalar .double] =
    [(⟨"x", .number .int32⟩, .scalar .int32), (⟨"y", .number .float32⟩, .scalar .double)] := rfl
  rw [zipped, List.forall_mem_cons, List.forall_mem_cons]
  exact ⟨.number, .number, by simp⟩

/-- The record and a tuple like it print the same text, here before a sequence of bytes. -/
theorem signatures_parse_uniquely_point :
    ∃ texts otherTexts : List String,
      [DataType.declared (.record "Point"), .leaf .bytes].map Schema.points.signature? =
        texts.map some ∧
      [DataType.tuple [.number .int32, .number .float64], .sequence (.number .int8)].map
        (Schema.signature? {}) = otherTexts.map some ∧
      String.join texts = String.join otherTexts := by
  have othersShaped : List.Forall₂ (Schema.HasShape {})
      [DataType.tuple [.number .int32, .number .float64], .sequence (.number .int8)]
      [.struct [.scalar .int32, .scalar .double], .sequence (.scalar .byte)] := by
    refine .cons (.tuple rfl ?_) (.cons (.sequence .number) .nil)
    rw [List.zip_cons_cons, List.zip_cons_cons, List.forall_mem_cons, List.forall_mem_cons]
    exact ⟨.number, .number, by simp⟩
  rcases signatures_parse_uniquely Schema.points {} _ _ _ _
    (.cons Schema.hasShape_point (.cons .bytes .nil)) othersShaped with
    ⟨texts, otherTexts, textsEq, othersEq, _, same, _⟩
  exact ⟨texts, otherTexts, textsEq, othersEq, same.2 rfl⟩

end ValueBus
