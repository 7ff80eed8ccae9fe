import ValueBus.Proofs.RoundTrip
import ValueBus.Proofs.Sound

/-!
# What decoding accepts

Starting from arbitrary bytes: whatever is decoded can be encoded again under the same limits, and
decodes to itself. The bytes need not be those that encoding gives, for two reasons only: padding is
not looked at, and the entries of a map may have come in another order. For a type without maps the
bytes that decode to a value are exactly its encoding with arbitrary padding.
-/

namespace ValueBus

open WriteStep

/-- The bytes that a value is encoded as, none for those that are padding. -/
def Value.layout (value : Value) (deployment : Option Deployment) : List (Option UInt8) :=
  Chunk.cellsAll ((chunksAll? (value.steps deployment)).getD []) 0

variable {schema : Schema} {type : DataType} {value : Value} {deployment : Option Deployment}
  {limits : Limits} {bytes : List UInt8}

/-- Encoding fills the padding of the layout with zeros. -/
theorem eq_fill_of_encode {written : List UInt8}
    (encoded : encode value deployment limits = .ok written) :
    written = (value.layout deployment).map (·.getD 0) := by
  rcases Value.encode_eq_ok_iff.1 encoded with ⟨chunks, described, _, rfl⟩
  simp only [Value.layout, described, Option.getD_some]
  exact WriteCursor.putChunks_bytes {} chunks

theorem encode_of_writable (writable : Writable limits 0 (value.steps deployment)) :
    ∃ written, encode value deployment limits = .ok written := by
  rcases writable.described with ⟨chunks, described⟩
  exact ⟨_, Value.encode_eq_ok_iff.2 ⟨chunks, described, writable.within, rfl⟩⟩

/-- What is decoded was read, up to the last byte. -/
theorem read_of_decode (decoded : decode schema type bytes deployment limits = .ok value) :
    ∃ reader : MemoryReader,
      schema.read type deployment (MemoryReader.unlatched limits [] { bytes }) =
        .ok value reader ∧ reader.finish = .ok () := by
  have started : MemoryReader.ofBytes bytes limits = .unlatched limits [] { bytes } := rfl
  simp only [decode, started] at decoded
  cases result : schema.read type deployment (MemoryReader.unlatched limits [] { bytes }) with
  | error fault reader => simp [result] at decoded
  | ok found reader =>
      rw [result] at decoded
      cases finished : reader.finish with
      | error fault => simp [finished, Except.mapError, bind, Except.bind] at decoded
      | ok _ =>
          simp only [finished, Except.mapError, bind, Except.bind, pure, Except.pure,
            Except.ok.injEq] at decoded
          exact ⟨reader, by rw [decoded], finished⟩

/-- What is decoded is a value of the type, and the bytes spell its steps to the end. -/
theorem spells_of_decode (decoded : decode schema type bytes deployment limits = .ok value) :
    schema.HasType type value ∧ ∃ final : ReadCursor, final.bytes.length ≤ final.offset ∧
      Spells limits 0 (schema.MapFree type) { bytes } final (value.steps deployment) := by
  rcases read_of_decode decoded with ⟨reader, read, finished⟩
  rcases schema.sound_program _ type read with ⟨typed, final, rfl, spelled⟩
  refine ⟨typed, final, ?_, spelled⟩
  by_cases ended : final.bytes.length ≤ final.offset
  · exact ended
  · simp [MemoryReader.finish, MemoryReader.unlatched, ReadCursor.atEnd, ended] at finished

/-- Bytes agree with a layout if they are its filling everywhere but in the padding. -/
theorem agrees_iff_eq_fill {cells : List (Option UInt8)} (lengthEq : cells.length = bytes.length) :
    Agrees cells bytes ↔ ∀ position : Nat, cells[position]? ≠ some none →
      bytes[position]? = (cells.map (·.getD 0))[position]? := by
  constructor
  · intro agrees position solid
    simp only [List.getElem?_map]
    cases found : cells[position]? with
    | none =>
        rw [List.getElem?_eq_none_iff, lengthEq, ← List.getElem?_eq_none_iff] at found
        rw [found]
        rfl
    | some cell =>
        cases cell with
        | none => exact absurd found solid
        | some byte => exact agrees position byte found
  · intro same position byte found
    rw [same position (by simp [found]), List.getElem?_map, found]
    rfl

/-- Decoding accepts exactly the encodings. Whatever is decoded can be encoded again, with the
entries of its unordered maps in any order, and the bytes decode to what was encoded. For a type
without maps, the bytes that decode to a value are those of its encoding, except that padding may
hold anything; the encoding itself fills it with zeros. -/
theorem decode_accepts_encodings (schema : Schema) (type : DataType) (bytes : List UInt8)
    (deployment : Option Deployment) (limits : Limits) (value : Value) :
    (decode schema type bytes deployment limits = .ok value →
      (∃ written, encode value deployment limits = .ok written ∧
        decode schema type written deployment limits = .ok value) ∧
      ∀ again, value.Rearranged again → schema.HasType type again →
        ∃ written, encode again deployment limits = .ok written ∧
          decode schema type written deployment limits = .ok again) ∧
    (schema.MapFree type →
      (decode schema type bytes deployment limits = .ok value ↔
        schema.HasType type value ∧ ∃ written, encode value deployment limits = .ok written ∧
          written.length = bytes.length ∧ ∀ position : Nat,
            (value.layout deployment)[position]? ≠ some none →
              bytes[position]? = written[position]?)) ∧
    (∀ written, encode value deployment limits = .ok written →
      written = (value.layout deployment).map (·.getD 0)) := by
  refine ⟨?_, ?_, fun written encoded => eq_fill_of_encode encoded⟩
  · intro decoded
    rcases spells_of_decode decoded with ⟨typed, final, _, spelled⟩
    have againDecodes (again : Value) (rearranged : value.Rearranged again)
        (againTyped : schema.HasType type again) :
        ∃ written, encode again deployment limits = .ok written ∧
          decode schema type written deployment limits = .ok again := by
      rcases encode_of_writable (rearranged.writable spelled.writable) with ⟨written, encoded⟩
      exact ⟨written, encoded, decode_of_encode againTyped encoded⟩
    exact ⟨againDecodes value (.refl value) typed, againDecodes⟩
  · intro free
    constructor
    · intro decoded
      rcases spells_of_decode decoded with ⟨typed, final, ended, spelled⟩
      rcases encode_of_writable spelled.writable with ⟨written, encoded⟩
      rcases spelled.passed free with ⟨chunks, described, passed⟩
      have filled := eq_fill_of_encode encoded
      have layoutEq : value.layout deployment = Chunk.cellsAll chunks 0 := by
        simp only [Value.layout, described, Option.getD_some]
      rcases (ReadCursor.passAll?_eq_some_iff (Nat.zero_le _)).1 passed with
        ⟨⟨inside, agrees⟩, rfl⟩
      have lengthEq : (value.layout deployment).length = bytes.length := by
        simp only [layoutEq, Nat.zero_add] at *
        omega
      refine ⟨typed, written, encoded, ?_, ?_⟩
      · simp only [filled, List.length_map, lengthEq]
      · rw [filled]
        exact (agrees_iff_eq_fill lengthEq).1 (layoutEq ▸ agrees)
    · rintro ⟨typed, written, encoded, lengthEq, same⟩
      rcases Value.encode_eq_ok_iff.1 encoded with ⟨chunks, described, within, _⟩
      have filled := eq_fill_of_encode encoded
      have layoutEq : value.layout deployment = Chunk.cellsAll chunks 0 := by
        simp only [Value.layout, described, Option.getD_some]
      simp only [filled, List.length_map] at lengthEq
      rw [filled] at same
      have agrees := (agrees_iff_eq_fill lengthEq).2 same
      rw [layoutEq] at agrees lengthEq
      refine decode_of_read (typed.read_of_none deployment described ?_ within)
      refine (ReadCursor.passAll?_eq_some_iff (Nat.zero_le _)).2 ⟨⟨?_, ?_⟩, ?_⟩
      · simp [lengthEq]
      · simpa using agrees
      · simp [lengthEq]

/-- A flag and a number with a byte of padding between them, which is not zero. -/
theorem decode_accepts_encodings_padded :
    let type : DataType := .tuple [.leaf .bool, .number .uint16]
    let value : Value := .record [.leaf (.bool true), .number (.uint16 7)]
    decode {} type [1, 5, 7, 0] none {} = .ok value ∧
      ∃ written, encode value none {} = .ok written ∧
        decode {} type written none {} = .ok value := by
  intro type value
  have typed : Schema.HasType {} type value := by
    refine .tuple rfl ?_
    rw [List.zip_cons_cons, List.zip_cons_cons, List.zip_nil_left, List.forall_mem_cons,
      List.forall_mem_singleton]
    exact ⟨@Schema.HasType.leaf _ (.bool true), @Schema.HasType.leaf _ (.number (.uint16 7))⟩
  have free : Schema.MapFree {} type := by
    intro mapOrder key item occurs
    change Schema.Occurs {} _ (.tuple [.leaf .bool, .number .uint16]) at occurs
    cases occurs with
    | member itemMem occurs =>
        rcases List.mem_cons.1 itemMem with rfl | itemMem
        · cases occurs
        · rw [List.mem_singleton.1 itemMem] at occurs
          cases occurs
  have encoded : encode value none {} = .ok [1, 0, 7, 0] := rfl
  have accepts (bytes : List UInt8) := decode_accepts_encodings {} type bytes none {} value
  have decoded : decode {} type [1, 5, 7, 0] none {} = .ok value := by
    refine ((accepts _).2.1 free).2 ⟨typed, _, encoded, rfl, fun position solid => ?_⟩
    match position with
    | 0 | 2 | 3 => rfl
    | 1 => exact absurd rfl solid
    | _ + 4 => rfl
  exact ⟨decoded, ((accepts _).1 decoded).1⟩

end ValueBus
