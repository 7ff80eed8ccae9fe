import ValueBus.Proofs.Careful
import ValueBus.Proofs.MemoryLatch
import ValueBus.Proofs.RoundTrip

/-!
# Ranged integers keep their bounds

A ranged integer is made from an integer, read from a stream, or made by default. The first two
check the bounds, so that what comes of them lies between the bounds, however these are chosen, and
is read back from its bytes. The default falls back on the lower bound without a check. It lies
between the bounds unless nothing does: if the lower bound is above the upper one, the default is an
integer out of range, which is written like any other and refused where it is read.
-/

namespace ValueBus

namespace Range

variable {range : Range} {value kept : Int32}

theorem contains_iff :
    range.contains value = true ↔ range.least ≤ value ∧ value ≤ range.greatest := by
  simp [contains]

theorem admits_int32 (range : Range) (value : Int32) :
    range.admits (.number (.int32 value)) = range.contains value :=
  rfl

theorem exists_of_admits {leaf : Leaf} (admitted : range.admits leaf = true) :
    ∃ value, leaf = .number (.int32 value) ∧ range.contains value = true := by
  unfold admits at admitted
  split at admitted
  · exact ⟨_, rfl, admitted⟩
  · cases admitted

theorem new?_eq_some_iff :
    range.new? value = some kept ↔ range.contains value = true ∧ value = kept := by
  simp [new?]

theorem tryFrom_eq_ok_iff : range.tryFrom value = .ok kept ↔ range.new? value = some kept := by
  unfold tryFrom
  cases range.new? value <;> simp

theorem contains_defaultValue_iff :
    range.contains range.defaultValue = true ↔ range.least ≤ range.greatest := by
  unfold defaultValue
  split_ifs with zeroInside
  · -- 0 stands between the bounds, so they are in order
    rcases contains_iff.1 zeroInside with ⟨leastLe, leGreatest⟩
    exact iff_of_true zeroInside (Int32.le_trans leastLe leGreatest)
  · rw [contains_iff]
    exact and_iff_right Int32.le_rfl

/-- The error of an integer that is read and is not in range. -/
def refusal (range : Range) (value : Int32) : StreamError :=
  .invalidData (.outOfRange value.toInt range.least.toInt range.greatest.toInt)

/-- The ranged integers that are made from an integer, or read from some stream. -/
inductive Made (range : Range) : Int32 → Prop where
  | new {value kept : Int32} : range.new? value = some kept → Made range kept
  | tryFrom {value kept : Int32} : range.tryFrom value = .ok kept → Made range kept
  | read {σ : Type} [InputStream σ] {schema : Schema} {deployment : Option Deployment}
      {stream after : σ} {value : Int32} :
      schema.read (.ranged range) deployment stream = .ok (.number (.int32 value)) after →
      Made range value

/-- All ranged integers that can be obtained. -/
def Obtained (range : Range) (value : Int32) : Prop :=
  range.Made value ∨ value = range.defaultValue

/-- The default of a range from 9 down to 5 is 9, which is above the upper bound. -/
theorem default_out_of_range :
    ¬ ∀ (range : Range) (value : Int32), range.Obtained value →
      range.least ≤ value ∧ value ≤ range.greatest := by
  intro bounded
  have between := bounded ⟨9, 5⟩ 9 (Or.inr rfl)
  exact absurd between.2 (by decide)

/-- What a ranged integer promises: it lies between the bounds, the check says so, and what it is
encoded to is decoded to it. -/
structure Keeps (range : Range) (value : Int32) : Prop where
  between : range.least ≤ value ∧ value ≤ range.greatest
  valid : range.contains value = true
  returns : ∀ (schema : Schema) (deployment : Option Deployment) (limits : Limits),
    ∃ bytes, encode (.number (.int32 value)) deployment limits = .ok bytes ∧
      decode schema (.ranged range) bytes deployment limits = .ok (.number (.int32 value))

end Range

namespace Schema

variable {schema : Schema} {range : Range} {deployment : Option Deployment} {value : Int32}

/-- Whatever a stream answers, a ranged integer that is read from it is in range. -/
theorem exists_contained_of_read {σ : Type} [InputStream σ] {stream after : σ} {result : Value}
    (read : schema.read (.ranged range) deployment stream = .ok result after) :
    ∃ value, result = .number (.int32 value) ∧ range.contains value = true := by
  rw [Schema.read, program, DataType.readWith, ReadProgram.run_bind_eq_ok_iff] at read
  rcases read with ⟨leaf, middle, _, checked⟩
  split_ifs at checked with admitted
  · -- a stream may answer with any leaf; the check of the bounds passes 32-bit integers alone
    rcases Range.exists_of_admits admitted with ⟨value, rfl, inside⟩
    cases checked
    exact ⟨value, rfl, inside⟩
  · exact absurd checked Action.raise_ne_ok

/-- Where an integer is read, a ranged integer is read as the same one if it is in range; if it is
not, it is refused, and the refusal is latched. -/
theorem read_ranged_of_read {σ : Type} [InputStream σ] [LawfulInputStream σ] {stream after : σ}
    (range : Range)
    (read : schema.read (.number .int32) deployment stream = .ok (.number (.int32 value)) after) :
    schema.read (.ranged range) deployment stream =
      if range.contains value then .ok (.number (.int32 value)) after
      else .error (range.refusal value) (Latch.setError (range.refusal value) after) := by
  have started := (schema.read_refuses _ _).unlatched_of_ok read
  have unlatched := (schema.read_settles _ _ started).unlatched_of_ok read
  rw [Schema.read, program, DataType.readWith, ReadProgram.run_map_eq_ok_iff] at read
  rcases read with ⟨leaf, answered, same⟩
  cases same
  rw [Schema.read, program, DataType.readWith, ReadProgram.run_bind, Action.bind_of_ok answered,
    range.admits_int32]
  split_ifs with inside
  · rfl
  · exact Action.raise_of_unlatched unlatched

end Schema

theorem WriteCursor.bytes_putChunk_empty (chunk : Chunk) :
    (WriteCursor.putChunk {} chunk).bytes = chunk.run := by
  -- at the start there is nothing to pad
  have aligned : chunk.start 0 = 0 := by
    rw [Chunk.start, alignUp_eq chunk.fits, Nat.zero_add, Nat.and_self, Nat.sub_self]
  rw [putChunk_bytes, offset, List.length_nil, Chunk.cells, aligned]
  simp [Function.comp_def]

theorem encode_number (value : Number) (deployment : Option Deployment) (limits : Limits) :
    encode (.number value) deployment limits = .ok value.bytes :=
  Value.encode_eq_ok_iff.2 ⟨[.number value], rfl, rfl, WriteCursor.bytes_putChunk_empty _⟩

/-- The bytes of an integer out of range are not decoded: the refusal is latched and returned. -/
theorem decode_ranged_of_outside (schema : Schema) {range : Range} {value : Int32}
    (outside : ¬ range.contains value = true) (deployment : Option Deployment) (limits : Limits) :
    ∃ reader : MemoryReader,
      schema.read (.ranged range) deployment
          (MemoryReader.ofBytes (Number.int32 value).bytes limits) =
        .error (range.refusal value) reader ∧
      reader.error = some (range.refusal value) ∧
      decode schema (.ranged range) (Number.int32 value).bytes deployment limits =
        .error (.serialization (range.refusal value)) := by
  have typed : schema.HasType (.number .int32) (.number (.int32 value)) :=
    @Schema.HasType.leaf _ (.number (.int32 value))
  have passed := ReadCursor.passAll?_putChunks [.number (.int32 value)]
  rw [WriteCursor.putChunks_singleton, WriteCursor.bytes_putChunk_empty] at passed
  have read := @Schema.HasType.read_of_none schema limits _ _ typed deployment _ _ _ rfl passed rfl
  have refused : schema.read (.ranged range) deployment
      (MemoryReader.ofBytes (Number.int32 value).bytes limits) =
        .error (range.refusal value) _ :=
    (schema.read_ranged_of_read range read).trans (if_neg outside)
  refine ⟨_, refused, rfl, ?_⟩
  rw [decode, refused]
  rfl

namespace Range

variable {range : Range} {value : Int32}

theorem Made.contains (made : range.Made value) : range.contains value = true := by
  cases made with
  | new made =>
      rcases new?_eq_some_iff.1 made with ⟨inside, rfl⟩
      exact inside
  | tryFrom made =>
      rcases new?_eq_some_iff.1 (tryFrom_eq_ok_iff.1 made) with ⟨inside, rfl⟩
      exact inside
  | read read =>
      rcases Schema.exists_contained_of_read read with ⟨_, same, inside⟩
      cases same
      exact inside

theorem keeps_iff : range.Keeps value ↔ range.contains value = true := by
  refine ⟨Keeps.valid, fun inside => ⟨contains_iff.1 inside, inside, ?_⟩⟩
  intro schema deployment limits
  have encoded := encode_number (.int32 value) deployment limits
  exact ⟨_, encoded, decode_of_encode (.ranged inside) encoded⟩

end Range

/-- Ranged integers that are made from an integer or read from a stream keep what they promise,
whatever their bounds are; all that can be obtained do so exactly if the bounds are in order. An
integer that was encoded is decoded as a ranged integer exactly if it lies between the bounds, and
otherwise its refusal is latched and returned. -/
theorem ranged_integers_kept (range : Range) :
    (∀ value, range.Made value → range.Keeps value) ∧
    ((∀ value, range.Obtained value → range.Keeps value) ↔ range.least ≤ range.greatest) ∧
    ∀ (schema : Schema) (value : Int32) (deployment : Option Deployment) (limits : Limits),
      ∃ bytes, encode (.number (.int32 value)) deployment limits = .ok bytes ∧
        ((∃ result, decode schema (.ranged range) bytes deployment limits = .ok result) ↔
          range.least ≤ value ∧ value ≤ range.greatest) ∧
        (¬ (range.least ≤ value ∧ value ≤ range.greatest) →
          ∃ reader : MemoryReader,
            schema.read (.ranged range) deployment (MemoryReader.ofBytes bytes limits) =
              .error (range.refusal value) reader ∧
            reader.error = some (range.refusal value) ∧
            decode schema (.ranged range) bytes deployment limits =
              .error (.serialization (range.refusal value))) := by
  refine ⟨fun value made => Range.keeps_iff.2 made.contains, ⟨?_, ?_⟩, ?_⟩
  · intro allKeep
    exact Range.contains_defaultValue_iff.1 (allKeep _ (Or.inr rfl)).valid
  · intro ordered value obtained
    rcases obtained with made | rfl
    · exact Range.keeps_iff.2 made.contains
    · exact Range.keeps_iff.2 (Range.contains_defaultValue_iff.2 ordered)
  · intro schema value deployment limits
    have encoded := encode_number (.int32 value) deployment limits
    refine ⟨_, encoded, ⟨?_, ?_⟩, ?_⟩
    · rintro ⟨result, decoded⟩
      rw [← Range.contains_iff]
      by_cases inside : range.contains value = true
      · exact inside
      · rcases decode_ranged_of_outside schema inside deployment limits with ⟨_, _, _, refused⟩
        rw [refused] at decoded
        cases decoded
    · intro between
      have typed : schema.HasType (.ranged range) (.number (.int32 value)) :=
        .ranged (Range.contains_iff.2 between)
      exact ⟨_, decode_of_encode typed encoded⟩
    · intro outside
      rw [← Range.contains_iff] at outside
      exact decode_ranged_of_outside schema outside deployment limits

/-- The upper bound of a range in order, made from an integer; and the default of a range whose
bounds are crossed, which is encoded and not decoded. -/
theorem ranged_integers_kept_crossed :
    let crossed : Range := ⟨9, 5⟩
    let fault : StreamError := .invalidData (.outOfRange 9 9 5)
    (Range.tryFrom ⟨-5, 5⟩ 5 = .ok 5 ∧ Range.Keeps ⟨-5, 5⟩ 5) ∧
      encode (.number (.int32 crossed.defaultValue)) none {} = .ok [9, 0, 0, 0] ∧
      ∃ reader : MemoryReader,
        Schema.read {} (.ranged crossed) none (MemoryReader.ofBytes [9, 0, 0, 0] {}) =
          .error fault reader ∧
        reader.error = some fault ∧
        decode {} (.ranged crossed) [9, 0, 0, 0] none {} = .error (.serialization fault) := by
  intro crossed fault
  have made : Range.tryFrom ⟨-5, 5⟩ 5 = .ok 5 := rfl
  have spelled : encode (.number (.int32 9)) none {} = .ok [9, 0, 0, 0] := rfl
  have outside : ¬ (crossed.least ≤ 9 ∧ 9 ≤ crossed.greatest) := by decide
  rcases ranged_integers_kept ⟨-5, 5⟩ with ⟨kept, _, _⟩
  rcases ranged_integers_kept crossed with ⟨_, _, decoded⟩
  rcases decoded {} 9 none {} with ⟨bytes, encoded, _, refused⟩
  rw [spelled] at encoded
  cases encoded
  exact ⟨⟨made, kept 5 (.tryFrom made)⟩, spelled, refused outside⟩

end ValueBus
