import Mathlib.Data.Set.List
import ValueBus.Proofs.Careful
import ValueBus.Proofs.MemoryLatch
import ValueBus.Proofs.Sound
import ValueBus.Proofs.TypedReading
import ValueBus.Proofs.Writing

/-!
# Byte buffers and sequences of bytes

A run of bytes can be sent as a byte buffer, in one piece, or as a sequence whose items are numbers
of one byte. Both forms have the same length field and the same bytes behind it: a number of one
byte is never padded, and the frame around the items puts nothing. So a reader finds one form
exactly where it finds the other, and only limits tell them apart: that on texts and buffers bounds
the one, those on items and on open frames bound the other.
-/

namespace ValueBus

open WriteStep

namespace Chunk

/-- The bytes of a run, each in a chunk of its own. -/
def octets (run : List UInt8) : List Chunk :=
  run.map fun byte => plain [byte]

theorem cells_plain (run : List UInt8) (offset : Nat) :
    (plain run).cells offset = run.map some := by
  rw [cells, start_plain, Nat.sub_self]
  rfl

theorem cellsAll_octets (run : List UInt8) (offset : Nat) :
    cellsAll (octets run) offset = run.map some := by
  induction run generalizing offset with
  | nil => rfl
  | cons byte rest ih =>
      have split : octets (byte :: rest) = plain [byte] :: octets rest := rfl
      rw [split, cellsAll, cells_plain, ih]
      rfl

end Chunk

/-- A run is put in one piece as it is put byte by byte. -/
theorem WriteCursor.putChunks_octets (cursor : WriteCursor) (run : List UInt8) :
    cursor.putChunks (Chunk.octets run) = cursor.putChunk (.plain run) := by
  have bytesEq : (cursor.putChunks (Chunk.octets run)).bytes =
      (cursor.putChunk (.plain run)).bytes := by
    rw [putChunks_bytes, putChunk_bytes, Chunk.cellsAll_octets, Chunk.cells_plain]
  exact congrArg WriteCursor.mk bytesEq

theorem WriteCursor.putChunks_cons_octets (cursor : WriteCursor) (field : Chunk)
    (run : List UInt8) :
    cursor.putChunks (field :: Chunk.octets run) = cursor.putChunks [field, .plain run] :=
  (cursor.putChunk field).putChunks_octets run

namespace ReadCursor

variable {cursor : ReadCursor}

theorem passAll?_octets (inside : cursor.offset ≤ cursor.bytes.length) (run : List UInt8) :
    cursor.passAll? (Chunk.octets run) = cursor.pass? (.plain run) := by
  apply Option.ext
  intro after
  rw [passAll?_eq_some_iff inside, pass?_iff_agrees, Chunk.cellsAll_octets, Chunk.cells_plain]

/-- Behind a length field, a run is passed in one piece where it is passed byte by byte. -/
theorem passAll?_cons_octets (field : Chunk) (run : List UInt8) :
    cursor.passAll? (field :: Chunk.octets run) = cursor.passAll? [field, .plain run] := by
  apply Option.bind_congr
  intro middle passed
  rcases pass?_eq_some_iff.1 passed with ⟨⟨inside, _⟩, rfl⟩
  rw [passAll?_octets inside, passAll?_singleton]

end ReadCursor

/-- A run of bytes as a sequence of numbers. -/
def Value.octets (run : List UInt8) : Value :=
  .sequence (run.map fun byte => .number (.uint8 byte))

/-- The type of a sequence of bytes. -/
def DataType.octets : DataType :=
  .sequence (.leaf (.number .uint8))

namespace Value

theorem chunksAll?_bytes (run : List UInt8) (deployment : Option Deployment) :
    chunksAll? ((leaf (.bytes run)).steps deployment) =
      (Chunk.length? run.length deployment).map fun field => [field, .plain run] := by
  simp [steps, chunksAll?, chunks?, WriteCall.chunks?]

theorem chunksAll?_itemSteps_octets (run : List UInt8) (deployment : Option Deployment) :
    chunksAll? (itemSteps (run.map fun byte => .number (.uint8 byte)) deployment) =
      some (Chunk.octets run) := by
  induction run with
  | nil => rfl
  | cons byte rest ih =>
      have spelled : Chunk.number (.uint8 byte) = .plain [byte] := by
        simp [Chunk.number, Chunk.plain, Number.bytes, Number.kind, Number.bits, NumberKind.size,
          LittleEndian.bytes]
      rw [List.map_cons, itemSteps, chunksAll?_append, ih]
      simp [steps, number, chunksAll?, chunks?, WriteCall.chunks?, spelled, Chunk.octets]

theorem chunksAll?_octets (run : List UInt8) (deployment : Option Deployment) :
    chunksAll? ((octets run).steps deployment) =
      (Chunk.length? run.length deployment).map fun field => field :: Chunk.octets run := by
  have left : chunksAll? [leaving .sequence] = some [] := rfl
  rw [octets, steps, List.cons_append, chunksAll?, chunksAll?_append, chunksAll?_itemSteps_octets,
    left]
  cases described : Chunk.length? run.length deployment <;>
    simp [entering, chunks?, WriteCall.chunks?, described]

end Value

/-- A program that reads steps back answers with their value or fails with a limit. -/
theorem ReadsAs.answers_or_limited {α : Type} {limits : Limits} {before after : List ReadFrame}
    {steps : List WriteStep} {program : ReadProgram α} {value : α}
    (reads : ReadsAs limits before steps program value after) {cursor final : ReadCursor}
    {chunks : List Chunk} (described : chunksAll? steps = some chunks)
    (passed : cursor.passAll? chunks = some final) :
    program.run (MemoryReader.unlatched limits before cursor) =
        .ok value (MemoryReader.unlatched limits after final) ∨
      ∃ what limit actual failed, program.run (MemoryReader.unlatched limits before cursor) =
        .error (.limitExceeded what limit actual) failed := by
  cases broken : limitFaultAll? limits before.length steps with
  | none => exact .inl (reads.answers described passed broken)
  | some fault =>
      rcases limitFaultAll?_eq_some broken with ⟨what, limit, actual, rfl⟩
      exact .inr ⟨what, limit, actual, reads.refuses described passed broken⟩

namespace Schema

/-- A type that carries runs of bytes: its values are the runs in one form, which its program reads
back, and whose bytes are a length field and the run. -/
structure CarriesRuns (schema : Schema) (type : DataType) (form : List UInt8 → Value) : Prop where
  readsAs : ∀ (run : List UInt8) {limits : Limits} {frames : List ReadFrame} (allowance : Nat)
    (deployment : Option Deployment), ReadsAs limits frames ((form run).steps deployment)
      (schema.program allowance type deployment) (form run) frames
  exists_run : ∀ {value : Value}, schema.HasType type value → ∃ run, value = form run
  mapFree : schema.MapFree type
  spelled_iff : ∀ (run : List UInt8) (deployment : Option Deployment) {cursor final : ReadCursor},
    (∃ chunks, chunksAll? ((form run).steps deployment) = some chunks ∧
      cursor.passAll? chunks = some final) ↔
    ∃ field, Chunk.length? run.length deployment = some field ∧
      cursor.passAll? [field, .plain run] = some final

theorem mapFree_leaf (schema : Schema) (kind : LeafKind) : schema.MapFree (.leaf kind) := by
  intro mapOrder key value occurs
  cases occurs

theorem MapFree.sequence {schema : Schema} {item : DataType} (free : schema.MapFree item) :
    schema.MapFree (.sequence item) := by
  intro mapOrder key value occurs
  cases occurs with
  | item occurs => exact free mapOrder key value occurs

theorem HasType.exists_leaf {schema : Schema} {kind : LeafKind} {value : Value}
    (typed : schema.HasType (.leaf kind) value) :
    ∃ leaf : Leaf, Value.leaf leaf = value ∧ leaf.kind = kind := by
  generalize expected : DataType.leaf kind = type at typed
  cases typed with
  | @leaf found =>
      cases expected
      exact ⟨found, rfl, rfl⟩
  | _ => cases expected

theorem HasType.exists_byte {schema : Schema} {value : Value}
    (typed : schema.HasType (.leaf (.number .uint8)) value) :
    ∃ byte, Value.number (.uint8 byte) = value := by
  rcases typed.exists_leaf with ⟨leaf, rfl, kindEq⟩
  cases leaf with
  | number number =>
      cases number with
      | uint8 byte => exact ⟨byte, rfl⟩
      | _ => cases kindEq
  | _ => cases kindEq

theorem carriesRuns_bytes (schema : Schema) :
    schema.CarriesRuns (.leaf .bytes) fun run => .leaf (.bytes run) where
  readsAs run _ _ _ deployment := (ReadsAs.leaf (.bytes run) deployment).map Value.leaf
  exists_run typed := by
    rcases typed.exists_leaf with ⟨leaf, rfl, kindEq⟩
    cases leaf with
    | bytes run => exact ⟨run, rfl⟩
    | _ => cases kindEq
  mapFree := schema.mapFree_leaf .bytes
  spelled_iff run deployment cursor final := by
    simp only [Value.chunksAll?_bytes, Option.map_eq_some_iff, exists_exists_and_eq_and]

theorem carriesRuns_octets (schema : Schema) : schema.CarriesRuns .octets Value.octets where
  readsAs run limits frames allowance deployment := by
    rw [Value.octets, Value.steps]
    refine ReadsAs.repeated .sequence (by rfl) (by rfl) (by simp) fun _ => ReadsAs.items ?_ []
    intro item itemMem count
    rcases List.mem_map.1 itemMem with ⟨byte, _, rfl⟩
    exact (ReadsAs.leaf (.number (.uint8 byte)) _).map Value.leaf
  exists_run typed := by
    cases typed with
    | sequence itemsTyped =>
        have spelled := Set.range_list_map fun byte => Value.number (.uint8 byte)
        rcases spelled.ge fun item itemMem => (itemsTyped item itemMem).exists_byte with
          ⟨run, rfl⟩
        exact ⟨run, rfl⟩
  mapFree := (schema.mapFree_leaf _).sequence
  spelled_iff run deployment cursor final := by
    simp only [Value.chunksAll?_octets, Option.map_eq_some_iff, exists_exists_and_eq_and,
      ReadCursor.passAll?_cons_octets]

namespace CarriesRuns

variable {schema : Schema} {type other : DataType} {form otherForm : List UInt8 → Value}

/-- Where a run is read in one form, the bytes of the run stand behind its length field. -/
theorem exists_run_of_read (carries : schema.CarriesRuns type form) {reader after : MemoryReader}
    {deployment : Option Deployment} {value : Value}
    (answered : schema.read type deployment reader = .ok value after) :
    ∃ run field final, value = form run ∧ reader.error = none ∧
      Chunk.length? run.length deployment = some field ∧
        reader.cursor.passAll? [field, .plain run] = some final ∧
          after = { reader with cursor := final } := by
  have unlatched : reader.error = none :=
    (schema.read_refuses type deployment).unlatched_of_ok answered
  rcases reader with ⟨cursor, frames, limits, error⟩
  cases unlatched
  rcases schema.sound_program _ type answered with ⟨typed, final, rfl, spells⟩
  rcases carries.exists_run typed with ⟨run, rfl⟩
  rcases (carries.spelled_iff run deployment).1 (spells.passed carries.mapFree) with
    ⟨field, described, passed⟩
  exact ⟨run, field, final, rfl, rfl, described, passed, rfl⟩

/-- Where a run stands it is read in either form, or a limit is exceeded. -/
theorem read_or_limited (carries : schema.CarriesRuns type form) {reader : MemoryReader}
    {deployment : Option Deployment} {run : List UInt8} {field : Chunk} {final : ReadCursor}
    (unlatched : reader.error = none)
    (described : Chunk.length? run.length deployment = some field)
    (passed : reader.cursor.passAll? [field, .plain run] = some final) :
    schema.read type deployment reader = .ok (form run) { reader with cursor := final } ∨
      ∃ what limit actual failed, schema.read type deployment reader =
        .error (.limitExceeded what limit actual) failed := by
  rcases reader with ⟨cursor, frames, limits, error⟩
  cases unlatched
  rcases (carries.spelled_iff run deployment).2 ⟨field, described, passed⟩ with
    ⟨chunks, chunksDescribed, chunksPassed⟩
  exact (carries.readsAs run _ deployment).answers_or_limited chunksDescribed chunksPassed

/-- What is read in one form is read in another, with the same run and to the same position, unless
the other form exceeds a limit. -/
theorem read_other (carries : schema.CarriesRuns type form)
    (others : schema.CarriesRuns other otherForm) {reader after : MemoryReader}
    {deployment : Option Deployment} {value : Value}
    (answered : schema.read type deployment reader = .ok value after) :
    ∃ run, value = form run ∧
      (schema.read other deployment reader = .ok (otherForm run) after ∨
        ∃ what limit actual failed, schema.read other deployment reader =
          .error (.limitExceeded what limit actual) failed) := by
  rcases carries.exists_run_of_read answered with
    ⟨run, field, final, rfl, unlatched, described, passed, rfl⟩
  exact ⟨run, rfl, others.read_or_limited unlatched described passed⟩

theorem agree_of_reads (carries : schema.CarriesRuns type form)
    (others : schema.CarriesRuns other otherForm) {reader after otherAfter : MemoryReader}
    {deployment : Option Deployment} {value otherValue : Value}
    (answered : schema.read type deployment reader = .ok value after)
    (otherAnswered : schema.read other deployment reader = .ok otherValue otherAfter) :
    ∃ run, value = form run ∧ otherValue = otherForm run ∧ after = otherAfter := by
  rcases carries.read_other others answered with
    ⟨run, rfl, same | ⟨what, limit, actual, failed, limited⟩⟩
  · rw [same] at otherAnswered
    cases otherAnswered
    exact ⟨run, rfl, rfl, rfl⟩
  · rw [limited] at otherAnswered
    cases otherAnswered

theorem limited_of_read (carries : schema.CarriesRuns type form)
    (others : schema.CarriesRuns other otherForm) {reader after failed : MemoryReader}
    {deployment : Option Deployment} {value : Value} {fault : StreamError}
    (answered : schema.read type deployment reader = .ok value after)
    (otherFailed : schema.read other deployment reader = .error fault failed) :
    ∃ what limit actual, fault = .limitExceeded what limit actual := by
  rcases carries.read_other others answered with
    ⟨run, rfl, same | ⟨what, limit, actual, failed, limited⟩⟩
  · rw [same] at otherFailed
    cases otherFailed
  · rw [limited] at otherFailed
    cases otherFailed
    exact ⟨what, limit, actual, rfl⟩

end CarriesRuns

end Schema

/-- A value that is written leaves its chunks behind what the writer held before. -/
theorem Value.exists_chunks_of_write {value : Value} {deployment : Option Deployment}
    {writer after : MemoryWriter} (written : value.write deployment writer = .ok () after) :
    ∃ chunks, chunksAll? (value.steps deployment) = some chunks ∧
      after = { writer with cursor := writer.cursor.putChunks chunks } := by
  have unlatched : writer.error = none := (value.write_refuses deployment).unlatched_of_ok written
  rcases (MemoryWriter.runAll_eq_ok_iff (value.balanced_steps deployment) unlatched).1 written with
    ⟨chunks, described, _, rfl⟩
  exact ⟨chunks, described, rfl⟩

/-- A buffer and a sequence of one run leave the same writer. -/
theorem Value.writer_eq_of_writes {run : List UInt8} {deployment : Option Deployment}
    {writer buffered counted : MemoryWriter}
    (bufferWritten : (leaf (.bytes run)).write deployment writer = .ok () buffered)
    (octetsWritten : (octets run).write deployment writer = .ok () counted) :
    buffered = counted := by
  rcases exists_chunks_of_write bufferWritten with ⟨chunks, described, rfl⟩
  rcases exists_chunks_of_write octetsWritten with ⟨others, othersDescribed, rfl⟩
  rw [chunksAll?_bytes] at described
  rw [chunksAll?_octets] at othersDescribed
  rcases Option.map_eq_some_iff.1 described with ⟨field, fieldDescribed, rfl⟩
  rcases Option.map_eq_some_iff.1 othersDescribed with ⟨same, sameDescribed, rfl⟩
  cases fieldDescribed.symm.trans sameDescribed
  rw [WriteCursor.putChunks_cons_octets]

theorem Value.exists_appended_of_write {value : Value} {deployment : Option Deployment}
    {writer after : MemoryWriter} (written : value.write deployment writer = .ok () after) :
    ∃ appended, after.bytes = writer.bytes ++ appended := by
  rcases exists_chunks_of_write written with ⟨chunks, _, rfl⟩
  exact ⟨_, writer.cursor.putChunks_bytes chunks⟩

/-- A byte buffer and a sequence of bytes agree. Where both are written, behind whatever a writer
holds, they append the same bytes. Where both are read, from whatever position and within whatever
frames, they give the same bytes and leave the same reader. Where only one of them is read, the
other exceeds a limit. -/
theorem byte_runs_agree (schema : Schema) (deployment : Option Deployment) :
    (∀ (run : List UInt8) (writer buffered counted : MemoryWriter),
      (Value.leaf (.bytes run)).write deployment writer = .ok () buffered →
      (Value.octets run).write deployment writer = .ok () counted →
      buffered = counted ∧ ∃ appended, buffered.bytes = writer.bytes ++ appended) ∧
    (∀ (reader buffered counted : MemoryReader) (buffer octets : Value),
      schema.read (.leaf .bytes) deployment reader = .ok buffer buffered →
      schema.read .octets deployment reader = .ok octets counted →
      ∃ run, buffer = .leaf (.bytes run) ∧ octets = Value.octets run ∧ buffered = counted) ∧
    (∀ (reader buffered failed : MemoryReader) (buffer : Value) (fault : StreamError),
      schema.read (.leaf .bytes) deployment reader = .ok buffer buffered →
      schema.read .octets deployment reader = .error fault failed →
      ∃ what limit actual, fault = .limitExceeded what limit actual) ∧
    ∀ (reader counted failed : MemoryReader) (octets : Value) (fault : StreamError),
      schema.read .octets deployment reader = .ok octets counted →
      schema.read (.leaf .bytes) deployment reader = .error fault failed →
      ∃ what limit actual, fault = .limitExceeded what limit actual := by
  have buffers := schema.carriesRuns_bytes
  have sequences := schema.carriesRuns_octets
  refine ⟨?_, ?_, ?_, ?_⟩
  · intro run writer buffered counted bufferWritten octetsWritten
    exact ⟨Value.writer_eq_of_writes bufferWritten octetsWritten,
      Value.exists_appended_of_write bufferWritten⟩
  · intro reader buffered counted buffer octets bufferRead octetsRead
    exact buffers.agree_of_reads sequences bufferRead octetsRead
  · intro reader buffered failed buffer fault bufferRead octetsFailed
    exact buffers.limited_of_read sequences bufferRead octetsFailed
  · intro reader counted failed octets fault octetsRead bufferFailed
    exact sequences.limited_of_read buffers octetsRead bufferFailed

/-- A reader of three bytes, which stand with their length behind another byte. -/
def MemoryReader.ofThree (offset : Nat) (limits : Limits) : MemoryReader :=
  unlatched limits [] ⟨[9, 0, 0, 0, 3, 0, 0, 0, 1, 2, 3], offset⟩

/-- Three bytes that are written and read in both forms, and read in one form where the limit of the
other is two. -/
theorem byte_runs_agree_three :
    (∃ writer : MemoryWriter,
      (Value.leaf (.bytes [1, 2, 3])).write none { cursor := ⟨[9]⟩ } = .ok () writer ∧
      (Value.octets [1, 2, 3]).write none { cursor := ⟨[9]⟩ } = .ok () writer ∧
      ∃ appended, writer.bytes = [9] ++ appended) ∧
    (∃ run, Schema.read {} (.leaf .bytes) none (MemoryReader.ofThree 1 {}) =
        .ok (.leaf (.bytes run)) (.ofThree 11 {}) ∧
      Schema.read {} .octets none (MemoryReader.ofThree 1 {}) =
        .ok (.octets run) (.ofThree 11 {})) ∧
    (∃ what limit actual failed,
      Schema.read {} .octets none (MemoryReader.ofThree 1 { maxSequenceLength := 2 }) =
        .error (.limitExceeded what limit actual) failed) ∧
    ∃ what limit actual failed,
      Schema.read {} (.leaf .bytes) none (MemoryReader.ofThree 1 { maxStringLength := 2 }) =
        .error (.limitExceeded what limit actual) failed := by
  have bufferDescribed : chunksAll? ((Value.leaf (.bytes [1, 2, 3])).steps none) = some _ := rfl
  have octetsDescribed : chunksAll? ((Value.octets [1, 2, 3]).steps none) = some _ := rfl
  have bufferReads {limits : Limits} := @(Schema.carriesRuns_bytes {}).readsAs [1, 2, 3] limits []
  have octetsReads {limits : Limits} := @(Schema.carriesRuns_octets {}).readsAs [1, 2, 3] limits []
  rcases byte_runs_agree {} none with ⟨writes, reads, longSequence, longBuffer⟩
  refine ⟨?_, ?_, ?_, ?_⟩
  · let writer : MemoryWriter := { cursor := ⟨[9, 0, 0, 0, 3, 0, 0, 0, 1, 2, 3]⟩ }
    have agreed := writes [1, 2, 3] { cursor := ⟨[9]⟩ } writer writer rfl rfl
    exact ⟨writer, rfl, rfl, agreed.2⟩
  · have buffered : Schema.read {} (.leaf .bytes) none (MemoryReader.ofThree 1 {}) =
        .ok (.leaf (.bytes [1, 2, 3])) (.ofThree 11 {}) :=
      (bufferReads _ none).answers bufferDescribed rfl rfl
    have counted : Schema.read {} .octets none (MemoryReader.ofThree 1 {}) =
        .ok (.octets [1, 2, 3]) (.ofThree 11 {}) :=
      (octetsReads _ none).answers octetsDescribed rfl rfl
    rcases reads _ _ _ _ _ buffered counted with ⟨run, bufferEq, octetsEq, _⟩
    exact ⟨run, bufferEq ▸ buffered, octetsEq ▸ counted⟩
  · have buffered : Schema.read {} (.leaf .bytes) none
        (MemoryReader.ofThree 1 { maxSequenceLength := 2 }) =
          .ok (.leaf (.bytes [1, 2, 3])) (.ofThree 11 { maxSequenceLength := 2 }) :=
      (bufferReads _ none).answers bufferDescribed rfl rfl
    have refused : ∃ failed, Schema.read {} .octets none
        (MemoryReader.ofThree 1 { maxSequenceLength := 2 }) =
          .error (.limitExceeded .sequence 2 3) failed :=
      (octetsReads _ none).refuses octetsDescribed rfl rfl
    rcases refused with ⟨failed, refused⟩
    rcases longSequence _ _ _ _ _ buffered refused with ⟨what, limit, actual, faultEq⟩
    exact ⟨what, limit, actual, failed, faultEq ▸ refused⟩
  · have counted : Schema.read {} .octets none
        (MemoryReader.ofThree 1 { maxStringLength := 2 }) =
          .ok (.octets [1, 2, 3]) (.ofThree 11 { maxStringLength := 2 }) :=
      (octetsReads _ none).answers octetsDescribed rfl rfl
    have refused : ∃ failed, Schema.read {} (.leaf .bytes) none
        (MemoryReader.ofThree 1 { maxStringLength := 2 }) =
          .error (.limitExceeded .byteBuffer 2 3) failed :=
      (bufferReads _ none).refuses bufferDescribed rfl rfl
    rcases refused with ⟨failed, refused⟩
    rcases longBuffer _ _ _ _ _ counted refused with ⟨what, limit, actual, faultEq⟩
    exact ⟨what, limit, actual, failed, faultEq ▸ refused⟩

end ValueBus
