import ValueBus.Codec
import ValueBus.Proofs.TypedReading
import ValueBus.Proofs.Writing

/-!
# Round trips

Whatever a memory writer finishes, a memory reader under the same limits reads back: every value in
its turn, and then nothing is left. Under other limits than those it was written with, the bytes are
read exactly if they could have been written, and are refused with the error that the writer would
have reported.
-/

namespace ValueBus

open WriteStep

/-- A value, the type that a reader expects it to have, and the deployment both sides use. -/
structure Message where
  type : DataType
  value : Value
  deployment : Option Deployment

namespace Message

variable {σ : Type}

/-- Writes messages to one stream, one after the other. -/
def writeAll [OutputStream σ] : List Message → Action σ Unit
  | [] => pure ()
  | message :: rest => do
      message.value.write message.deployment
      writeAll rest

/-- Reads messages from one stream, one after the other, given their types and deployments. -/
def readAll [InputStream σ] (schema : Schema) :
    List (DataType × Option Deployment) → Action σ (List Value)
  | [] => pure []
  | (type, deployment) :: rest => do
      let value ← schema.read type deployment
      let values ← readAll schema rest
      return value :: values

def request (message : Message) : DataType × Option Deployment :=
  (message.type, message.deployment)

def stepsAll (messages : List Message) : List WriteStep :=
  messages.flatMap fun message => message.value.steps message.deployment

theorem stepsAll_cons (message : Message) (rest : List Message) :
    stepsAll (message :: rest) = message.value.steps message.deployment ++ stepsAll rest :=
  List.flatMap_cons

theorem writeAll_eq_runAll [OutputStream σ] (messages : List Message) :
    (writeAll messages : Action σ Unit) = runAll (stepsAll messages) := by
  induction messages with
  | nil => rfl
  | cons message rest ih =>
      rw [writeAll, ih, stepsAll_cons, runAll_append]
      rfl

theorem balanced_stepsAll (messages : List Message) : Balanced (stepsAll messages) := by
  induction messages with
  | nil => exact fun _ => rfl
  | cons message rest ih =>
      exact (message.value.balanced_steps message.deployment).append ih

/-- Messages are read back where their steps stand and break no limit. -/
theorem readAll_of_none {schema : Schema} {messages : List Message} {limits : Limits}
    (typed : ∀ message ∈ messages, schema.HasType message.type message.value)
    {cursor final : ReadCursor} {chunks : List Chunk}
    (described : chunksAll? (stepsAll messages) = some chunks)
    (passed : cursor.passAll? chunks = some final)
    (within : limitFaultAll? limits 0 (stepsAll messages) = none) :
    readAll schema (messages.map request) (MemoryReader.unlatched limits [] cursor) =
      .ok (messages.map value) (MemoryReader.unlatched limits [] final) := by
  induction messages generalizing cursor chunks with
  | nil =>
      cases described
      cases passed
      rfl
  | cons message rest ih =>
      rw [stepsAll_cons] at described within
      rcases chunksAll?_append_eq_some_iff.1 described with
        ⟨first, later, firstDescribed, restDescribed, rfl⟩
      rcases ReadCursor.passAll?_append_eq_some_iff.1 passed with
        ⟨middle, firstPassed, restPassed⟩
      rcases limitFaultAll?_append_eq_none_iff.1 within with ⟨firstWithin, restWithin⟩
      rw [(message.value.balanced_steps message.deployment).depthAfterAll_eq] at restWithin
      rcases List.forall_mem_cons.1 typed with ⟨firstTyped, restTyped⟩
      have firstRead := firstTyped.read_of_none message.deployment firstDescribed firstPassed
        firstWithin
      have restRead := ih restTyped restDescribed restPassed restWithin
      rw [List.map_cons, readAll, request, Action.bind_of_ok firstRead,
        Action.bind_of_ok restRead]
      rfl

end Message

theorem MemoryReader.finish_unlatched (limits : Limits) (bytes : List UInt8) :
    (MemoryReader.unlatched limits [] ⟨bytes, bytes.length⟩).finish = .ok () := by
  simp [finish, unlatched, ReadCursor.atEnd]

namespace Value

variable {value : Value} {deployment : Option Deployment} {limits : Limits}

theorem encode_of_some {chunks : List Chunk} {fault : StreamError}
    (described : chunksAll? (value.steps deployment) = some chunks)
    (exceeds : limitFaultAll? limits 0 (value.steps deployment) = some fault) :
    encode value deployment limits = .error (.ofStream fault) := by
  rcases @MemoryWriter.runAll_of_some (.withLimits limits) _ _ _ _ rfl described exceeds
    (value.balanced_steps deployment []) with ⟨after, failed⟩
  simp [encode, WriteStep.encode, failed, Except.mapError]

/-- Encoding succeeds if every step has chunks and none breaks a limit; the bytes are those of the
chunks. -/
theorem encode_eq_ok_iff {bytes : List UInt8} :
    encode value deployment limits = .ok bytes ↔
      ∃ chunks, chunksAll? (value.steps deployment) = some chunks ∧
        limitFaultAll? limits 0 (value.steps deployment) = none ∧
          (WriteCursor.putChunks {} chunks).bytes = bytes := by
  have takenIff {after : MemoryWriter} := @MemoryWriter.runAll_withLimits_eq_ok_iff
    (value.steps deployment) (value.balanced_steps deployment) limits after
  constructor
  · intro encoded
    cases taken : runAll (value.steps deployment) (MemoryWriter.withLimits limits) with
    | error fault after => simp [encode, WriteStep.encode, taken, Except.mapError] at encoded
    | ok _ after =>
        rcases takenIff.1 taken with ⟨chunks, described, within, rfl⟩
        simp only [encode, WriteStep.encode, taken] at encoded
        cases encoded
        exact ⟨chunks, described, within, rfl⟩
  · rintro ⟨chunks, described, within, rfl⟩
    simp only [encode, WriteStep.encode, takenIff.2 ⟨chunks, described, within, rfl⟩]
    rfl

end Value

theorem decode_of_read {schema : Schema} {type : DataType} {value : Value} {bytes : List UInt8}
    {deployment : Option Deployment} {limits : Limits}
    (read : schema.read type deployment (MemoryReader.unlatched limits [] { bytes }) =
      .ok value (MemoryReader.unlatched limits [] ⟨bytes, bytes.length⟩)) :
    decode schema type bytes deployment limits = .ok value := by
  have started : MemoryReader.ofBytes bytes limits = .unlatched limits [] { bytes } := rfl
  rw [decode, started, read]
  dsimp only
  simp only [MemoryReader.finish_unlatched]
  rfl

theorem decode_of_encode {schema : Schema} {type : DataType} {value : Value} {bytes : List UInt8}
    {deployment : Option Deployment} {limits : Limits} (typed : schema.HasType type value)
    (encoded : encode value deployment limits = .ok bytes) :
    decode schema type bytes deployment limits = .ok value := by
  rcases Value.encode_eq_ok_iff.1 encoded with ⟨chunks, described, within, rfl⟩
  exact decode_of_read (typed.read_of_none deployment described
    (ReadCursor.passAll?_putChunks chunks) within)

/-- Trees with a flag at every leaf. -/
def Schema.trees : Schema where
  variants := [("Tree", [⟨"leaf", .leaf .bool⟩, ⟨"node", .sequence (.declared (.variant "Tree"))⟩])]

/-- A tree with one leaf below its root. -/
def Value.sprout : Value :=
  .holding 1 (.sequence [.holding 0 (.leaf (.bool true))])

theorem Value.sprout_typed : Schema.trees.HasType (.declared (.variant "Tree")) sprout := by
  have flag : Schema.trees.HasType (.leaf .bool) (.leaf (.bool true)) :=
    @Schema.HasType.leaf _ (.bool true)
  have leaf :
      Schema.trees.HasType (.declared (.variant "Tree")) (.holding 0 (.leaf (.bool true))) :=
    @Schema.HasType.holding _ _ _ ⟨"leaf", .leaf .bool⟩ _ rfl flag
  apply @Schema.HasType.holding _ _ _ ⟨"node", .sequence (.declared (.variant "Tree"))⟩ _ rfl
  refine .sequence ?_
  intro item itemMem
  rw [List.mem_singleton.1 itemMem]
  exact leaf

/-- Whatever a writer finishes is read back, value by value, and nothing is left; a single value
that is encoded is decoded. -/
theorem readAll_of_writeAll (schema : Schema) (limits : Limits) :
    (∀ (messages : List Message) (writer : MemoryWriter) (bytes : List UInt8),
      (∀ message ∈ messages, schema.HasType message.type message.value) →
      Message.writeAll messages (MemoryWriter.withLimits limits) = .ok () writer →
      writer.finish = .ok bytes →
      ∃ reader : MemoryReader,
        Message.readAll schema (messages.map Message.request) (MemoryReader.ofBytes bytes limits) =
          .ok (messages.map Message.value) reader ∧ reader.finish = .ok ()) ∧
    (∀ (type : DataType) (value : Value) (deployment : Option Deployment) (bytes : List UInt8),
      schema.HasType type value → encode value deployment limits = .ok bytes →
      decode schema type bytes deployment limits = .ok value) := by
  constructor
  · intro messages writer bytes typed written finished
    simp only [Message.writeAll_eq_runAll] at written
    rcases (MemoryWriter.runAll_withLimits_eq_ok_iff (Message.balanced_stepsAll messages)).1 written
      with ⟨chunks, described, within, rfl⟩
    cases finished
    exact ⟨_, Message.readAll_of_none typed described (ReadCursor.passAll?_putChunks chunks) within,
      MemoryReader.finish_unlatched ..⟩
  · intro type value deployment bytes typed encoded
    exact decode_of_encode typed encoded

/-- A tree and two numbers behind a length field of two bytes, written and read. -/
theorem readAll_of_writeAll_sprout :
    let short := Deployment.empty.withHint Deployment.lengthWidthHint (.integer 2)
    (∃ reader : MemoryReader,
      Message.readAll .trees
          [(.declared (.variant "Tree"), none), (.sequence (.number .uint16), some short)]
          (MemoryReader.ofBytes [1, 0, 0, 0, 1, 0, 0, 0, 0, 1, 2, 0, 7, 0, 9, 0] {}) =
        .ok [.sprout, .sequence [.number (.uint16 7), .number (.uint16 9)]] reader ∧
      reader.finish = .ok ()) ∧
    decode .trees (.declared (.variant "Tree")) [1, 0, 0, 0, 1, 0, 0, 0, 0, 1] none {} =
      .ok .sprout := by
  intro short
  have numbersTyped : Schema.trees.HasType (.sequence (.number .uint16))
      (.sequence [.number (.uint16 7), .number (.uint16 9)]) := by
    refine .sequence ?_
    intro item itemMem
    rcases List.mem_cons.1 itemMem with rfl | itemMem
    · exact @Schema.HasType.leaf _ (.number (.uint16 7))
    · rw [List.mem_singleton.1 itemMem]
      exact @Schema.HasType.leaf _ (.number (.uint16 9))
  let messages : List Message := [⟨.declared (.variant "Tree"), .sprout, none⟩,
    ⟨.sequence (.number .uint16), .sequence [.number (.uint16 7), .number (.uint16 9)], some short⟩]
  have allTyped : ∀ message ∈ messages, Schema.trees.HasType message.type message.value := by
    rw [List.forall_mem_cons, List.forall_mem_singleton]
    exact ⟨Value.sprout_typed, numbersTyped⟩
  have written : Message.writeAll messages (MemoryWriter.withLimits {}) =
      .ok () { cursor := ⟨[1, 0, 0, 0, 1, 0, 0, 0, 0, 1, 2, 0, 7, 0, 9, 0]⟩ } := rfl
  have encoded : encode .sprout none {} = .ok [1, 0, 0, 0, 1, 0, 0, 0, 0, 1] := rfl
  exact ⟨(readAll_of_writeAll .trees {}).1 messages _ _ allTyped written rfl,
    (readAll_of_writeAll .trees {}).2 _ _ _ _ Value.sprout_typed encoded⟩

/-- Bytes that some limits let be written are under any limits either written and read back, or
refused on both sides with the same error, which tells what limit they exceed. -/
theorem encode_decode_agree (schema : Schema) (type : DataType) (value : Value)
    (deployment : Option Deployment) (limits permissive : Limits) (bytes : List UInt8)
    (typed : schema.HasType type value)
    (encoded : encode value deployment permissive = .ok bytes) :
    (encode value deployment limits = .ok bytes ∧
      decode schema type bytes deployment limits = .ok value) ∨
    ∃ what limit actual,
      encode value deployment limits =
        .error (.serialization (.limitExceeded what limit actual)) ∧
      decode schema type bytes deployment limits =
        .error (.serialization (.limitExceeded what limit actual)) := by
  rcases Value.encode_eq_ok_iff.1 encoded with ⟨chunks, described, _, rfl⟩
  have passed := ReadCursor.passAll?_putChunks chunks
  cases broken : limitFaultAll? limits 0 (value.steps deployment) with
  | none =>
      exact Or.inl ⟨Value.encode_eq_ok_iff.2 ⟨chunks, described, broken, rfl⟩,
        decode_of_read (typed.read_of_none deployment described passed broken)⟩
  | some fault =>
      rcases limitFaultAll?_eq_some broken with ⟨what, limit, actual, rfl⟩
      refine Or.inr ⟨what, limit, actual, Value.encode_of_some described broken, ?_⟩
      rcases typed.read_of_some deployment described passed broken with ⟨state, failed⟩
      have started (bytes : List UInt8) :
          MemoryReader.ofBytes bytes limits = .unlatched limits [] { bytes } := rfl
      simp only [decode, started, failed]
      rfl

/-- A tree of three frames that is written without trouble, under a limit of two. -/
theorem encode_decode_agree_sprout :
    encode .sprout none { maxDepth := 2 } =
        .error (.serialization (.limitExceeded .depth 2 3)) ∧
      decode .trees (.declared (.variant "Tree")) [1, 0, 0, 0, 1, 0, 0, 0, 0, 1] none
          { maxDepth := 2 } =
        .error (.serialization (.limitExceeded .depth 2 3)) := by
  have refused : encode .sprout none { maxDepth := 2 } =
      .error (.serialization (.limitExceeded .depth 2 3)) := rfl
  rcases encode_decode_agree .trees (.declared (.variant "Tree")) .sprout none { maxDepth := 2 } {}
    [1, 0, 0, 0, 1, 0, 0, 0, 0, 1] Value.sprout_typed rfl with
      ⟨encoded, _⟩ | ⟨what, limit, actual, encodeFailed, decodeFailed⟩
  · rw [refused] at encoded
    cases encoded
  · rw [refused] at encodeFailed
    cases encodeFailed
    exact ⟨refused, decodeFailed⟩

end ValueBus
