import ValueBus.Proofs.Encodable
import ValueBus.Proofs.MemoryLatch
import ValueBus.Proofs.RoundTrip
import ValueBus.Variant

/-!
# Dispatching on tags

The tag of a variant comes in the byte in front of its value or from elsewhere. Either way it is
compared with the numbers of the alternatives, which are counted up from 0 in the order of their
declaration. A number is met by the alternative that stands at its place, which is then read as if
it stood alone; a tag beyond the last number is refused before anything is read.
-/

namespace ValueBus

open WriteStep
open Deployment (childOf)

namespace Schema

/-- The program that compares a tag with the numbers of alternatives, the first of which has the
given number. -/
def compareTags (declared : Declared → Option Deployment → ReadProgram Value) (tag : Nat)
    (deployment : Option Deployment) : Nat → List Member → ReadProgram Value
  | _, [] => ReadProgram.raise (.unknownDiscriminator tag)
  | number, alternative :: rest =>
      if tag = number then
        .holding tag <$> alternative.type.readWith declared (childOf deployment tag)
      else
        compareTags declared tag deployment (number + 1) rest

section Comparing

variable {declared : Declared → Option Deployment → ReadProgram Value} {tag : Nat}
  {deployment : Option Deployment}

theorem readAlternative_of_none {alternatives : List Member}
    (missing : alternatives[tag]? = none) :
    readAlternative declared alternatives tag deployment =
      ReadProgram.raise (.unknownDiscriminator tag) := by
  rw [readAlternative, missing]

theorem readAlternative_of_some {alternatives : List Member} {alternative : Member}
    (found : alternatives[tag]? = some alternative) :
    readAlternative declared alternatives tag deployment =
      .holding tag <$> alternative.type.readWith declared (childOf deployment tag) := by
  rw [readAlternative, found]

/-- Behind the alternatives that a tag was compared with in vain, the others are compared. -/
theorem readAlternative_append {before alternatives : List Member}
    (passed : before.length ≤ tag) :
    readAlternative declared (before ++ alternatives) tag deployment =
      compareTags declared tag deployment before.length alternatives := by
  induction alternatives generalizing before with
  | nil =>
      rw [compareTags]
      exact readAlternative_of_none (by simpa using passed)
  | cons alternative rest ih =>
      rw [compareTags]
      split_ifs with met
      · exact readAlternative_of_some (by simp [met])
      · have later : (before ++ [alternative]).length ≤ tag := by
          rw [List.length_append, List.length_singleton]
          omega
        rw [List.append_cons, ih later, List.length_append, List.length_singleton]

/-- The alternative at the place of its number is the one that comparing the tag finds. -/
theorem readAlternative_eq_compareTags (alternatives : List Member) (tag : Nat)
    (deployment : Option Deployment) :
    readAlternative declared alternatives tag deployment =
      compareTags declared tag deployment 0 alternatives :=
  @readAlternative_append declared tag deployment [] alternatives (Nat.zero_le tag)

end Comparing

variable {schema : Schema} {set : String} {tag : Nat} {deployment : Option Deployment}

theorem readTagged_of_none {σ : Type} [InputStream σ] {state : σ}
    (missing : (schema.alternatives set)[tag]? = none) :
    schema.readTagged set tag deployment state =
      Latch.raise (.unknownDiscriminator tag) state := by
  rw [readTagged, taggedProgram, readAlternative_of_none missing]
  rfl

/-- An alternative whose tag is known is read as a value of its type alone is. -/
theorem readTagged_of_some {σ : Type} [InputStream σ] {state : σ} {alternative : Member}
    (found : (schema.alternatives set)[tag]? = some alternative) :
    schema.readTagged set tag deployment state =
      (Value.holding tag <$> schema.read alternative.type (childOf deployment tag)) state := by
  rw [readTagged, taggedProgram, readAlternative_of_some found, ReadProgram.run_map]
  rfl

/-- A value of a known alternative is read back from where its steps stand and break no limit. -/
theorem HasType.readTagged_of_within {alternative : Member} {held : Value}
    (found : (schema.alternatives set)[tag]? = some alternative)
    (typed : schema.HasType alternative.type held) {limits : Limits} {cursor final : ReadCursor}
    {chunks : List Chunk}
    (described : chunksAll? (held.steps (childOf deployment tag)) = some chunks)
    (passed : cursor.passAll? chunks = some final)
    (within : limitFaultAll? limits 0 (held.steps (childOf deployment tag)) = none) :
    schema.readTagged set tag deployment (MemoryReader.unlatched limits [] cursor) =
      .ok (.holding tag held) (MemoryReader.unlatched limits [] final) := by
  have read := typed.read_of_none (childOf deployment tag) described passed within
  rw [readTagged_of_some found]
  exact Action.map_eq_ok_iff.2 ⟨held, read, rfl⟩

/-- A variant is read by entering its frame and reading the alternative that its tag names. -/
theorem read_variant_apply (schema : Schema) (set : String) (deployment : Option Deployment)
    (reader : MemoryReader) :
    ∃ allowance, schema.read (.declared (.variant set)) deployment reader =
      (ReadProgram.enterFrame .variant deployment >>= fun opening =>
        readAlternative (schema.readDeclared allowance) (schema.alternatives set) opening.tag
          deployment >>= fun value =>
            ReadProgram.leaveFrame .variant >>= fun _ => pure value).run reader := by
  have allowed : schema.allowance reader ≠ 0 :=
    Nat.ne_of_gt (Nat.zero_lt_of_lt (schema.depth_lt_allowance reader))
  rcases Nat.exists_eq_succ_of_ne_zero allowed with ⟨allowance, allowanceEq⟩
  refine ⟨allowance, ?_⟩
  rw [read, program, DataType.readWith, allowanceEq, readDeclared]

end Schema

/-- The byte in front of a variant is its tag. -/
theorem MemoryReader.enter_variant_of_byte {limits : Limits} (byte : UInt8) (rest : List UInt8)
    (deployment : Option Deployment) (deep : 1 ≤ limits.maxDepth) :
    enter .variant deployment (unlatched limits [] ⟨byte :: rest, 0⟩) =
      .ok (.variant byte.toNat) (unlatched limits [.plain .variant] ⟨byte :: rest, 1⟩) := by
  have small : byte.toNat ≤ 255 := Nat.le_of_lt_succ byte.toNat_lt
  have spelled : (WriteCall.enter (.variant byte.toNat) deployment).chunks? =
      some [.plain [byte]] := by
    rw [WriteCall.chunks?, if_pos small, UInt8.ofNat_toNat]
  have within : (WriteCall.enter (.variant byte.toNat) deployment).limitFault? limits 0 = none :=
    StreamError.overLimit?_eq_none_iff.2 deep
  have passed : ReadCursor.passAll? [.plain [byte]] ⟨byte :: rest, 0⟩ = some ⟨byte :: rest, 1⟩ := by
    rw [ReadCursor.passAll?_singleton, ReadCursor.pass?_eq_some_iff, Chunk.start_plain]
    simp [Chunk.plain]
  exact enter_eq_ok_iff.2 ⟨rfl, _, _, spelled, within, passed, rfl⟩

/-- Bytes that begin with a tag that no alternative has are refused for it. -/
theorem decode_variant_of_none {schema : Schema} {set : String} {byte : UInt8}
    (missing : (schema.alternatives set)[byte.toNat]? = none) (rest : List UInt8)
    (deployment : Option Deployment) {limits : Limits} (deep : 1 ≤ limits.maxDepth) :
    decode schema (.declared (.variant set)) (byte :: rest) deployment limits =
      .error (.unknownDiscriminator byte.toNat) := by
  have started : MemoryReader.ofBytes (byte :: rest) limits =
      .unlatched limits [] ⟨byte :: rest, 0⟩ := rfl
  have entered := MemoryReader.enter_variant_of_byte byte rest deployment deep
  rw [← run_enterFrame rfl] at entered
  rcases schema.read_variant_apply set deployment (.unlatched limits [] ⟨byte :: rest, 0⟩) with
    ⟨allowance, steps⟩
  have refused : ∃ state, schema.read (.declared (.variant set)) deployment
      (MemoryReader.unlatched limits [] ⟨byte :: rest, 0⟩) =
        .error (.unknownDiscriminator byte.toNat) state := by
    rw [steps, ReadProgram.run_bind, Action.bind_of_ok entered, Opening.tag,
      Schema.readAlternative_of_none missing]
    exact ⟨_, rfl⟩
  rcases refused with ⟨state, refused⟩
  rw [decode, started, refused]
  rfl

/-- The value that a variant holds is written without its tag if the variant is written. -/
theorem Value.writable_of_holding {index : Nat} {held : Value} {deployment : Option Deployment}
    {limits : Limits}
    (written : Writable limits 0 ((holding index held).steps deployment)) :
    index ≤ 255 ∧ Writable limits 0 (held.steps (childOf deployment index)) := by
  rw [steps, writable_bracketed_iff, writable_entering_variant_iff] at written
  rcases written with ⟨⟨small, opened⟩, inside⟩
  rcases (held.writable_steps_iff opened).1 inside with ⟨fits, room⟩
  exact ⟨small, (held.writable_steps_iff (Nat.zero_le _)).2 ⟨fits, by omega⟩⟩

/-- What a variant holds is written with the child at its index, and read back by that index. -/
theorem Schema.HasType.readTagged_of_encode {schema : Schema} {set : String} {index : Nat}
    {held : Value} {deployment : Option Deployment} {limits : Limits} {whole : List UInt8}
    (typed : schema.HasType (.declared (.variant set)) (.holding index held))
    (encoded : encode (.holding index held) deployment limits = .ok whole) :
    index ≤ 255 ∧ ∃ bytes reader, encode held (childOf deployment index) limits = .ok bytes ∧
      schema.readTagged set index deployment (MemoryReader.ofBytes bytes limits) =
        .ok (.holding index held) reader ∧ reader.finish = .ok () := by
  rcases Value.encode_eq_ok_iff.1 encoded with ⟨chunks, described, within, _⟩
  rcases Value.writable_of_holding ⟨⟨chunks, described⟩, within⟩ with
    ⟨small, ⟨heldChunks, heldDescribed⟩, heldWithin⟩
  cases typed with
  | holding found heldTyped =>
      have read := heldTyped.readTagged_of_within found heldDescribed
        (ReadCursor.passAll?_putChunks heldChunks) heldWithin
      exact ⟨small, _, _, Value.encode_eq_ok_iff.2 ⟨_, heldDescribed, heldWithin, rfl⟩, read,
        MemoryReader.finish_unlatched ..⟩

/-- Tags are dispatched alike from wherever they come. A tag is compared with the numbers of the
alternatives, counted up from 0. One that is out of range is latched and returned, and nothing is
read; one in range gives the alternative with that number, which is read from the same bytes and
fails with the same error as a value of its type alone. What is left of an encoded variant without
its tag is read back with the tag, and bytes that begin with a tag out of range are refused. -/
theorem variant_tags_dispatch (schema : Schema) (set : String) (deployment : Option Deployment) :
    (∀ (allowance : Nat) (tag : UInt32), schema.taggedProgram allowance set tag.toNat deployment =
      Schema.compareTags (schema.readDeclared allowance) tag.toNat deployment 0
        (schema.alternatives set)) ∧
    (∀ tag : UInt32, (schema.alternatives set).length ≤ tag.toNat →
      (∀ {σ : Type} [InputStream σ] [LawfulLatch σ] (state : σ), Latch.error state = none →
        let refused := Latch.setError (.unknownDiscriminator tag.toNat) state
        schema.readTagged set tag.toNat deployment state =
            .error (.unknownDiscriminator tag.toNat) refused ∧
          Latch.error refused = some (.unknownDiscriminator tag.toNat)) ∧
      ∀ reader : MemoryReader, reader.error = none →
        schema.readTagged set tag.toNat deployment reader =
          .error (.unknownDiscriminator tag.toNat)
            { reader with error := some (.unknownDiscriminator tag.toNat) }) ∧
    (∀ tag : UInt32, tag.toNat < (schema.alternatives set).length →
      ∃ alternative, (schema.alternatives set)[tag.toNat]? = some alternative ∧
        ∀ {σ : Type} [InputStream σ] (state after : σ),
          (∀ value, schema.readTagged set tag.toNat deployment state = .ok value after ↔
            ∃ held, schema.read alternative.type (childOf deployment tag.toNat) state =
                .ok held after ∧
              (Variant.new tag.toNat held).toValue = value ∧
              (Variant.new tag.toNat held).valueType
                ((schema.alternatives set).map Member.name) = tag.toNat) ∧
          ∀ fault, schema.readTagged set tag.toNat deployment state = .error fault after ↔
            schema.read alternative.type (childOf deployment tag.toNat) state =
              .error fault after) ∧
    (∀ (variant : Variant) (held : Alternative) (limits : Limits) (whole : List UInt8),
      variant.slot = some held → schema.HasType (.declared (.variant set)) variant.toValue →
      encode variant.toValue deployment limits = .ok whole →
      ∃ (tag : UInt32) (bytes : List UInt8) (reader : MemoryReader), tag.toNat = held.index ∧
        encode held.value (childOf deployment held.index) limits = .ok bytes ∧
        schema.readTagged set tag.toNat deployment (MemoryReader.ofBytes bytes limits) =
          .ok variant.toValue reader ∧ reader.finish = .ok ()) ∧
    ∀ (byte : UInt8) (rest : List UInt8) (limits : Limits),
      (schema.alternatives set).length ≤ byte.toNat → 1 ≤ limits.maxDepth →
      decode schema (.declared (.variant set)) (byte :: rest) deployment limits =
        .error (.unknownDiscriminator byte.toNat) := by
  refine ⟨?_, ?_, ?_, ?_, ?_⟩
  · intro allowance tag
    exact Schema.readAlternative_eq_compareTags _ tag.toNat deployment
  · intro tag beyond
    have missing := List.getElem?_eq_none beyond
    refine ⟨fun state unlatched => ⟨?_, ?_⟩, fun reader unlatched => ?_⟩
    · rw [Schema.readTagged_of_none missing, Action.raise_of_unlatched unlatched]
    · rw [LawfulLatch.error_setError, unlatched]
      rfl
    · rcases reader with ⟨cursor, frames, limits, error⟩
      cases unlatched
      rw [Schema.readTagged_of_none missing, Action.raise_of_unlatched rfl]
      rfl
  · intro tag inside
    have found := List.getElem?_eq_getElem inside
    refine ⟨_, found, fun state after => ⟨fun value => ?_, fun fault => ?_⟩⟩
    · rw [Schema.readTagged_of_some found, Action.map_eq_ok_iff]
      constructor
      · rintro ⟨held, read, rfl⟩
        exact ⟨held, read, rfl, rfl⟩
      · rintro ⟨held, read, rfl, _⟩
        exact ⟨held, read, rfl⟩
    · rw [Schema.readTagged_of_some found, Action.map_eq_error_iff]
  · rintro ⟨slot⟩ held limits whole rfl typed encoded
    rcases typed.readTagged_of_encode encoded with
      ⟨small, bytes, reader, heldEncoded, read, ended⟩
    have tagEq : (UInt32.ofNat held.index).toNat = held.index :=
      UInt32.toNat_ofNat_of_lt (Nat.lt_of_le_of_lt small (by decide))
    refine ⟨.ofNat held.index, bytes, reader, tagEq, heldEncoded, ?_, ended⟩
    rw [tagEq]
    exact read
  · intro byte rest limits beyond deep
    exact decode_variant_of_none (List.getElem?_eq_none beyond) rest deployment deep

/-- Trees have two alternatives. The greatest tag names neither of them, and a tree whose tag is
known is read back from the bytes of its branches. -/
theorem variant_tags_dispatch_trees :
    let reader := MemoryReader.ofBytes [1, 0, 0, 0, 0, 1] {}
    let branches : Value := .sequence [.holding 0 (.leaf (.bool true))]
    Schema.trees.readTagged "Tree" 4294967295 none reader =
      .error (.unknownDiscriminator 4294967295)
        { reader with error := some (.unknownDiscriminator 4294967295) } ∧
    (∃ alternative, (Schema.trees.alternatives "Tree")[1]? = some alternative ∧
      ∀ fault after, Schema.trees.readTagged "Tree" 1 none reader = .error fault after ↔
        Schema.trees.read alternative.type none reader = .error fault after) ∧
    (∃ (tag : UInt32) (bytes : List UInt8) (after : MemoryReader), tag.toNat = 1 ∧
      encode branches none {} = .ok bytes ∧
      Schema.trees.readTagged "Tree" tag.toNat none (MemoryReader.ofBytes bytes {}) =
        .ok .sprout after ∧ after.finish = .ok ()) ∧
    decode .trees (.declared (.variant "Tree")) [2, 0] none {} =
      .error (.unknownDiscriminator 2) := by
  intro reader branches
  have count : (Schema.trees.alternatives "Tree").length = 2 := rfl
  have encoded : encode .sprout none {} = .ok [1, 0, 0, 0, 1, 0, 0, 0, 0, 1] := rfl
  rcases variant_tags_dispatch .trees "Tree" none with ⟨_, beyond, inside, held, inBand⟩
  refine ⟨?_, ?_, ?_, ?_⟩
  · exact (beyond 4294967295 (by rw [count]; decide)).2 reader rfl
  · rcases inside 1 (by rw [count]; decide) with ⟨alternative, found, same⟩
    exact ⟨alternative, found, fun fault after => (same reader after).2 fault⟩
  · exact held (.new 1 branches) ⟨1, branches⟩ {} _ rfl Value.sprout_typed encoded
  · exact inBand 2 [0] {} (by rw [count]; decide) (by decide)

end ValueBus
