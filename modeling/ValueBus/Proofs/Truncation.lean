import ValueBus.Proofs.Canonical
import ValueBus.Proofs.Careful
import ValueBus.Proofs.MemoryLatch

/-!
# Truncated and extended bytes

A reading that answers has read some of the bytes, from the first on. Over other bytes that agree
with these as far as they go, it answers the same if the others reach as far as it has read, and
otherwise it fails at their end. This holds of the parts that the memory reader is made of, is kept
by composition, and so holds of every program that checks the latch where it has to.

The bytes that are decoded to a value are read to the last one. Hence no proper prefix of them is
decoded, and what is appended to them is left over.
-/

namespace ValueBus

/-- One of two byte strings begins with the other. -/
def Comparable (left right : List UInt8) : Prop :=
  left <+: right ∨ right <+: left

theorem Comparable.take_drop {left right : List UInt8} (comparable : Comparable left right)
    {offset count : Nat} (leftReaches : offset + count ≤ left.length)
    (rightReaches : offset + count ≤ right.length) :
    (left.drop offset).take count = (right.drop offset).take count := by
  rcases comparable with ⟨rest, rfl⟩ | ⟨rest, rfl⟩
  · rw [List.drop_append_of_le_length (by omega), List.take_append_of_le_length (by simp; omega)]
  · rw [List.drop_append_of_le_length (by omega), List.take_append_of_le_length (by simp; omega)]

namespace MemoryReader

variable {α β : Type}

/-- The reader at the same place in other bytes. -/
def onBytes (reader : MemoryReader) (bytes : List UInt8) : MemoryReader :=
  { reader with cursor := { reader.cursor with bytes } }

/-- Wherever the action answers, it has read forward over bytes that are there, and over other bytes
that agree with these it answers the same or fails at their end. -/
def ReadsForward (action : Action MemoryReader α) : Prop :=
  ∀ ⦃before after : MemoryReader⦄ ⦃answer : α⦄, before.error = none →
    before.cursor.offset ≤ before.cursor.bytes.length → action before = .ok answer after →
      (after.error = none ∧ after.cursor.bytes = before.cursor.bytes ∧
        before.cursor.offset ≤ after.cursor.offset ∧
          after.cursor.offset ≤ before.cursor.bytes.length) ∧
      ∀ bytes, Comparable before.cursor.bytes bytes → before.cursor.offset ≤ bytes.length →
        (after.cursor.offset ≤ bytes.length →
          action (before.onBytes bytes) = .ok answer (after.onBytes bytes)) ∧
        (bytes.length < after.cursor.offset →
          ∃ offset final, action (before.onBytes bytes) =
            .error (.readFailed offset .endOfBuffer) final)

namespace ReadsForward

theorem of_unmoved {action : Action MemoryReader α}
    (unmoved : ∀ {before after answer}, before.error = none → action before = .ok answer after →
      after.error = none ∧ after.cursor = before.cursor ∧
        ∀ bytes, action (before.onBytes bytes) = .ok answer (after.onBytes bytes)) :
    ReadsForward action := by
  intro before after answer unlatched inside answers
  rcases unmoved unlatched answers with ⟨stillUnlatched, cursorEq, elsewhere⟩
  rw [cursorEq]
  refine ⟨⟨stillUnlatched, rfl, Nat.le_refl _, inside⟩, ?_⟩
  intro bytes comparable starts
  exact ⟨fun _ => elsewhere bytes, fun short => absurd starts (Nat.not_le.2 short)⟩

theorem pure (answer : α) : ReadsForward (pure answer : Action MemoryReader α) := by
  apply of_unmoved
  intro before after found unlatched answers
  cases answers
  exact ⟨unlatched, rfl, fun _ => rfl⟩

theorem raise (fault : StreamError) : ReadsForward (Latch.raise fault : Action MemoryReader α) := by
  intro before after answer _ _ answers
  exact absurd answers Action.raise_ne_ok

theorem check : ReadsForward (Latch.check : Action MemoryReader Unit) := by
  apply of_unmoved
  intro before after answer unlatched answers
  rw [Action.check_of_unlatched unlatched] at answers
  cases answers
  refine ⟨unlatched, rfl, fun bytes => ?_⟩
  exact Action.check_of_unlatched unlatched

theorem bind {first : Action MemoryReader α} {next : α → Action MemoryReader β}
    (reads : ReadsForward first) (nextReads : ∀ answer, ReadsForward (next answer)) :
    ReadsForward (first >>= next) := by
  intro before after answer unlatched inside answers
  rcases Action.bind_eq_ok_iff.1 answers with ⟨between, middle, firstAnswers, nextAnswers⟩
  rcases reads unlatched inside firstAnswers with
    ⟨⟨middleUnlatched, middleBytes, firstForward, middleInside⟩, firstElsewhere⟩
  rw [← middleBytes] at middleInside
  rcases nextReads between middleUnlatched middleInside nextAnswers with
    ⟨⟨afterUnlatched, afterBytes, nextForward, afterInside⟩, nextElsewhere⟩
  rw [middleBytes] at afterBytes afterInside nextElsewhere
  refine ⟨⟨afterUnlatched, afterBytes, Nat.le_trans firstForward nextForward, afterInside⟩, ?_⟩
  intro bytes comparable starts
  constructor
  · intro reaches
    have middleReaches := Nat.le_trans nextForward reaches
    rw [Action.bind_of_ok ((firstElsewhere bytes comparable starts).1 middleReaches)]
    exact (nextElsewhere bytes comparable middleReaches).1 reaches
  · intro short
    -- The other bytes end within the first action or within the second.
    rcases Nat.lt_or_ge bytes.length middle.cursor.offset with middleShort | middleReaches
    · rcases (firstElsewhere bytes comparable starts).2 middleShort with ⟨offset, final, failed⟩
      exact ⟨offset, final, Action.bind_of_error failed⟩
    · rw [Action.bind_of_ok ((firstElsewhere bytes comparable starts).1 middleReaches)]
      exact (nextElsewhere bytes comparable middleReaches).2 short

theorem map {action : Action MemoryReader α} (reads : ReadsForward action) (change : α → β) :
    ReadsForward (change <$> action) := by
  rw [map_eq_pure_bind]
  exact reads.bind fun answer => pure (change answer)

/-- A step of the cursor that goes to a target if the target is inside the bytes. -/
theorem of_step {step : Action ReadCursor α} (target blamed : Nat → Nat)
    (found : List UInt8 → Nat → α)
    (stepEq : ∀ cursor : ReadCursor, step cursor =
      if target cursor.offset ≤ cursor.bytes.length then
        .ok (found cursor.bytes cursor.offset) { cursor with offset := target cursor.offset }
      else .error (.readFailed (blamed cursor.offset) .endOfBuffer) cursor)
    (forward : ∀ offset, offset ≤ target offset)
    (foundEq : ∀ {left right offset}, Comparable left right → target offset ≤ left.length →
      target offset ≤ right.length → found left offset = found right offset) :
    ReadsForward (onCursor step) := by
  intro before after answer unlatched inside answers
  rcases onCursor_eq_ok_iff.1 answers with ⟨cursor, stepped, rfl⟩
  rw [stepEq] at stepped
  split_ifs at stepped with reached
  cases stepped
  refine ⟨⟨unlatched, rfl, forward _, reached⟩, ?_⟩
  intro bytes comparable starts
  constructor
  · intro reaches
    apply onCursor_eq_ok_iff.2
    refine ⟨{ bytes, offset := target before.cursor.offset }, ?_, rfl⟩
    rw [stepEq, foundEq comparable reached reaches]
    exact if_pos reaches
  · intro short
    have refused : step (before.onBytes bytes).cursor = .error
        (.readFailed (blamed before.cursor.offset) .endOfBuffer) (before.onBytes bytes).cursor := by
      rw [stepEq]
      exact if_neg (Nat.not_le.2 short)
    have raised : onCursor step (before.onBytes bytes) = (Latch.raise
        (.readFailed (blamed before.cursor.offset) .endOfBuffer) : Action MemoryReader α)
          (before.onBytes bytes) := by
      simp only [onCursor, refused]
    have elsewhereUnlatched : Latch.error (before.onBytes bytes) = none := unlatched
    rw [Action.raise_of_unlatched elsewhereUnlatched] at raised
    exact ⟨_, _, raised⟩

theorem take (count : Nat) : ReadsForward (onCursor (ReadCursor.take count)) :=
  of_step (· + count) id (fun bytes offset => (bytes.drop offset).take count) (fun _ => rfl)
    (fun offset => Nat.le_add_right offset count)
    fun comparable leftReaches rightReaches => comparable.take_drop leftReaches rightReaches

theorem align {alignment : Nat} (fits : alignment ≤ greatestAlignment) :
    ReadsForward (onCursor (ReadCursor.align alignment)) :=
  of_step (alignUp · alignment) (alignUp · alignment) (fun _ _ => ()) (fun _ => rfl)
    (fun _ => le_alignUp fits) fun _ _ _ => rfl

theorem of_composed {action : Action MemoryReader α} (composed : Composed action) :
    ReadsForward action := by
  induction composed with
  | pure answer => exact pure answer
  | raise fault => exact raise fault
  | take count => exact take count
  | align fits => exact align fits
  | reframed change next composed runs ih =>
      intro before after answer unlatched inside answers
      rw [runs] at answers
      have reframedUnlatched : ({ before with
          frames := change before.limits before.frames } : MemoryReader).error = none := unlatched
      rcases ih _ _ reframedUnlatched inside answers with ⟨forward, elsewhere⟩
      refine ⟨forward, ?_⟩
      intro bytes comparable starts
      rw [runs]
      exact elsewhere bytes comparable starts
  | bind composed nextComposed ih nextIh => exact ih.bind nextIh

end ReadsForward

theorem hasMore_onBytes (kind : Repetition) (reader : MemoryReader) (bytes : List UInt8) :
    hasMore kind (reader.onBytes bytes) =
      ((hasMore kind reader).1, (hasMore kind reader).2.onBytes bytes) := by
  rw [onBytes, onBytes, hasMore_cursor]
  refine (hasMore_with kind reader { reader.cursor with bytes } reader.limits).trans ?_
  rw [← hasMore_limits kind reader]

end MemoryReader

open MemoryReader (ReadsForward)

/-- A program that checks the latch where it has to reads forward, if it answers. -/
theorem ReadProgram.Careful.readsForward {α : Type} {program : ReadProgram α}
    (careful : program.Careful) : ReadsForward (program.run : Action MemoryReader α) := by
  induction program with
  | done value => exact ReadsForward.pure value
  | raise fault => exact ReadsForward.raise fault
  | leaf kind deployment next ih =>
      apply ReadsForward.bind
      · apply ReadsForward.check.bind
        intro _
        exact ReadsForward.of_composed (.takeLeaf kind deployment)
      · exact fun leaf => ih leaf (careful leaf)
  | enter kind deployment next ih =>
      apply ReadsForward.bind
      · apply ReadsForward.check.bind
        intro _
        exact ReadsForward.of_composed (.enter kind deployment)
      · exact fun opening => ih opening (careful opening)
  | leave kind next ih =>
      apply ReadsForward.bind
      · apply ReadsForward.check.bind
        intro _
        exact ReadsForward.of_composed (.closeFrame kind)
      · exact fun _ => ih careful
  | hasMore kind next ih =>
      intro before after answer unlatched inside answers
      have runEq (reader : MemoryReader) : (hasMore kind next).run reader =
          (next (MemoryReader.hasMore kind reader).1).run
            (MemoryReader.hasMore kind reader).2 := rfl
      have sameCursor := MemoryReader.hasMore_cursor kind before
      cases error : (MemoryReader.hasMore kind before).2.error with
      | some fault =>
          have latched : Latch.error (InputStream.hasMore kind before).2 = some fault := error
          rw [careful.run_of_latched latched] at answers
          cases answers
      | none =>
          rw [runEq] at answers
          rw [← sameCursor] at inside
          rcases ih _ (careful.answered _) error inside answers with ⟨forward, elsewhere⟩
          rw [sameCursor] at forward elsewhere
          refine ⟨forward, ?_⟩
          intro bytes comparable starts
          rw [runEq, MemoryReader.hasMore_onBytes]
          exact elsewhere bytes comparable starts
  | check next ih => exact ReadsForward.check.bind fun _ => ih careful

variable {schema : Schema} {type : DataType} {value : Value} {deployment : Option Deployment}
  {limits : Limits} {bytes : List UInt8}

/-- What is decoded is read to the last byte. -/
theorem read_to_end_of_decode (decoded : decode schema type bytes deployment limits = .ok value) :
    schema.read type deployment (MemoryReader.ofBytes bytes limits) =
      .ok value (MemoryReader.unlatched limits [] { bytes, offset := bytes.length }) := by
  rcases read_of_decode decoded with ⟨reader, answered, finished⟩
  rcases (schema.program_careful _ type deployment).readsForward rfl (Nat.zero_le _) answered with
    ⟨⟨_, sameBytes, _, inside⟩, _⟩
  rcases schema.sound_program _ type answered with ⟨_, ⟨found, offset⟩, rfl, _⟩
  have same : found = bytes := sameBytes
  have within : offset ≤ bytes.length := inside
  have ended : offset = bytes.length := by
    apply Nat.le_antisymm within
    by_cases reached : bytes.length ≤ offset
    · exact reached
    · simp [MemoryReader.finish, MemoryReader.unlatched, ReadCursor.atEnd, same, reached]
        at finished
  rw [same, ended] at answered
  exact answered

/-- Over other bytes that agree as far as they go, the reading ends at the same place or fails at
their end. -/
theorem read_of_comparable (decoded : decode schema type bytes deployment limits = .ok value)
    {others : List UInt8} (comparable : Comparable bytes others) :
    (bytes.length ≤ others.length →
      schema.read type deployment (MemoryReader.ofBytes others limits) =
        .ok value (MemoryReader.unlatched limits [] { bytes := others, offset := bytes.length })) ∧
    (others.length < bytes.length → ∃ offset final,
      schema.read type deployment (MemoryReader.ofBytes others limits) =
        .error (.readFailed offset .endOfBuffer) final) :=
  ((schema.program_careful _ type deployment).readsForward rfl (Nat.zero_le _)
    (read_to_end_of_decode decoded)).2 others comparable (Nat.zero_le _)

/-- A cut message fails at its end, and what is appended to a message is left over. -/
theorem decode_detects_length (decoded : decode schema type bytes deployment limits = .ok value) :
    (∀ cut, cut <+: bytes → cut ≠ bytes → ∃ offset,
      decode schema type cut deployment limits =
        .error (.serialization (.readFailed offset .endOfBuffer))) ∧
    (∀ extra, extra ≠ [] →
      decode schema type (bytes ++ extra) deployment limits =
        .error (.serialization (.invalidData (.trailingBytes extra.length)))) := by
  constructor
  · intro cut begins proper
    have shorter : cut.length < bytes.length := by
      apply Nat.lt_of_le_of_ne begins.length_le
      intro sameLength
      exact proper (begins.eq_of_length sameLength)
    rcases (read_of_comparable decoded (.inr begins)).2 shorter with ⟨offset, final, failed⟩
    refine ⟨offset, ?_⟩
    simp only [decode, failed, Error.ofStream]
  · intro extra present
    have longer : bytes.length ≤ (bytes ++ extra).length := by simp
    have answered := (read_of_comparable decoded (.inl (List.prefix_append bytes extra))).1 longer
    have someLeft : 0 < extra.length := List.length_pos_iff.2 present
    have leftOver : (MemoryReader.unlatched limits []
        { bytes := bytes ++ extra, offset := bytes.length }).finish =
          .error (.invalidData (.trailingBytes extra.length)) := by
      have inside : ¬ bytes.length + extra.length ≤ bytes.length := by omega
      simp [MemoryReader.finish, MemoryReader.unlatched, ReadCursor.atEnd, MemoryReader.remaining,
        ReadCursor.remaining, inside]
    simp only [decode, answered, leftOver]
    rfl

/-- Two booleans without the second one, and with a byte too many. -/
theorem decode_detects_length_flags :
    let flags := DataType.sequence (.leaf .bool)
    (∃ offset, decode {} flags [2, 0, 0, 0, 1] none {} =
      .error (.serialization (.readFailed offset .endOfBuffer))) ∧
    decode {} flags [2, 0, 0, 0, 1, 0, 7] none {} =
      .error (.serialization (.invalidData (.trailingBytes 1))) := by
  intro flags
  have decoded : decode {} flags [2, 0, 0, 0, 1, 0] none {} =
      .ok (.sequence [.leaf (.bool true), .leaf (.bool false)]) := rfl
  have lengths := decode_detects_length decoded
  exact ⟨lengths.1 [2, 0, 0, 0, 1] ⟨[0], rfl⟩ (by decide), lengths.2 [7] (by decide)⟩

end ValueBus
