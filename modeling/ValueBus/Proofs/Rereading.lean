import ValueBus.Proofs.Aligning

/-!
# Rereading

What one cursor wrote is read again by another that takes the same steps: a number of the kind that
was written, a run of the length that was written, the same alignment. The two cursors stay side by
side, because a step moves both by the same amount, whatever the alignment is.

This needs that no step takes back what was written before. A step puts its bytes behind the others,
and aligning does so too as long as the offset and the alignment add up within 64 bits; a sum that
wraps would cut the bytes that the reader is still to find.
-/

namespace ValueBus

namespace ReadCursor

/-- A step of a cursor that reads. -/
inductive Step where
  | number (kind : NumberKind)
  | run (count : Nat)
  | align (alignment : Nat)
  deriving DecidableEq, Repr

/-- What a step finds; aligning finds nothing. -/
inductive Finding where
  | number (value : Number)
  | run (bytes : List UInt8)
  | nothing
  deriving DecidableEq, Repr

def Step.take : Step → Action ReadCursor Finding
  | .number kind => .number <$> takeNumber kind
  | .run count => .run <$> ReadCursor.take count
  | .align alignment => (fun _ => .nothing) <$> ReadCursor.align alignment

/-- Takes steps up to the first that fails. Every finding comes with the offset after its step. -/
def takeAll : List Step → Action ReadCursor (List (Finding × Nat))
  | [] => pure []
  | step :: rest => do
      let finding ← step.take
      let offset := (← get).offset
      let later ← takeAll rest
      return (finding, offset) :: later

end ReadCursor

namespace WriteCursor

/-- A step of a cursor that writes. -/
inductive Step where
  | number (value : Number)
  | run (bytes : List UInt8)
  | align (alignment : Nat)
  deriving DecidableEq, Repr

namespace Step

def take : Step → WriteCursor → WriteCursor
  | .number value, cursor => cursor.putNumber value
  | .run bytes, cursor => cursor.put bytes
  | .align alignment, cursor => cursor.align alignment

/-- The step that reads what this one writes. -/
def again : Step → ReadCursor.Step
  | .number value => .number value.kind
  | .run bytes => .run bytes.length
  | .align alignment => .align alignment

/-- What this step writes, as it is to be found again. -/
def content : Step → ReadCursor.Finding
  | .number value => .number value
  | .run bytes => .run bytes
  | .align _ => .nothing

/-- An offset can be aligned if the sum with the alignment stays within 64 bits. -/
def Fits : Step → WriteCursor → Prop
  | .align alignment, cursor => cursor.offset + alignment < LittleEndian.span 8
  | _, _ => True

instance : (step : Step) → (cursor : WriteCursor) → Decidable (step.Fits cursor)
  | .number _, _ | .run _, _ => .isTrue trivial
  | .align alignment, cursor =>
      inferInstanceAs (Decidable (cursor.offset + alignment < LittleEndian.span 8))

end Step

def takeAll : List Step → WriteCursor → WriteCursor
  | [], cursor => cursor
  | step :: rest, cursor => takeAll rest (step.take cursor)

/-- Whether every step fits the cursor that the steps before it leave. -/
def FitAll : List Step → WriteCursor → Prop
  | [], _ => True
  | step :: rest, cursor => step.Fits cursor ∧ FitAll rest (step.take cursor)

instance decidableFitAll :
    (steps : List Step) → (cursor : WriteCursor) → Decidable (FitAll steps cursor)
  | [], _ => .isTrue trivial
  | step :: rest, cursor => @instDecidableAnd _ _ _ (decidableFitAll rest (step.take cursor))

/-- What steps write, each content with the offset after its step. -/
def record : List Step → WriteCursor → List (ReadCursor.Finding × Nat)
  | [], _ => []
  | step :: rest, cursor =>
      (step.content, (step.take cursor).offset) :: record rest (step.take cursor)

variable {writer : WriteCursor} {reader : ReadCursor}

theorem grows_of_fits {alignment : Nat}
    (within : writer.offset + alignment < LittleEndian.span 8) :
    writer.offset ≤ alignUp writer.offset alignment := by
  -- an alignment of 0 is outside the bounds on rounding up, and masks nothing
  rcases Nat.eq_zero_or_pos alignment with rfl | positive
  · exact le_alignUp (Nat.zero_le _)
  · exact (alignUp_bounds positive (Nat.le_of_lt within)).1

theorem Step.keeps_bytes {step : Step} (fits : step.Fits writer) :
    writer.bytes <+: (step.take writer).bytes := by
  cases step with
  | number value => exact List.prefix_append ..
  | run bytes => exact List.prefix_append ..
  | align alignment =>
      simp only [take]
      rw [align_bytes (grows_of_fits fits)]
      exact List.prefix_append ..

theorem takeAll_keeps_bytes {steps : List Step} (fits : FitAll steps writer) :
    writer.bytes <+: (takeAll steps writer).bytes := by
  induction steps generalizing writer with
  | nil => exact List.prefix_refl _
  | cons step rest ih =>
      rcases fits with ⟨firstFits, restFits⟩
      exact (Step.keeps_bytes firstFits).trans (ih restFits)

theorem take_of_put {run : List UInt8} (beside : reader.offset = writer.offset)
    (found : (writer.put run).bytes <+: reader.bytes) :
    ReadCursor.take run.length reader =
      .ok run { reader with offset := (writer.put run).offset } := by
  rcases found with ⟨rest, split⟩
  have moved : (writer.put run).offset = reader.offset + run.length := by
    rw [beside]
    exact List.length_append
  have inside : reader.offset + run.length ≤ reader.bytes.length := by
    rw [← moved, ← split, List.length_append]
    exact Nat.le_add_right ..
  have there : (reader.bytes.drop reader.offset).take run.length = run := by
    rw [← split, put, List.append_assoc, beside, offset, List.drop_left, List.take_left]
  rw [ReadCursor.take, if_pos inside, there, moved]

/-- A step is read again where it was taken, and moves the reader as it moved the writer. -/
theorem Step.take_again {step : Step} (beside : reader.offset = writer.offset)
    (found : (step.take writer).bytes <+: reader.bytes) :
    step.again.take reader =
      .ok step.content { reader with offset := (step.take writer).offset } := by
  cases step with
  | number value =>
      have taken := take_of_put beside found
      rw [value.length_bytes] at taken
      have read : ReadCursor.takeNumber value.kind reader =
          .ok value { reader with offset := (writer.put value.bytes).offset } := by
        rw [ReadCursor.takeNumber, Action.bind_of_ok taken, value.ofBytes_bytes]
        rfl
      exact Action.map_eq_ok_iff.2 ⟨value, read, rfl⟩
  | run bytes => exact Action.map_eq_ok_iff.2 ⟨bytes, take_of_put beside found, rfl⟩
  | align alignment =>
      -- the padding of the writer is there, so the aligned offset is not behind the end
      have inside := found.length_le
      have moved := writer.offset_align alignment
      have aligned : ReadCursor.align alignment reader =
          .ok () { reader with offset := (writer.align alignment).offset } := by
        rw [ReadCursor.align_eq_ok_iff, beside, ← moved]
        exact ⟨inside, rfl⟩
      exact Action.map_eq_ok_iff.2 ⟨(), aligned, rfl⟩

/-- Steps are read again over any bytes that begin with those that they leave. -/
theorem takeAll_again {steps : List Step} (fits : FitAll steps writer)
    (beside : reader.offset = writer.offset)
    (found : (takeAll steps writer).bytes <+: reader.bytes) :
    ReadCursor.takeAll (steps.map Step.again) reader =
      .ok (record steps writer) { reader with offset := (takeAll steps writer).offset } := by
  induction steps generalizing writer reader with
  | nil =>
      simp only [takeAll, ← beside]
      rfl
  | cons step rest ih =>
      -- what the first step left is still the beginning of what all of them leave
      rcases fits with ⟨_, restFits⟩
      have first := Step.take_again beside ((takeAll_keeps_bytes restFits).trans found)
      have later := @ih (step.take writer) { reader with offset := (step.take writer).offset }
        restFits rfl found
      rw [List.map_cons, ReadCursor.takeAll, Action.bind_of_ok first]
      exact Action.bind_of_ok later

end WriteCursor

/-- Whatever steps a cursor took, as long as no alignment leaves 64 bits, a cursor over the bytes
that came of them takes the same steps: none fails, each finds what was written, each ends at the
offset where it ended then, and the last one ends at the end. -/
theorem rereading_keeps_step (steps : List WriteCursor.Step) (fits : WriteCursor.FitAll steps {}) :
    ∃ final : ReadCursor,
      ReadCursor.takeAll (steps.map WriteCursor.Step.again)
          { bytes := (WriteCursor.takeAll steps {}).bytes } =
        .ok (WriteCursor.record steps {}) final ∧
      final.offset = (WriteCursor.takeAll steps {}).offset ∧
      final.atEnd = true ∧ final.remaining = 0 := by
  have read := @WriteCursor.takeAll_again {} { bytes := (WriteCursor.takeAll steps {}).bytes } steps
    fits rfl (List.prefix_refl _)
  refine ⟨_, read, rfl, ?_, ?_⟩
  · exact decide_eq_true (Nat.le_refl _)
  · exact Nat.sub_self _

/-- Numbers of several widths, a run and three paddings, to a number that is no power of two, to
none and to a power of two; the floats are a not-a-number and a negative zero. -/
theorem rereading_keeps_step_mixed :
    let steps : List WriteCursor.Step :=
      [.number (.uint8 17), .align 6, .number (.int16 (-2)), .run [1, 2, 3], .align 0, .align 8,
        .number (.float64 0x7ff8000000000001), .number (.float32 0x80000000)]
    WriteCursor.FitAll steps {} ∧
      ∃ final : ReadCursor,
        ReadCursor.takeAll
            [.number .uint8, .align 6, .number .int16, .run 3, .align 0, .align 8,
              .number .float64, .number .float32]
            { bytes := [17, 0, 254, 255, 1, 2, 3, 0, 1, 0, 0, 0, 0, 0, 248, 127, 0, 0, 0, 128] } =
          .ok [(.number (.uint8 17), 1), (.nothing, 2), (.number (.int16 (-2)), 4),
            (.run [1, 2, 3], 7), (.nothing, 7), (.nothing, 8),
            (.number (.float64 0x7ff8000000000001), 16),
            (.number (.float32 0x80000000), 20)] final ∧
        final.offset = 20 ∧ final.atEnd = true ∧ final.remaining = 0 := by
  intro steps
  have fits : WriteCursor.FitAll steps {} := by decide
  exact ⟨fits, rereading_keeps_step steps fits⟩

end ValueBus
