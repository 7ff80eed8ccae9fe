import ValueBus.Proofs.RoundTrip

/-!
# Steps that stand in a run of bytes

Steps stand between two cursors if every one of them has chunks, the chunks lead from the one cursor
to the other, and no limit is broken. This is what a finished writer leaves behind and what a
program that follows the steps needs. It splits where the steps do, so that a reader may go through
a part of what was written and stop.
-/

namespace ValueBus

open WriteStep

theorem WriteStep.encode_eq_ok_iff {steps : List WriteStep} {limits : Limits} {bytes : List UInt8} :
    encode steps limits = .ok bytes ↔
      ∃ writer : MemoryWriter, runAll steps (.withLimits limits) = .ok () writer ∧
        writer.finish = .ok bytes := by
  unfold encode
  cases runAll steps (MemoryWriter.withLimits limits) with
  | ok answer writer => simp
  | error fault writer => simp

/-- Steps stand between two cursors and break no limit while `depth` frames are open. -/
def Stands (limits : Limits) (depth : Nat) (steps : List WriteStep) (cursor final : ReadCursor) :
    Prop :=
  ∃ chunks, chunksAll? steps = some chunks ∧ cursor.passAll? chunks = some final ∧
    limitFaultAll? limits depth steps = none

namespace Stands

variable {limits : Limits} {depth : Nat} {cursor final : ReadCursor}

theorem nil_iff : Stands limits depth [] cursor final ↔ cursor = final := by
  constructor
  · rintro ⟨chunks, described, passed, _⟩
    cases described
    cases passed
    rfl
  · rintro rfl
    exact ⟨[], rfl, rfl, rfl⟩

theorem append_iff {first second : List WriteStep} :
    Stands limits depth (first ++ second) cursor final ↔
      ∃ middle, Stands limits depth first cursor middle ∧
        Stands limits (depthAfterAll first depth) second middle final := by
  constructor
  · rintro ⟨chunks, described, passed, within⟩
    rcases chunksAll?_append_eq_some_iff.1 described with
      ⟨earlier, later, firstDescribed, secondDescribed, rfl⟩
    rcases ReadCursor.passAll?_append_eq_some_iff.1 passed with
      ⟨middle, firstPassed, secondPassed⟩
    rcases limitFaultAll?_append_eq_none_iff.1 within with ⟨firstWithin, secondWithin⟩
    exact ⟨middle, ⟨earlier, firstDescribed, firstPassed, firstWithin⟩,
      ⟨later, secondDescribed, secondPassed, secondWithin⟩⟩
  · rintro ⟨middle, ⟨earlier, firstDescribed, firstPassed, firstWithin⟩,
      ⟨later, secondDescribed, secondPassed, secondWithin⟩⟩
    exact ⟨earlier ++ later,
      chunksAll?_append_eq_some_iff.2 ⟨earlier, later, firstDescribed, secondDescribed, rfl⟩,
      ReadCursor.passAll?_append_eq_some_iff.2 ⟨middle, firstPassed, secondPassed⟩,
      limitFaultAll?_append_eq_none_iff.2 ⟨firstWithin, secondWithin⟩⟩

theorem cons_iff {step : WriteStep} {rest : List WriteStep} :
    Stands limits depth (step :: rest) cursor final ↔
      ∃ middle, Stands limits depth [step] cursor middle ∧
        Stands limits (step.depthAfter depth) rest middle final := by
  rw [← List.singleton_append, append_iff]
  rfl

/-- Nothing stands for the end of a frame. -/
theorem leaving_iff {kind : FrameKind} :
    Stands limits depth [Value.leaving kind] cursor final ↔ cursor = final := by
  constructor
  · rintro ⟨chunks, described, passed, _⟩
    cases described
    cases passed
    rfl
  · rintro rfl
    exact ⟨[], rfl, rfl, rfl⟩

/-- Balanced steps leave the depth as it is for what comes behind them. -/
theorem balanced_append_iff {first second : List WriteStep} (balanced : Balanced first) :
    Stands limits depth (first ++ second) cursor final ↔
      ∃ middle, Stands limits depth first cursor middle ∧
        Stands limits depth second middle final := by
  rw [append_iff, balanced.depthAfterAll_eq]

/-- What stands in a frame is one frame deeper. -/
theorem bracket_iff {opening : Opening} {deployment : Option Deployment} {kind : FrameKind}
    {body : List WriteStep} (balanced : Balanced body) :
    Stands limits depth (Value.entering opening deployment :: body ++ [Value.leaving kind]) cursor
        final ↔
      ∃ middle, Stands limits depth [Value.entering opening deployment] cursor middle ∧
        Stands limits (depth + 1) body middle final := by
  have within (middle : ReadCursor) :
      Stands limits (depth + 1) (body ++ [Value.leaving kind]) middle final ↔
        Stands limits (depth + 1) body middle final := by
    rw [balanced_append_iff balanced]
    simp only [leaving_iff, exists_eq_right]
  rw [List.cons_append, cons_iff]
  exact exists_congr fun middle => and_congr_right fun _ => within middle

/-- The bytes of balanced steps hold the steps and nothing else. -/
theorem of_encode {steps : List WriteStep} (balanced : Balanced steps) {bytes : List UInt8}
    (encoded : WriteStep.encode steps limits = .ok bytes) :
    Stands limits 0 steps { bytes } ⟨bytes, bytes.length⟩ := by
  rcases encode_eq_ok_iff.1 encoded with ⟨writer, taken, finished⟩
  rcases (MemoryWriter.runAll_withLimits_eq_ok_iff balanced).1 taken with
    ⟨chunks, described, within, rfl⟩
  cases finished
  exact ⟨chunks, described, ReadCursor.passAll?_putChunks chunks, within⟩

end Stands

theorem ReadsAs.run_of_stands {α : Type} {limits : Limits} {before after : List ReadFrame}
    {steps : List WriteStep} {program : ReadProgram α} {value : α} {cursor final : ReadCursor}
    (reads : ReadsAs limits before steps program value after)
    (stands : Stands limits before.length steps cursor final) :
    program.run (MemoryReader.unlatched limits before cursor) =
      .ok value (MemoryReader.unlatched limits after final) := by
  rcases stands with ⟨chunks, described, passed, within⟩
  exact reads.answers described passed within

/-- A leaf that stands somewhere is read there. -/
theorem MemoryReader.leaf_of_stands {limits : Limits} {frames : List ReadFrame} {value : Leaf}
    {deployment : Option Deployment} {cursor final : ReadCursor}
    (stands : Stands limits frames.length [.call (.leaf value deployment)] cursor final) :
    InputStream.leaf value.kind deployment (MemoryReader.unlatched limits frames cursor) =
      .ok value (MemoryReader.unlatched limits frames final) := by
  have reads : ReadsAs limits frames [.call (.leaf value deployment)]
      (ReadProgram.readLeaf value.kind deployment) value frames := .leaf value deployment
  have answered : (InputStream.leaf value.kind deployment : Action MemoryReader Leaf) =
      (ReadProgram.readLeaf value.kind deployment).run := (bind_pure _).symm
  rw [answered]
  exact reads.run_of_stands stands

/-- A frame that stands somewhere is entered there. -/
theorem MemoryReader.enter_of_stands {limits : Limits} {frames : List ReadFrame}
    {opening : Opening} {kind : FrameKind} {frame : ReadFrame} {deployment : Option Deployment}
    {cursor final : ReadCursor} (kindEq : opening.kind = kind)
    (frameEq : opening.readFrame = frame)
    (stands : Stands limits frames.length [Value.entering opening deployment] cursor final) :
    InputStream.enter kind deployment (MemoryReader.unlatched limits frames cursor) =
      .ok opening (MemoryReader.unlatched limits (frame :: frames) final) := by
  subst kindEq frameEq
  have reads : ReadsAs limits frames [Value.entering opening deployment]
      (ReadProgram.enterFrame opening.kind deployment) opening (opening.readFrame :: frames) :=
    .enter opening deployment
  have entered : (InputStream.enter opening.kind deployment : Action MemoryReader Opening) =
      (ReadProgram.enterFrame opening.kind deployment).run := (bind_pure _).symm
  rw [entered]
  exact reads.run_of_stands stands

end ValueBus
