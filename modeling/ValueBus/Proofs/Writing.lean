import ValueBus.Memory.Writer
import ValueBus.Proofs.Actions
import ValueBus.Proofs.Calls

/-!
# What the memory writer writes

A call that has chunks and breaks no limit puts exactly its chunks. A call that breaks a limit fails
with that limit, and a call that has no chunks fails. Steps inherit this from their calls.
-/

namespace ValueBus.MemoryWriter

variable {writer : MemoryWriter}

theorem checkLength_of_none {what : LimitKind} {limit actual : Nat}
    (within : StreamError.overLimit? what limit actual = none) :
    checkLength what limit actual writer = .ok () writer := by
  have fits : ¬ actual > limit := Nat.not_lt.2 (StreamError.overLimit?_eq_none_iff.1 within)
  rw [checkLength, if_neg fits]
  rfl

theorem checkLength_of_some {what : LimitKind} {limit actual : Nat} {fault : StreamError}
    (unlatched : writer.error = none)
    (exceeds : StreamError.overLimit? what limit actual = some fault) :
    ∃ after, checkLength what limit actual writer = .error fault after := by
  simp only [StreamError.overLimit?, Option.ite_none_right_eq_some, Option.some.injEq] at exceeds
  rw [checkLength, if_pos exceeds.1, exceeds.2]
  exact ⟨_, Action.raise_of_unlatched unlatched⟩

theorem openFrame_apply (kind : FrameKind) :
    openFrame kind writer =
      (checkLength .depth writer.limits.maxDepth (writer.frames.length + 1) >>= fun _ =>
        set { writer with frames := kind :: writer.frames }) writer :=
  rfl

theorem openFrame_of_none {kind : FrameKind}
    (within : StreamError.overLimit? .depth writer.limits.maxDepth (writer.frames.length + 1) =
      none) :
    openFrame kind writer = .ok () { writer with frames := kind :: writer.frames } := by
  rw [openFrame_apply, Action.bind_of_ok (checkLength_of_none within)]
  rfl

theorem openFrame_of_some {kind : FrameKind} {fault : StreamError} (unlatched : writer.error = none)
    (exceeds : StreamError.overLimit? .depth writer.limits.maxDepth (writer.frames.length + 1) =
      some fault) :
    ∃ after, openFrame kind writer = .error fault after := by
  rcases checkLength_of_some unlatched exceeds with ⟨after, failed⟩
  exact ⟨after, by rw [openFrame_apply, Action.bind_of_error failed]⟩

theorem putLength_of_some {length : Nat} {deployment : Option Deployment} {chunk : Chunk}
    (described : Chunk.length? length deployment = some chunk) :
    putLength length deployment writer =
      .ok () { writer with cursor := writer.cursor.putChunk chunk } := by
  unfold Chunk.length? at described
  unfold putLength
  cases selected : LengthWidth.ofDeployment deployment with
  | error fault => simp [selected] at described
  | ok width =>
      simp only [selected, Option.ite_none_right_eq_some, Option.some.injEq] at described ⊢
      rw [if_neg (Nat.not_lt.2 described.1), ← described.2]
      rfl

theorem putLength_of_none {length : Nat} {deployment : Option Deployment}
    (undescribed : Chunk.length? length deployment = none) :
    ∃ fault after, putLength length deployment writer = .error fault after := by
  unfold Chunk.length? at undescribed
  unfold putLength
  cases selected : LengthWidth.ofDeployment deployment with
  | error fault => exact Action.raise_eq_error _ _
  | ok width =>
      have long : length > width.greatest := by simpa [selected] using undescribed
      simp only [long, if_true]
      exact Action.raise_eq_error _ _

theorem putLeaf_text_apply (value : String) (deployment : Option Deployment) :
    putLeaf (.text value) deployment writer =
      (checkLength .string writer.limits.maxStringLength (Utf8.encode value).length >>= fun _ =>
        putLength ((Utf8.encode value).length + 1) deployment >>= fun _ =>
          put (Utf8.encode value ++ [0])) writer :=
  rfl

theorem putLeaf_bytes_apply (value : List UInt8) (deployment : Option Deployment) :
    putLeaf (.bytes value) deployment writer =
      (checkLength .byteBuffer writer.limits.maxStringLength value.length >>= fun _ =>
        putLength value.length deployment >>= fun _ => put value) writer :=
  rfl

/-- A leaf that breaks no limit is put as its chunks. -/
theorem putLeaf_of_none {value : Leaf} {deployment : Option Deployment} {chunks : List Chunk}
    (described : (WriteCall.leaf value deployment).chunks? = some chunks)
    (within : (WriteCall.leaf value deployment).lengthFault? writer.limits = none) :
    putLeaf value deployment writer =
      .ok () { writer with cursor := writer.cursor.putChunks chunks } := by
  cases value with
  | bool value =>
      cases described
      rw [WriteCursor.putChunks_singleton, WriteCursor.putChunk_plain]
      rfl
  | number value => cases described; rfl
  | text value =>
      rcases Option.map_eq_some_iff.1 described with ⟨chunk, lengthDescribed, rfl⟩
      have checked : checkLength .string writer.limits.maxStringLength (Utf8.encode value).length
          writer = .ok () writer := checkLength_of_none within
      rw [putLeaf_text_apply, Action.bind_of_ok checked,
        Action.bind_of_ok (putLength_of_some lengthDescribed), WriteCursor.putChunks_pair,
        WriteCursor.putChunk_plain]
      rfl
  | bytes value =>
      rcases Option.map_eq_some_iff.1 described with ⟨chunk, lengthDescribed, rfl⟩
      have checked : checkLength .byteBuffer writer.limits.maxStringLength value.length
          writer = .ok () writer := checkLength_of_none within
      rw [putLeaf_bytes_apply, Action.bind_of_ok checked,
        Action.bind_of_ok (putLength_of_some lengthDescribed), WriteCursor.putChunks_pair,
        WriteCursor.putChunk_plain]
      rfl

theorem putLeaf_of_some {value : Leaf} {deployment : Option Deployment} {fault : StreamError}
    (unlatched : writer.error = none)
    (exceeds : (WriteCall.leaf value deployment).lengthFault? writer.limits = some fault) :
    ∃ after, putLeaf value deployment writer = .error fault after := by
  cases value with
  | bool value => cases exceeds
  | number value => cases exceeds
  | text value =>
      rcases checkLength_of_some unlatched exceeds with ⟨after, failed⟩
      exact ⟨after, by rw [putLeaf_text_apply, Action.bind_of_error failed]⟩
  | bytes value =>
      rcases checkLength_of_some unlatched exceeds with ⟨after, failed⟩
      exact ⟨after, by rw [putLeaf_bytes_apply, Action.bind_of_error failed]⟩

theorem putLeaf_of_undescribed {value : Leaf} {deployment : Option Deployment}
    (undescribed : (WriteCall.leaf value deployment).chunks? = none) :
    ∃ fault after, putLeaf value deployment writer = .error fault after := by
  cases value with
  | bool value => cases undescribed
  | number value => cases undescribed
  | text value =>
      rw [putLeaf_text_apply]
      refine Action.bind_fails (fun _ middle => ?_) writer
      rcases putLength_of_none (Option.map_eq_none_iff.1 undescribed) with ⟨fault, after, failed⟩
      exact ⟨fault, after, Action.bind_of_error failed⟩
  | bytes value =>
      rw [putLeaf_bytes_apply]
      refine Action.bind_fails (fun _ middle => ?_) writer
      rcases putLength_of_none (Option.map_eq_none_iff.1 undescribed) with ⟨fault, after, failed⟩
      exact ⟨fault, after, Action.bind_of_error failed⟩

theorem enterRepeated_apply (kind : Repetition) (length : Nat) (deployment : Option Deployment) :
    enterRepeated kind length deployment writer =
      (checkLength .sequence writer.limits.maxSequenceLength length >>= fun _ =>
        openFrame kind.frame >>= fun _ => putLength length deployment) writer :=
  rfl

theorem enterRepeated_of_none {kind : Repetition} {length : Nat} {deployment : Option Deployment}
    {chunk : Chunk} (described : Chunk.length? length deployment = some chunk)
    (short : StreamError.overLimit? .sequence writer.limits.maxSequenceLength length = none)
    (shallow : StreamError.overLimit? .depth writer.limits.maxDepth (writer.frames.length + 1) =
      none) :
    enterRepeated kind length deployment writer =
      .ok () { writer with
        cursor := writer.cursor.putChunk chunk, frames := kind.frame :: writer.frames } := by
  rw [enterRepeated_apply, Action.bind_of_ok (checkLength_of_none short),
    Action.bind_of_ok (openFrame_of_none shallow), putLength_of_some described]

theorem enterRepeated_of_some {kind : Repetition} {length : Nat} {deployment : Option Deployment}
    {fault : StreamError} (unlatched : writer.error = none)
    (exceeds : (StreamError.overLimit? .sequence writer.limits.maxSequenceLength length).or
      (StreamError.overLimit? .depth writer.limits.maxDepth (writer.frames.length + 1)) =
        some fault) :
    ∃ after, enterRepeated kind length deployment writer = .error fault after := by
  rw [enterRepeated_apply]
  rcases Option.or_eq_some_iff.1 exceeds with long | ⟨short, deep⟩
  · rcases checkLength_of_some unlatched long with ⟨after, failed⟩
    exact ⟨after, Action.bind_of_error failed⟩
  · rcases openFrame_of_some unlatched deep with ⟨after, failed⟩
    rw [Action.bind_of_ok (checkLength_of_none short)]
    exact ⟨after, Action.bind_of_error failed⟩

theorem enterRepeated_of_undescribed {kind : Repetition} {length : Nat}
    {deployment : Option Deployment}
    (undescribed : (Chunk.length? length deployment).map ([·]) = none) :
    ∃ fault after, enterRepeated kind length deployment writer = .error fault after := by
  rw [enterRepeated_apply]
  refine Action.bind_fails (fun _ middle => Action.bind_fails (fun _ last => ?_) middle) writer
  exact putLength_of_none (Option.map_eq_none_iff.1 undescribed)

/-- Entering a frame that breaks no limit puts what announces it and opens it. -/
theorem enter_of_none {opening : Opening} {deployment : Option Deployment} {chunks : List Chunk}
    (described : (WriteCall.enter opening deployment).chunks? = some chunks)
    (within : (WriteCall.enter opening deployment).limitFault? writer.limits
      writer.frames.length = none) :
    enter opening deployment writer =
      .ok () { writer with
        cursor := writer.cursor.putChunks chunks, frames := opening.kind :: writer.frames } := by
  rcases Option.or_eq_none_iff.1 within with ⟨short, shallow⟩
  cases opening with
  | struct =>
      cases described
      have steps : enter .struct deployment writer =
          (openFrame .struct >>= fun _ => align 8) writer := rfl
      rw [steps, Action.bind_of_ok (openFrame_of_none shallow), WriteCursor.putChunks_singleton,
        WriteCursor.putChunk_boundary]
      rfl
  | polymorphic serial =>
      cases described
      have steps : enter (.polymorphic serial) deployment writer =
          (openFrame .polymorphic >>= fun _ => putNumber (.uint32 serial) >>= fun _ => align 8)
            writer := rfl
      rw [steps, Action.bind_of_ok (openFrame_of_none shallow), WriteCursor.putChunks_pair,
        WriteCursor.putChunk_boundary]
      rfl
  | variant tag =>
      simp only [WriteCall.chunks?, Option.ite_none_right_eq_some, Option.some.injEq] at described
      have steps : enter (.variant tag) deployment writer =
          (openFrame .variant >>= fun _ => put [UInt8.ofNat tag]) writer := by
        have fits : ¬ tag > 255 := Nat.not_lt.2 described.1
        simp only [enter, if_neg fits]
      rw [steps, Action.bind_of_ok (openFrame_of_none shallow), ← described.2,
        WriteCursor.putChunks_singleton, WriteCursor.putChunk_plain]
      rfl
  | sequence length =>
      rcases Option.map_eq_some_iff.1 described with ⟨chunk, lengthDescribed, rfl⟩
      exact enterRepeated_of_none lengthDescribed short shallow
  | map length =>
      rcases Option.map_eq_some_iff.1 described with ⟨chunk, lengthDescribed, rfl⟩
      exact enterRepeated_of_none lengthDescribed short shallow
  | mapEntry =>
      cases described
      exact openFrame_of_none shallow

theorem enter_of_some {opening : Opening} {deployment : Option Deployment} {chunks : List Chunk}
    {fault : StreamError} (unlatched : writer.error = none)
    (described : (WriteCall.enter opening deployment).chunks? = some chunks)
    (exceeds : (WriteCall.enter opening deployment).limitFault? writer.limits
      writer.frames.length = some fault) :
    ∃ after, enter opening deployment writer = .error fault after := by
  cases opening with
  | struct =>
      rcases openFrame_of_some unlatched exceeds with ⟨after, failed⟩
      exact ⟨after, Action.bind_of_error failed⟩
  | polymorphic serial =>
      rcases openFrame_of_some unlatched exceeds with ⟨after, failed⟩
      exact ⟨after, Action.bind_of_error failed⟩
  | variant tag =>
      simp only [WriteCall.chunks?, Option.ite_none_right_eq_some, Option.some.injEq] at described
      have fits : ¬ tag > 255 := Nat.not_lt.2 described.1
      rcases openFrame_of_some unlatched exceeds with ⟨after, failed⟩
      simp only [enter, if_neg fits]
      exact ⟨after, Action.bind_of_error failed⟩
  | sequence length => exact enterRepeated_of_some unlatched exceeds
  | map length => exact enterRepeated_of_some unlatched exceeds
  | mapEntry => exact openFrame_of_some unlatched exceeds

theorem closeFrame_of_innermost {kind : FrameKind} (innermost : writer.frames.head? = some kind) :
    closeFrame kind writer = .ok () { writer with frames := writer.frames.tail } := by
  have steps : closeFrame kind writer =
      (if writer.frames.head? = some kind then pure ()
        else Latch.raise (.unbalanced (.endedWriting kind writer.frames.head?)))
          { writer with frames := writer.frames.tail } := rfl
  rw [steps, if_pos innermost]
  rfl

/-- A call that breaks no limit puts its chunks. -/
theorem takeCall_of_none {call : WriteCall} {chunks : List Chunk} {frames : List FrameKind}
    (described : call.chunks? = some chunks)
    (within : call.limitFault? writer.limits writer.frames.length = none)
    (framed : call.framesAfter? writer.frames = some frames) :
    takeCall call writer =
      .ok () { writer with cursor := writer.cursor.putChunks chunks, frames } := by
  cases call with
  | leaf value deployment =>
      cases framed
      exact putLeaf_of_none described within
  | enter opening deployment =>
      cases framed
      exact enter_of_none described within
  | leave kind =>
      cases described
      simp only [WriteCall.framesAfter?, Option.ite_none_right_eq_some, Option.some.injEq] at framed
      rw [← framed.2]
      exact closeFrame_of_innermost framed.1

theorem takeCall_of_some {call : WriteCall} {chunks : List Chunk} {fault : StreamError}
    (unlatched : writer.error = none) (described : call.chunks? = some chunks)
    (exceeds : call.limitFault? writer.limits writer.frames.length = some fault) :
    ∃ after, takeCall call writer = .error fault after := by
  cases call with
  | leaf value deployment => exact putLeaf_of_some unlatched exceeds
  | enter opening deployment => exact enter_of_some unlatched described exceeds
  | leave kind => cases exceeds

/-- A call that no bytes stand for fails. -/
theorem takeCall_of_undescribed {call : WriteCall} (undescribed : call.chunks? = none) :
    ∃ fault after, takeCall call writer = .error fault after := by
  cases call with
  | leaf value deployment => exact putLeaf_of_undescribed undescribed
  | enter opening deployment =>
      cases opening with
      | struct => cases undescribed
      | polymorphic serial => cases undescribed
      | variant tag =>
          have large : tag > 255 := by simpa [WriteCall.chunks?] using undescribed
          simp only [takeCall, enter, large, if_true]
          exact Action.bind_fails (fun _ middle => Action.raise_eq_error _ _) _
      | sequence length => exact enterRepeated_of_undescribed undescribed
      | map length => exact enterRepeated_of_undescribed undescribed
      | mapEntry => cases undescribed
  | leave kind => cases undescribed

theorem run_call {call : WriteCall} (unlatched : writer.error = none) :
    (WriteStep.call call).run writer = takeCall call writer := by
  have steps : (WriteStep.call call).run writer =
      (Latch.check >>= fun _ => takeCall call) writer := rfl
  rw [steps, Action.bind_of_ok (Action.check_of_unlatched unlatched)]

open WriteStep

/-- Steps that break no limit put their chunks. -/
theorem runAll_of_none {steps : List WriteStep} {chunks : List Chunk} {frames : List FrameKind}
    (unlatched : writer.error = none) (described : chunksAll? steps = some chunks)
    (within : limitFaultAll? writer.limits writer.frames.length steps = none)
    (framed : framesAfterAll? steps writer.frames = some frames) :
    runAll steps writer =
      .ok () { writer with cursor := writer.cursor.putChunks chunks, frames } := by
  induction steps generalizing writer chunks with
  | nil => cases described; cases framed; rfl
  | cons step rest ih =>
      rcases chunksAll?_cons_eq_some_iff.1 described with
        ⟨first, later, firstDescribed, restDescribed, rfl⟩
      rcases Option.or_eq_none_iff.1 within with ⟨firstWithin, restWithin⟩
      rcases Option.bind_eq_some_iff.1 framed with ⟨middle, firstFramed, restFramed⟩
      cases step with
      | raise error => cases firstDescribed
      | call call =>
          have taken := takeCall_of_none firstDescribed firstWithin firstFramed
          rw [← run_call unlatched] at taken
          rw [runAll, Action.bind_of_ok taken, WriteCursor.putChunks_append]
          rw [depthAfter_of_framesAfter? firstFramed] at restWithin
          exact @ih { writer with cursor := writer.cursor.putChunks first, frames := middle } later
            unlatched restDescribed restWithin restFramed

/-- Steps that break a limit fail with the first that they break. -/
theorem runAll_of_some {steps : List WriteStep} {chunks : List Chunk} {frames : List FrameKind}
    {fault : StreamError} (unlatched : writer.error = none)
    (described : chunksAll? steps = some chunks)
    (exceeds : limitFaultAll? writer.limits writer.frames.length steps = some fault)
    (framed : framesAfterAll? steps writer.frames = some frames) :
    ∃ after, runAll steps writer = .error fault after := by
  induction steps generalizing writer chunks with
  | nil => cases exceeds
  | cons step rest ih =>
      rcases chunksAll?_cons_eq_some_iff.1 described with
        ⟨first, later, firstDescribed, restDescribed, rfl⟩
      rcases Option.bind_eq_some_iff.1 framed with ⟨middle, firstFramed, restFramed⟩
      cases step with
      | raise error => cases firstDescribed
      | call call =>
          rcases Option.or_eq_some_iff.1 exceeds with firstOver | ⟨firstWithin, restOver⟩
          · rcases takeCall_of_some unlatched firstDescribed firstOver with ⟨after, failed⟩
            rw [← run_call unlatched] at failed
            exact ⟨after, Action.bind_of_error failed⟩
          · have taken := takeCall_of_none firstDescribed firstWithin firstFramed
            rw [← run_call unlatched] at taken
            rw [runAll, Action.bind_of_ok taken]
            rw [depthAfter_of_framesAfter? firstFramed] at restOver
            exact @ih { writer with cursor := writer.cursor.putChunks first, frames := middle }
              later unlatched restDescribed restOver restFramed

theorem runAll_of_undescribed {steps : List WriteStep} (undescribed : chunksAll? steps = none)
    (writer : MemoryWriter) : ∃ fault after, runAll steps writer = .error fault after := by
  induction steps generalizing writer with
  | nil => cases undescribed
  | cons step rest ih =>
      have undescribed := Option.bind_eq_none_iff.1 undescribed
      cases step with
      | raise error =>
          rcases Action.raise_eq_error error writer with ⟨fault, after, failed⟩
          exact ⟨fault, after, Action.bind_of_error failed⟩
      | call call =>
          cases firstDescribed : call.chunks? with
          | none =>
              rcases Action.bind_fails (fun _ _ => takeCall_of_undescribed firstDescribed) writer
                with ⟨fault, after, failed⟩
              exact ⟨fault, after, Action.bind_of_error failed⟩
          | some first =>
              have restUndescribed := Option.map_eq_none_iff.1 (undescribed first firstDescribed)
              exact Action.bind_fails (fun _ middle => ih restUndescribed middle) writer

theorem described_of_runAll {steps : List WriteStep} {after : MemoryWriter}
    (taken : runAll steps writer = .ok () after) : ∃ chunks, chunksAll? steps = some chunks := by
  cases described : chunksAll? steps with
  | some chunks => exact ⟨chunks, rfl⟩
  | none =>
      rcases runAll_of_undescribed described writer with ⟨fault, failure, failed⟩
      rw [failed] at taken
      cases taken

/-- Balanced steps are taken if every one of them has chunks and none breaks a limit. The writer
then holds their chunks behind what it held before, and nothing else has changed. -/
theorem runAll_eq_ok_iff {steps : List WriteStep} (balanced : Balanced steps)
    (unlatched : writer.error = none) {after : MemoryWriter} :
    runAll steps writer = .ok () after ↔
      ∃ chunks, chunksAll? steps = some chunks ∧
        limitFaultAll? writer.limits writer.frames.length steps = none ∧
          { writer with cursor := writer.cursor.putChunks chunks } = after := by
  constructor
  · intro taken
    rcases described_of_runAll taken with ⟨chunks, described⟩
    cases within : limitFaultAll? writer.limits writer.frames.length steps with
    | none =>
        rw [runAll_of_none unlatched described within (balanced writer.frames)] at taken
        cases taken
        exact ⟨chunks, described, rfl, rfl⟩
    | some fault =>
        rcases runAll_of_some unlatched described within (balanced writer.frames) with
          ⟨failure, failed⟩
        rw [failed] at taken
        cases taken
  · rintro ⟨chunks, described, within, rfl⟩
    exact runAll_of_none unlatched described within (balanced writer.frames)

/-- What a new writer holds after balanced steps: their chunks and nothing else. -/
theorem runAll_withLimits_eq_ok_iff {steps : List WriteStep} (balanced : Balanced steps)
    {limits : Limits} {after : MemoryWriter} :
    runAll steps (withLimits limits) = .ok () after ↔
      ∃ chunks, chunksAll? steps = some chunks ∧ limitFaultAll? limits 0 steps = none ∧
        { limits, cursor := WriteCursor.putChunks {} chunks } = after :=
  runAll_eq_ok_iff balanced rfl

end ValueBus.MemoryWriter
