import ValueBus.Proofs.Reading
import ValueBus.Schema.Read
import ValueBus.Value.Entries

/-!
# Programs that follow steps

`ReadsAs` relates a program to the steps that it reads back: over bytes that hold the chunks of the
steps, the program answers with a given value, and where the steps break a limit it fails with the
first limit that they break. The relation is composed as programs are, so that a program for a type
is related to the steps of a value part by part.

The frames before and after are part of the relation, since an item of a sequence is read inside a
frame that counts the items still to come.
-/

namespace ValueBus

namespace ReadProgram

variable {σ α β : Type} [InputStream σ]

theorem run_bind (program : ReadProgram α) (next : α → ReadProgram β) :
    ((program >>= next).run : Action σ β) = program.run >>= fun answer => (next answer).run := by
  induction program with
  | done value => rfl
  | raise error => exact (Action.raise_bind error _).symm
  | leaf kind deployment following ih =>
      have composed : ((ReadProgram.leaf kind deployment following >>= next).run : Action σ β) =
          InputStream.leaf kind deployment >>= fun leaf => (following leaf >>= next).run := rfl
      simp only [composed, run, bind_assoc]
      exact bind_congr ih
  | enter kind deployment following ih =>
      have composed : ((ReadProgram.enter kind deployment following >>= next).run : Action σ β) =
          InputStream.enter kind deployment >>= fun opening => (following opening >>= next).run :=
        rfl
      simp only [composed, run, bind_assoc]
      exact bind_congr ih
  | leave kind following ih =>
      have composed : ((ReadProgram.leave kind following >>= next).run : Action σ β) =
          InputStream.leave kind >>= fun _ => (following >>= next).run := rfl
      simp only [composed, run, bind_assoc]
      exact bind_congr fun _ => ih
  | hasMore kind following ih =>
      have composed : ((ReadProgram.hasMore kind following >>= next).run : Action σ β) =
          modifyGet (InputStream.hasMore kind) >>= fun more => (following more >>= next).run := rfl
      simp only [composed, run, bind_assoc]
      exact bind_congr ih
  | check following ih =>
      have composed : ((ReadProgram.check following >>= next).run : Action σ β) =
          Latch.check >>= fun _ => (following >>= next).run := rfl
      simp only [composed, run, bind_assoc]
      exact bind_congr fun _ => ih

theorem run_bind_eq_ok_iff {program : ReadProgram α} {next : α → ReadProgram β} {state after : σ}
    {value : β} :
    (program >>= next).run state = .ok value after ↔
      ∃ answer middle, program.run state = .ok answer middle ∧
        (next answer).run middle = .ok value after := by
  rw [run_bind]
  exact Action.bind_eq_ok_iff

theorem run_map (program : ReadProgram α) (change : α → β) :
    ((change <$> program).run : Action σ β) = change <$> program.run := by
  have steps : change <$> program = program >>= fun answer => pure (change answer) := rfl
  rw [steps, run_bind, map_eq_pure_bind]
  rfl

theorem run_map_eq_ok_iff {program : ReadProgram α} {change : α → β} {state after : σ} {value : β} :
    (change <$> program).run state = .ok value after ↔
      ∃ answer, program.run state = .ok answer after ∧ change answer = value := by
  rw [run_map]
  exact Action.map_eq_ok_iff

def readEntry (mapOrder : MapOrder) (readKey readValue : ReadProgram Value)
    (read : List (Value × Value)) : ReadProgram (List (Value × Value)) := do
  let _ ← enterFrame .mapEntry none
  let key ← readKey
  let value ← readValue
  leaveFrame .mapEntry
  if Value.hasKey key read then raise (.invalidData .repeatedKey)
  else pure (Value.addEntry mapOrder key value read)

/-- The part of reading an entry that does not depend on what was read before. -/
def readPair (readKey readValue : ReadProgram Value) : ReadProgram (Value × Value) := do
  let _ ← enterFrame .mapEntry none
  let entry ← (do
    let key ← readKey
    Prod.mk key <$> readValue)
  leaveFrame .mapEntry
  pure entry

/-- The part that does: an entry whose key was read before is refused. -/
def addPair (mapOrder : MapOrder) (read : List (Value × Value)) (entry : Value × Value) :
    ReadProgram (List (Value × Value)) :=
  if Value.hasKey entry.1 read then raise (.invalidData .repeatedKey)
  else pure (Value.addEntry mapOrder entry.1 entry.2 read)

theorem run_readEntry {mapOrder : MapOrder} {readKey readValue : ReadProgram Value}
    (read : List (Value × Value)) :
    ((readEntry mapOrder readKey readValue read).run : Action σ (List (Value × Value))) =
      (readPair readKey readValue >>= addPair mapOrder read).run := by
  have mapEq (key : Value) : Prod.mk key <$> readValue =
      readValue >>= fun value => pure (key, value) := rfl
  have runPure {α : Type} (answer : α) :
      ((pure answer : ReadProgram α).run : Action σ α) = pure answer := rfl
  simp only [readEntry, readPair, addPair, mapEq, run_bind, runPure, bind_assoc, pure_bind]

end ReadProgram

/-- A reader without a latched error. -/
def MemoryReader.unlatched (limits : Limits) (frames : List ReadFrame) (cursor : ReadCursor) :
    MemoryReader :=
  { cursor, frames, limits }

section Questions

open ReadProgram MemoryReader

variable {reader : MemoryReader}

theorem run_readLeaf (unlatched : reader.error = none) (kind : LeafKind)
    (deployment : Option Deployment) :
    (readLeaf kind deployment).run reader = takeLeaf kind deployment reader := by
  have steps : (readLeaf kind deployment).run reader =
      ((Latch.check >>= fun _ => takeLeaf kind deployment) >>= pure) reader := rfl
  rw [steps, bind_pure, Action.bind_of_ok (Action.check_of_unlatched unlatched)]

theorem run_enterFrame (unlatched : reader.error = none) (kind : FrameKind)
    (deployment : Option Deployment) :
    (enterFrame kind deployment).run reader = enter kind deployment reader := by
  have steps : (enterFrame kind deployment).run reader =
      ((Latch.check >>= fun _ => enter kind deployment) >>= pure) reader := rfl
  rw [steps, bind_pure, Action.bind_of_ok (Action.check_of_unlatched unlatched)]

theorem run_leaveFrame (unlatched : reader.error = none) (kind : FrameKind) :
    (leaveFrame kind).run reader = closeFrame kind reader := by
  have steps : (leaveFrame kind).run reader =
      ((Latch.check >>= fun _ => closeFrame kind) >>= pure) reader := rfl
  rw [steps, bind_pure, Action.bind_of_ok (Action.check_of_unlatched unlatched)]

theorem run_checkLatch (unlatched : reader.error = none) :
    checkLatch.run reader = .ok () reader := by
  have steps : checkLatch.run reader = (Latch.check >>= fun _ => pure ()) reader := rfl
  rw [steps, Action.bind_of_ok (Action.check_of_unlatched unlatched)]
  rfl

theorem run_more (kind : Repetition) :
    (more kind).run reader =
      .ok (MemoryReader.hasMore kind reader).1 (MemoryReader.hasMore kind reader).2 :=
  rfl

end Questions

open WriteStep (chunksAll? limitFaultAll? depthAfterAll)

/-- A program reads steps as a value: it answers with the value, or fails with the first limit that
the steps break. -/
structure ReadsAs {α : Type} (limits : Limits) (before : List ReadFrame) (steps : List WriteStep)
    (program : ReadProgram α) (value : α) (after : List ReadFrame) : Prop where
  depth : limitFaultAll? limits before.length steps = none →
    depthAfterAll steps before.length = after.length
  answers : ∀ {cursor : ReadCursor} {chunks : List Chunk} {final : ReadCursor},
    chunksAll? steps = some chunks → cursor.passAll? chunks = some final →
    limitFaultAll? limits before.length steps = none →
    program.run (MemoryReader.unlatched limits before cursor) =
      .ok value (MemoryReader.unlatched limits after final)
  refuses : ∀ {cursor : ReadCursor} {chunks : List Chunk} {final : ReadCursor}
    {fault : StreamError},
    chunksAll? steps = some chunks → cursor.passAll? chunks = some final →
    limitFaultAll? limits before.length steps = some fault →
    ∃ state, program.run (MemoryReader.unlatched limits before cursor) = .error fault state

namespace ReadsAs

variable {α β : Type} {limits : Limits} {before middle after frames : List ReadFrame}

theorem done (value : α) : ReadsAs limits frames [] (pure value) value frames where
  depth _ := rfl
  answers described passed _ := by
    cases described
    cases passed
    rfl
  refuses _ _ exceeds := by cases exceeds

/-- Programs are composed as their steps are. What comes second matters only if what comes first
breaks no limit. -/
theorem andThen {first rest : List WriteStep} {program : ReadProgram α} {next : α → ReadProgram β}
    {answer : α} {value : β} (reads : ReadsAs limits before first program answer middle)
    (nextReads : limitFaultAll? limits before.length first = none →
      ReadsAs limits middle rest (next answer) value after) :
    ReadsAs limits before (first ++ rest) (program >>= next) value after where
  depth within := by
    rcases WriteStep.limitFaultAll?_append_eq_none_iff.1 within with ⟨firstWithin, restWithin⟩
    rw [reads.depth firstWithin] at restWithin
    rw [WriteStep.depthAfterAll_append, reads.depth firstWithin]
    exact (nextReads firstWithin).depth restWithin
  answers described passed within := by
    rcases WriteStep.chunksAll?_append_eq_some_iff.1 described with
      ⟨chunks, later, firstDescribed, restDescribed, rfl⟩
    rcases ReadCursor.passAll?_append_eq_some_iff.1 passed with
      ⟨cursor, firstPassed, restPassed⟩
    rcases WriteStep.limitFaultAll?_append_eq_none_iff.1 within with ⟨firstWithin, restWithin⟩
    rw [reads.depth firstWithin] at restWithin
    rw [ReadProgram.run_bind,
      Action.bind_of_ok (reads.answers firstDescribed firstPassed firstWithin)]
    exact (nextReads firstWithin).answers restDescribed restPassed restWithin
  refuses described passed exceeds := by
    rcases WriteStep.chunksAll?_append_eq_some_iff.1 described with
      ⟨chunks, later, firstDescribed, restDescribed, rfl⟩
    rcases ReadCursor.passAll?_append_eq_some_iff.1 passed with
      ⟨cursor, firstPassed, restPassed⟩
    simp only [WriteStep.limitFaultAll?_append] at exceeds
    simp only [ReadProgram.run_bind]
    rcases Option.or_eq_some_iff.1 exceeds with exceeds | ⟨firstWithin, restOver⟩
    · rcases reads.refuses firstDescribed firstPassed exceeds with ⟨state, failed⟩
      exact ⟨state, Action.bind_of_error failed⟩
    · rw [reads.depth firstWithin] at restOver
      rw [Action.bind_of_ok (reads.answers firstDescribed firstPassed firstWithin)]
      exact (nextReads firstWithin).refuses restDescribed restPassed restOver

theorem map {steps : List WriteStep} {program : ReadProgram α} {answer : α}
    (reads : ReadsAs limits before steps program answer after) (change : α → β) :
    ReadsAs limits before steps (change <$> program) (change answer) after := by
  have composed : ReadsAs limits before (steps ++ []) (program >>= fun answer =>
      pure (change answer)) (change answer) after := reads.andThen fun _ => done (change answer)
  rwa [List.append_nil] at composed

open ReadProgram

theorem of_run {program : ReadProgram α} {value : α} (sameDepth : before.length = after.length)
    (runs : ∀ cursor, program.run (MemoryReader.unlatched limits before cursor) =
      .ok value (MemoryReader.unlatched limits after cursor)) :
    ReadsAs limits before [] program value after where
  depth _ := sameDepth
  answers described passed _ := by
    cases described
    cases passed
    exact runs _
  refuses _ _ exceeds := by cases exceeds

/-- A program that asks for one call reads one step. -/
theorem of_call {call : WriteCall} {program : ReadProgram α} {value : α}
    (depthEq : call.depthAfter before.length = after.length)
    (answers : ∀ {cursor chunks final}, call.chunks? = some chunks →
      cursor.passAll? chunks = some final → call.limitFault? limits before.length = none →
      program.run (MemoryReader.unlatched limits before cursor) =
        .ok value (MemoryReader.unlatched limits after final))
    (refuses : ∀ {cursor chunks final fault}, call.chunks? = some chunks →
      cursor.passAll? chunks = some final → call.limitFault? limits before.length = some fault →
      ∃ state, program.run (MemoryReader.unlatched limits before cursor) = .error fault state) :
    ReadsAs limits before [.call call] program value after := by
  have chunksEq : chunksAll? [.call call] = call.chunks? := by
    simp [chunksAll?, WriteStep.chunks?]
  have faultEq : limitFaultAll? limits before.length [.call call] =
      call.limitFault? limits before.length := Option.or_none
  refine ⟨fun _ => depthEq, ?_, ?_⟩
  · intro cursor chunks final described passed within
    exact answers (chunksEq ▸ described) passed (faultEq ▸ within)
  · intro cursor chunks final fault described passed exceeds
    exact refuses (chunksEq ▸ described) passed (faultEq ▸ exceeds)

theorem leaf (value : Leaf) (deployment : Option Deployment) :
    ReadsAs limits frames [.call (.leaf value deployment)] (readLeaf value.kind deployment) value
      frames := by
  refine of_call rfl ?_ ?_
  · intro cursor chunks final described passed within
    rw [run_readLeaf rfl]
    exact MemoryReader.takeLeaf_eq_ok_iff.2 ⟨rfl, chunks, final, described, within, passed, rfl⟩
  · intro cursor chunks final fault described passed exceeds
    rw [run_readLeaf rfl]
    exact MemoryReader.takeLeaf_of_some rfl described passed exceeds

theorem enter (opening : Opening) (deployment : Option Deployment) :
    ReadsAs limits frames [Value.entering opening deployment] (enterFrame opening.kind deployment)
      opening (opening.readFrame :: frames) := by
  refine of_call rfl ?_ ?_
  · intro cursor chunks final described passed within
    rw [run_enterFrame rfl]
    exact MemoryReader.enter_eq_ok_iff.2 ⟨rfl, chunks, final, described, within, passed, rfl⟩
  · intro cursor chunks final fault described passed exceeds
    rw [run_enterFrame rfl]
    exact MemoryReader.enter_of_some rfl described passed exceeds

theorem leave {kind : FrameKind} {frame : ReadFrame}
    (closes : ∀ cursor, MemoryReader.closeFrame kind
      (MemoryReader.unlatched limits (frame :: frames) cursor) =
        .ok () (MemoryReader.unlatched limits frames cursor)) :
    ReadsAs limits (frame :: frames) [Value.leaving kind] (leaveFrame kind) () frames := by
  refine of_call rfl ?_ ?_
  · intro cursor chunks final described passed within
    cases described
    cases passed
    rw [run_leaveFrame rfl]
    exact closes cursor
  · intro cursor chunks final fault described passed exceeds
    cases exceeds

theorem more_of_succ {kind : Repetition} {remaining : Nat} :
    ReadsAs limits (.counted kind (remaining + 1) :: frames) [] (more kind) true
      (.counted kind remaining :: frames) := by
  refine of_run rfl ?_
  intro cursor
  rw [run_more, MemoryReader.hasMore_of_counted_succ rfl rfl]
  rfl

theorem more_of_zero {kind : Repetition} :
    ReadsAs limits (.counted kind 0 :: frames) [] (more kind) false
      (.counted kind 0 :: frames) := by
  apply of_run rfl
  intro cursor
  rw [run_more, MemoryReader.hasMore_of_counted_zero rfl rfl]

theorem checkLatch : ReadsAs limits frames [] ReadProgram.checkLatch () frames :=
  of_run rfl fun _ => run_checkLatch rfl

/-- A frame that was entered is within the depth limit. -/
theorem depth_of_entering {depth : Nat} {opening : Opening} {deployment : Option Deployment}
    (within : limitFaultAll? limits depth [Value.entering opening deployment] = none) :
    depth + 1 ≤ limits.maxDepth := by
  have entered := (Option.or_eq_none_iff.1 within).1
  exact StreamError.overLimit?_eq_none_iff.1 (Option.or_eq_none_iff.1 entered).2

theorem enter_plain {opening : Opening} {kind : FrameKind} (deployment : Option Deployment)
    (kindEq : opening.kind = kind) (plain : opening.readFrame = .plain kind) :
    ReadsAs limits frames [Value.entering opening deployment] (enterFrame kind deployment) opening
      (.plain kind :: frames) := by
  have entered := @enter limits frames opening deployment
  rwa [kindEq, plain] at entered

theorem leave_plain (kind : FrameKind) :
    ReadsAs limits (.plain kind :: frames) [Value.leaving kind] (leaveFrame kind) () frames :=
  leave fun _ => MemoryReader.closeFrame_of_plain rfl

/-- A frame that does not repeat: what announces it, its members and its end. -/
theorem bracket {γ : Type} {opening : Opening} {kind : FrameKind} {deployment : Option Deployment}
    {steps : List WriteStep} {body : Opening → ReadProgram α} {finish : α → γ} {answer : α}
    (kindEq : opening.kind = kind) (plain : opening.readFrame = .plain kind)
    (inside : frames.length + 1 ≤ limits.maxDepth →
      ReadsAs limits (.plain kind :: frames) steps (body opening) answer (.plain kind :: frames)) :
    ReadsAs limits frames (Value.entering opening deployment :: steps ++ [Value.leaving kind])
      (enterFrame kind deployment >>= fun opening => body opening >>= fun answer =>
        leaveFrame kind >>= fun _ => pure (finish answer)) (finish answer) frames := by
  have stepsEq : Value.entering opening deployment :: steps ++ [Value.leaving kind] =
      [Value.entering opening deployment] ++ (steps ++ ([Value.leaving kind] ++ [])) := by simp
  rw [stepsEq]
  exact (enter_plain deployment kindEq plain).andThen fun within =>
    (inside (depth_of_entering within)).andThen fun _ =>
      (leave_plain kind).andThen fun _ => done _

/-- A frame that repeats: the number of its items, the items and its end. -/
theorem repeated {γ : Type} (kind : Repetition) {opening : Opening} {deployment : Option Deployment}
    {steps : List WriteStep} {item : α → ReadProgram α} {state final : α} {finish : α → γ}
    {value : γ} (kindEq : opening.kind = kind.frame)
    (counted : opening.readFrame = .counted kind opening.length) (finished : finish final = value)
    (inside : frames.length + 1 ≤ limits.maxDepth →
      ReadsAs limits (.counted kind opening.length :: frames) steps
        (repeatWhile kind item opening.length state) final (.counted kind 0 :: frames)) :
    ReadsAs limits frames (Value.entering opening deployment :: steps ++ [Value.leaving kind.frame])
      (enterFrame kind.frame deployment >>= fun opening =>
        repeatWhile kind item opening.length state >>= fun items =>
          ReadProgram.checkLatch >>= fun _ => leaveFrame kind.frame >>= fun _ =>
            pure (finish items)) value frames := by
  have stepsEq : Value.entering opening deployment :: steps ++ [Value.leaving kind.frame] =
      [Value.entering opening deployment] ++
        (steps ++ ([] ++ ([Value.leaving kind.frame] ++ []))) := by
    simp
  have left : ReadsAs limits (.counted kind 0 :: frames) [Value.leaving kind.frame]
      (leaveFrame kind.frame) () frames :=
    leave fun _ => MemoryReader.closeFrame_of_counted rfl
  have entered := @enter limits frames opening deployment
  rw [kindEq, counted] at entered
  rw [stepsEq]
  exact entered.andThen fun within => (inside (depth_of_entering within)).andThen fun _ =>
    checkLatch.andThen fun _ => left.andThen fun _ => finished ▸ done _

theorem repeatWhile_nil {kind : Repetition} {item : α → ReadProgram α} {state : α} :
    ReadsAs limits (.counted kind 0 :: frames) [] (repeatWhile kind item 0 state) state
      (.counted kind 0 :: frames) :=
  more_of_zero.andThen fun _ => done state

theorem repeatWhile_cons {kind : Repetition} {item : α → ReadProgram α} {count : Nat}
    {first later : List WriteStep} {state next final : α}
    (reads : ReadsAs limits (.counted kind count :: frames) first (item state) next
      (.counted kind count :: frames))
    (laterReads : ReadsAs limits (.counted kind count :: frames) later
      (repeatWhile kind item count next) final (.counted kind 0 :: frames)) :
    ReadsAs limits (.counted kind (count + 1) :: frames) (first ++ later)
      (repeatWhile kind item (count + 1) state) final (.counted kind 0 :: frames) :=
  more_of_succ.andThen fun _ => reads.andThen fun _ => laterReads

end ReadsAs

end ValueBus
