import ValueBus.Proofs.Dialogues

/-!
# Counted frames deliver what they announce

A sequence or a map that is read counts the items still to come, on the stack of open frames. The
question for another item looks at the innermost frame only, so while a frame stands further out its
count rests. When everything entered inside it is left again, the count is what it was, and the frame
grants as many items as its length field announced, in all. It can be left when it has granted them.
-/

namespace ValueBus

namespace MemoryReader

/-- The reader has entered a repeating frame, for which it has decoded a length, and stands right
inside it again after a dialogue. -/
structure Within (kind : Repetition) (length : Nat) (during : Dialogue) (reader : MemoryReader) :
    Prop where
  entered : ∃ before middle deployment opening opened,
    takeLength deployment before = .ok length middle ∧
      InputStream.enter kind.frame deployment before = .ok opening opened ∧
        Replays opened during reader
  nested : Nested during.brackets
  unlatched : reader.error = none

variable {reader after : MemoryReader} {kind : Repetition} {length : Nat} {during : Dialogue}

theorem counted_of_enter {deployment : Option Deployment} {opening : Opening}
    (decoded : ∃ middle, takeLength deployment reader = .ok length middle)
    (entered : enter kind.frame deployment reader = .ok opening after) :
    after.frames = .counted kind length :: reader.frames := by
  rcases decoded with ⟨middle, decoded⟩
  have repeated : ∃ found, enterRepeated kind deployment reader = .ok found after := by
    cases kind with
    | sequence =>
        rcases Action.map_eq_ok_iff.1 entered with ⟨found, repeated, _⟩
        exact ⟨found, repeated⟩
    | map =>
        rcases Action.map_eq_ok_iff.1 entered with ⟨found, repeated, _⟩
        exact ⟨found, repeated⟩
  rcases repeated with ⟨found, repeated⟩
  rw [enterRepeated_apply, Action.bind_of_ok decoded] at repeated
  rcases openCounted_eq_ok_iff.1 repeated with ⟨_, _, rfl⟩
  rcases takeLength_eq_ok_iff.1 decoded with ⟨_, _, _, _, rfl⟩
  rfl

/-- What is left of the count is what the frame has not granted. -/
theorem Within.framed (within : Within kind length during reader) :
    ∃ outer, reader.frames = .counted kind (length - (during.ownAnswers 0).length) :: outer ∧
      during.ownAnswers 0 = countdown length (during.ownAnswers 0).length := by
  rcases within.entered with
    ⟨before, middle, deployment, opening, opened, decoded, entered, replays⟩
  have asked : (Question.enter kind.frame deployment).ask before = .ok (.opening opening) opened :=
    Action.map_eq_ok_iff.2 ⟨opening, entered, rfl⟩
  have started := unlatched_of_ask asked (replays.unlatched within.unlatched)
  rw [show InputStream.enter kind.frame deployment before = enter kind.frame deployment before from
    checked_apply _ started] at entered
  have counted : opened.frames = [] ++ .counted kind length :: before.frames :=
    counted_of_enter ⟨middle, decoded⟩ entered
  rcases replays.delivers within.unlatched counted (within.nested.openAfter?_eq []) with
    ⟨entered, answers, framed, noneEntered, answersEq, answersCount⟩
  rw [List.map_eq_nil_iff.1 noneEntered] at framed
  cases answersEq
  exact ⟨before.frames, framed, answersCount⟩

/-- Another item follows until as many were granted as there are. -/
theorem Within.hasMore_eq (within : Within kind length during reader) :
    ∃ after, InputStream.hasMore kind reader =
        (decide ((during.ownAnswers 0).length < length), after) ∧ after.error = none := by
  rcases within.framed with ⟨outer, framed, _⟩
  by_cases more : (during.ownAnswers 0).length < length
  · have left : length - (during.ownAnswers 0).length =
        length - ((during.ownAnswers 0).length + 1) + 1 := by omega
    rw [left] at framed
    rw [decide_eq_true more]
    exact ⟨_, hasMore_of_counted_succ within.unlatched framed, within.unlatched⟩
  · rw [Nat.sub_eq_zero_of_le (Nat.le_of_not_lt more)] at framed
    rw [decide_eq_false more]
    exact ⟨reader, hasMore_of_counted_zero within.unlatched framed, within.unlatched⟩

theorem closeFrame_of_left {left : Nat} {outer : List ReadFrame} (unlatched : reader.error = none)
    (innermost : reader.frames = .counted kind left :: outer) (incomplete : left ≠ 0) :
    ∃ after, closeFrame kind.frame reader = .error (.unbalanced (.itemsLeft kind left)) after := by
  have raised : closeFrame kind.frame reader =
      (Latch.raise (.unbalanced (.itemsLeft kind left)) : Action MemoryReader Unit)
        { reader with frames := outer } := by
    simp [closeFrame_apply, innermost, checkClosed, incomplete]
  rw [raised]
  exact ⟨_, Action.raise_of_unlatched unlatched⟩

/-- The frame can be left if it has granted all its items. -/
theorem Within.leave_eq (within : Within kind length during reader)
    (granted : (during.ownAnswers 0).count true = length) :
    ∃ after, InputStream.leave kind.frame reader = .ok () after ∧ after.error = none := by
  rcases within.framed with ⟨outer, framed, answersEq⟩
  have counted := count_true_countdown length (during.ownAnswers 0).length
  rw [← answersEq, granted] at counted
  rw [Nat.sub_eq_zero_of_le (by omega)] at framed
  exact ⟨_, (checked_apply _ within.unlatched).trans (closeFrame_of_counted framed),
    within.unlatched⟩

/-- Otherwise the rest is reported. -/
theorem Within.leave_fails (within : Within kind length during reader)
    (ungranted : (during.ownAnswers 0).count true ≠ length) :
    ∃ fault after, InputStream.leave kind.frame reader = .error fault after ∧
      after.error = some fault ∧ fault =
        .unbalanced (.itemsLeft kind (length - (during.ownAnswers 0).count true)) := by
  rcases within.framed with ⟨outer, framed, answersEq⟩
  have counted := count_true_countdown length (during.ownAnswers 0).length
  rw [← answersEq] at counted
  have leftEq : length - (during.ownAnswers 0).length =
      length - (during.ownAnswers 0).count true := by omega
  rw [leftEq] at framed
  rcases closeFrame_of_left within.unlatched framed (by omega) with ⟨after, closed⟩
  have failed : InputStream.leave kind.frame reader = _ :=
    (checked_apply _ within.unlatched).trans closed
  have settles : (InputStream.leave kind.frame : Action MemoryReader Unit).Settles :=
    LawfulInputStream.leave_settles kind.frame
  have settled := settles within.unlatched
  rw [failed] at settled
  exact ⟨_, after, failed, settled, rfl⟩

end MemoryReader

/-- Over the whole time that a repeating frame is open it grants as many items as its length field
announced, whatever is entered and left inside it. -/
theorem counted_frames_deliver :
    (∀ (bytes : List UInt8) (limits : Limits) (operations : List ReadOperation)
        (reader : MemoryReader),
      ReadOperation.performAll operations (MemoryReader.ofBytes bytes limits) = reader →
      reader.error = none →
      ∃ log : Dialogue, log.map Prod.fst = operations.filterMap ReadOperation.question? ∧
        Replays (MemoryReader.ofBytes bytes limits) log reader) ∧
    (∀ (kind : Repetition) (length : Nat) (during : Dialogue) (reader : MemoryReader),
      reader.Within kind length during →
      ∃ answers, during.ownAnswers 0 = answers ∧ answers = countdown length answers.length ∧
        (∃ after, InputStream.hasMore kind reader = (decide (answers.length < length), after) ∧
          after.error = none) ∧
        (answers.count true = length →
          ∃ after, InputStream.leave kind.frame reader = .ok () after ∧ after.error = none) ∧
        (answers.count true ≠ length →
          ∃ fault after, InputStream.leave kind.frame reader = .error fault after ∧
            after.error = some fault ∧
            fault = .unbalanced (.itemsLeft kind (length - answers.count true)))) ∧
    ∀ (bytes : List UInt8) (limits : Limits) (log : Dialogue) (reader : MemoryReader),
      Replays (MemoryReader.ofBytes bytes limits) log reader → reader.error = none →
      LeavesOpen (reader.frames.map ReadFrame.kind) log.brackets ∧
      ∀ kind : Repetition, (reader.frames.map ReadFrame.kind).head? ≠ some kind.frame →
        ∃ after, InputStream.hasMore kind reader = (false, after) ∧
          after.error = some (.unbalanced (.itemRequested kind reader.frames.head?)) := by
  refine ⟨?_, ?_, ?_⟩
  · rintro bytes limits operations reader rfl unlatched
    exact MemoryReader.exists_replays unlatched
  · intro kind length during reader within
    rcases within.framed with ⟨_, _, answersEq⟩
    exact ⟨_, rfl, answersEq, within.hasMore_eq, within.leave_eq, within.leave_fails⟩
  · intro bytes limits log reader replays unlatched
    refine ⟨leavesOpen_iff.2 (replays.openAfter?_eq unlatched), ?_⟩
    intro kind differs
    apply MemoryReader.hasMore_of_other unlatched
    intro remaining outer framed
    rw [framed] at differs
    exact differs rfl

/-- The first item of a sequence is asked for and is a sequence itself, which is asked once too often
and left. -/
def Dialogue.inner : Dialogue :=
  [(.hasMore .sequence, .more true), (.enter .sequence none, .opening (.sequence 1)),
    (.hasMore .sequence, .more true), (.leaf .bool none, .leaf (.bool true)),
    (.hasMore .sequence, .more false), (.leave .sequence, .done)]

/-- The outer sequence has granted one of its two items and cannot be left. -/
theorem counted_frames_deliver_inner :
    ∃ reader : MemoryReader, reader.Within .sequence 2 Dialogue.inner ∧
      Dialogue.inner.ownAnswers 0 = [true] ∧
      ∃ fault after, InputStream.leave .sequence reader = .error fault after ∧
        after.error = some fault ∧ fault = .unbalanced (.itemsLeft .sequence 1) := by
  have replays : Replays
      { cursor := ⟨[2, 0, 0, 0, 1, 0, 0, 0, 1], 4⟩, frames := [.counted .sequence 2] }
      Dialogue.inner
      { cursor := ⟨[2, 0, 0, 0, 1, 0, 0, 0, 1], 9⟩, frames := [.counted .sequence 1] } :=
    .cons rfl (.cons rfl (.cons rfl (.cons rfl (.cons rfl (.cons rfl .nil)))))
  have within : MemoryReader.Within .sequence 2 Dialogue.inner
      { cursor := ⟨[2, 0, 0, 0, 1, 0, 0, 0, 1], 9⟩, frames := [.counted .sequence 1] } := by
    refine ⟨⟨.ofBytes [2, 0, 0, 0, 1, 0, 0, 0, 1] {}, _, none, .sequence 2, _, rfl, rfl, replays⟩,
      ?_, rfl⟩
    exact nested_iff.2 rfl
  rcases counted_frames_deliver.2.1 _ _ _ _ within with ⟨_, rfl, _, _, _, fails⟩
  exact ⟨_, within, rfl, fails (by decide)⟩

end ValueBus
