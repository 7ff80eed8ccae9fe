import ValueBus.Proofs.Brackets
import ValueBus.Proofs.Freezing

/-!
# Dialogues with the memory reader

What is asked of a reader and what it answers makes up a dialogue. `Turn` says what one exchange
does to the open frames as long as nothing is latched: a leaf leaves them alone, a bracket opens or
closes one, and the question for another item takes one item off the count of the innermost. What a
dialogue does to them follows by induction. In particular a counted frame that no bracket leaves
stays where it is while others are entered and left inside it, and its count goes down by the items
that it grants.
-/

namespace ValueBus

/-- The question that an operation asks, if it does not merely look at the latch or set it. -/
def ReadOperation.question? : ReadOperation → Option Question
  | .ask question => some question
  | _ => none

def Question.bracket? : Question → Option Bracket
  | .enter kind _ => some (.entered kind)
  | .leave kind => some (.left kind)
  | _ => none

/-- Questions to a stream, each with its answer. -/
abbrev Dialogue :=
  List (Question × Answer)

namespace Dialogue

def brackets (dialogue : Dialogue) : List Bracket :=
  dialogue.filterMap fun exchange => exchange.1.bracket?

/-- What was answered to the question for another item while a frame was innermost, inside which
`depth` frames are open at first. -/
def ownAnswers : Nat → Dialogue → List Bool
  | _, [] => []
  | depth, (.leaf _ _, _) :: rest => ownAnswers depth rest
  | depth, (.enter _ _, _) :: rest => ownAnswers (depth + 1) rest
  | depth, (.leave _, _) :: rest => ownAnswers (depth - 1) rest
  | depth, (.hasMore _, answer) :: rest =>
      if depth = 0 then decide (answer = .more true) :: ownAnswers 0 rest else ownAnswers depth rest

end Dialogue

/-- Yes for the first items, as many as there are, and no for the others. -/
def countdown (items count : Nat) : List Bool :=
  (List.range count).map fun asked => decide (asked < items)

theorem countdown_add (items first second : Nat) :
    countdown items (first + second) =
      countdown items first ++ countdown (items - first) second := by
  have shifted (asked : Nat) : decide (first + asked < items) = decide (asked < items - first) :=
    decide_eq_decide.2 (by omega)
  simp [countdown, List.range_add, Function.comp_def, shifted]

theorem count_true_countdown (items count : Nat) :
    (countdown items count).count true = min count items := by
  induction count with
  | zero => simp [countdown]
  | succ count ih =>
      have last : (countdown (items - count) 1).count true = min 1 (items - count) := by
        cases items - count with
        | zero => rfl
        | succ more => rw [Nat.min_eq_left (Nat.le_add_left 1 more)]; rfl
      rw [countdown_add, List.count_append, ih, last]
      omega

/-- What an exchange does to the open frames, if it latches no error. -/
inductive Turn : Question × Answer → List ReadFrame → List ReadFrame → Prop where
  | leaf {kind : LeafKind} {deployment : Option Deployment} {answer : Answer}
      {frames : List ReadFrame} : Turn (.leaf kind deployment, answer) frames frames
  | entered {kind : FrameKind} {deployment : Option Deployment} {opening : Opening}
      {frames : List ReadFrame} : opening.kind = kind →
      Turn (.enter kind deployment, .opening opening) frames (opening.readFrame :: frames)
  | left {kind : FrameKind} {answer : Answer} {frame : ReadFrame} {outer : List ReadFrame} :
      frame.kind = kind → frame.left = 0 → Turn (.leave kind, answer) (frame :: outer) outer
  | granted {kind : Repetition} {remaining : Nat} {outer : List ReadFrame} :
      Turn (.hasMore kind, .more true) (.counted kind (remaining + 1) :: outer)
        (.counted kind remaining :: outer)
  | exhausted {kind : Repetition} {outer : List ReadFrame} :
      Turn (.hasMore kind, .more false) (.counted kind 0 :: outer) (.counted kind 0 :: outer)

namespace Turn

variable {exchange : Question × Answer} {before after : List ReadFrame}

/-- The kinds of the open frames follow the brackets. -/
theorem openAfter?_cons (turn : Turn exchange before after) (rest : Dialogue) :
    openAfter? (Dialogue.brackets (exchange :: rest)) (before.map ReadFrame.kind) =
      openAfter? rest.brackets (after.map ReadFrame.kind) := by
  cases turn with
  | leaf => rfl
  | entered kindEq =>
      rw [List.map_cons, Opening.kind_readFrame, kindEq]
      rfl
  | left kindEq _ =>
      subst kindEq
      exact if_pos rfl
  | granted => rfl
  | exhausted => rfl

/-- While no bracket leaves it, a counted frame stays where it is, and its count goes down by the
items that it grants. -/
theorem delivers (turn : Turn exchange before after) {inner outer : List ReadFrame}
    {kind : Repetition} {remaining : Nat} {kinds : List FrameKind} {rest : Dialogue}
    (framed : before = inner ++ .counted kind remaining :: outer)
    (stays : openAfter? (Dialogue.brackets (exchange :: rest)) (inner.map ReadFrame.kind) =
      some kinds) :
    ∃ entered answers, after = entered ++ .counted kind (remaining - answers.length) :: outer ∧
      openAfter? rest.brackets (entered.map ReadFrame.kind) = some kinds ∧
      Dialogue.ownAnswers inner.length (exchange :: rest) =
        answers ++ rest.ownAnswers entered.length ∧
      answers = countdown remaining answers.length := by
  cases turn with
  | leaf => exact ⟨inner, [], framed, stays, rfl, rfl⟩
  | @entered _ _ opening _ kindEq =>
      refine ⟨opening.readFrame :: inner, [], ?_, ?_, rfl, rfl⟩
      · rw [framed]
        rfl
      · rw [List.map_cons, Opening.kind_readFrame, kindEq]
        exact stays
  | left kindEq _ =>
      cases inner with
      | nil => cases stays
      | cons frame inner =>
          cases framed
          subst kindEq
          refine ⟨inner, [], rfl, ?_, rfl, rfl⟩
          rwa [List.map_cons, Dialogue.brackets, List.filterMap_cons, Question.bracket?, openAfter?,
            List.head?_cons, if_pos rfl] at stays
  | granted =>
      cases inner with
      | nil =>
          cases framed
          exact ⟨[], [true], rfl, stays, rfl, rfl⟩
      | cons frame inner =>
          cases framed
          exact ⟨.counted _ _ :: inner, [], rfl, stays, rfl, rfl⟩
  | exhausted =>
      cases inner with
      | nil =>
          cases framed
          exact ⟨[], [false], rfl, stays, rfl, rfl⟩
      | cons frame inner =>
          cases framed
          exact ⟨.counted _ 0 :: inner, [], rfl, stays, rfl, rfl⟩

end Turn

namespace MemoryReader

variable {reader after : MemoryReader}

/-- Calls check the latch first. -/
theorem checked_apply {α : Type} (action : Action MemoryReader α)
    (unlatched : reader.error = none) :
    (Latch.check >>= fun _ => action) reader = action reader :=
  Action.bind_of_ok (Action.check_of_unlatched unlatched)

theorem unlatched_of_perform {operation : ReadOperation}
    (unlatched : (operation.perform.after reader).error = none) : reader.error = none := by
  cases latched : reader.error with
  | none => rfl
  | some first =>
      rw [after_of_latched operation latched, latched] at unlatched
      cases unlatched

theorem unlatched_of_ask {question : Question} {answer : Answer}
    (asked : question.ask reader = .ok answer after) (unlatched : after.error = none) :
    reader.error = none := by
  apply @unlatched_of_perform reader (.ask question)
  have performed : (ReadOperation.ask question).perform reader = .ok answer after := asked
  rwa [Action.after_of_ok performed]

theorem setError_ne_none (newError : StreamError) (reader : MemoryReader) :
    (Latch.setError newError reader).error ≠ none := by
  have latched : Latch.error (Latch.setError newError reader) = reader.error.or (some newError) :=
    LawfulLatch.error_setError newError reader
  intro unlatched
  rw [show Latch.error (Latch.setError newError reader) = none from unlatched] at latched
  exact absurd (Option.or_eq_none_iff.1 latched.symm).2 (Option.some_ne_none newError)

/-- The question for another item latches an error unless a frame of its kind is innermost. -/
theorem hasMore_of_other {kind : Repetition} (unlatched : reader.error = none)
    (other : ∀ remaining outer, reader.frames ≠ .counted kind remaining :: outer) :
    ∃ after, hasMore kind reader = (false, after) ∧
      after.error = some (.unbalanced (.itemRequested kind reader.frames.head?)) := by
  refine ⟨Latch.setError (.unbalanced (.itemRequested kind reader.frames.head?)) reader, ?_, ?_⟩
  · unfold hasMore
    cases framed : reader.frames with
    | nil => simp only [unlatched]
    | cons frame outer =>
        cases frame with
        | plain found => simp only [unlatched]
        | counted found remaining =>
            have differs : found ≠ kind := by
              rintro rfl
              exact other remaining outer framed
            simp only [unlatched, if_neg differs, List.head?_cons]
  · calc Latch.error (Latch.setError _ reader) = reader.error.or (some _) :=
          LawfulLatch.error_setError _ reader
      _ = some _ := by rw [unlatched, Option.none_or]

theorem turn_of_hasMore {kind : Repetition} (unlatched : reader.error = none)
    (kept : (hasMore kind reader).2.error = none) :
    Turn (.hasMore kind, .more (hasMore kind reader).1) reader.frames
      (hasMore kind reader).2.frames := by
  by_cases counted : ∃ remaining outer, reader.frames = .counted kind remaining :: outer
  · rcases counted with ⟨remaining, outer, framed⟩
    cases remaining with
    | zero =>
        rw [hasMore_of_counted_zero unlatched framed, framed]
        exact .exhausted
    | succ remaining =>
        rw [hasMore_of_counted_succ unlatched framed, framed]
        exact .granted
  · rcases hasMore_of_other unlatched fun remaining outer framed =>
      counted ⟨remaining, outer, framed⟩ with ⟨after, asked, latched⟩
    rw [asked, latched] at kept
    cases kept

/-- An exchange that leaves no error latched takes its turn. -/
theorem turn_of_ask {question : Question} {answer : Answer}
    (asked : question.ask reader = .ok answer after) (unlatched : after.error = none) :
    Turn (question, answer) reader.frames after.frames := by
  have started := unlatched_of_ask asked unlatched
  cases question with
  | leaf kind deployment =>
      rcases Action.map_eq_ok_iff.1 asked with ⟨value, taken, rfl⟩
      rw [show InputStream.leaf kind deployment reader = takeLeaf kind deployment reader from
        checked_apply _ started] at taken
      rcases takeLeaf_eq_ok_iff.1 taken with ⟨_, _, _, _, _, _, rfl⟩
      exact .leaf
  | enter kind deployment =>
      rcases Action.map_eq_ok_iff.1 asked with ⟨opening, entered, rfl⟩
      rw [show InputStream.enter kind deployment reader = enter kind deployment reader from
        checked_apply _ started] at entered
      rcases enter_eq_ok_iff.1 entered with ⟨kindEq, _, _, _, _, _, rfl⟩
      exact .entered kindEq
  | leave kind =>
      rcases Action.map_eq_ok_iff.1 asked with ⟨_, closed, rfl⟩
      rw [show InputStream.leave kind reader = closeFrame kind reader from
        checked_apply _ started] at closed
      rcases exists_of_closeFrame closed with ⟨frame, outer, framed, kindEq, noneLeft, rfl⟩
      rw [framed]
      exact .left kindEq noneLeft
  | hasMore kind =>
      rw [Replays.ask_more] at asked
      cases asked
      exact turn_of_hasMore started unlatched

end MemoryReader

namespace Replays

variable {start final : MemoryReader} {log : Dialogue}

theorem unlatched (replays : Replays start log final) (kept : final.error = none) :
    start.error = none := by
  induction replays with
  | nil => exact kept
  | cons asked _ ih => exact MemoryReader.unlatched_of_ask asked (ih kept)

theorem openAfter?_eq (replays : Replays start log final) (kept : final.error = none) :
    openAfter? log.brackets (start.frames.map ReadFrame.kind) =
      some (final.frames.map ReadFrame.kind) := by
  induction replays with
  | nil => rfl
  | cons asked rest ih =>
      have turn := MemoryReader.turn_of_ask asked (rest.unlatched kept)
      rw [turn.openAfter?_cons, ih kept]

/-- A dialogue that does not leave a counted frame takes the items that it grants off its count. -/
theorem delivers (replays : Replays start log final) (kept : final.error = none)
    {inner outer : List ReadFrame} {kind : Repetition} {remaining : Nat} {kinds : List FrameKind}
    (framed : start.frames = inner ++ .counted kind remaining :: outer)
    (stays : openAfter? log.brackets (inner.map ReadFrame.kind) = some kinds) :
    ∃ entered answers,
      final.frames = entered ++ .counted kind (remaining - answers.length) :: outer ∧
      entered.map ReadFrame.kind = kinds ∧ log.ownAnswers inner.length = answers ∧
      answers = countdown remaining answers.length := by
  induction replays generalizing inner remaining with
  | nil =>
      cases stays
      exact ⟨inner, [], framed, rfl, rfl, rfl⟩
  | cons asked rest ih =>
      have turn := MemoryReader.turn_of_ask asked (rest.unlatched kept)
      rcases turn.delivers framed stays with
        ⟨entered, answers, middleFramed, restStays, answersEq, answersCount⟩
      rcases ih kept middleFramed restStays with
        ⟨last, later, finalFramed, kindsEq, laterEq, laterCount⟩
      refine ⟨last, answers ++ later, ?_, kindsEq, ?_, ?_⟩
      · rw [finalFramed, List.length_append, Nat.sub_sub]
      · rw [answersEq, laterEq]
      · rw [List.length_append, countdown_add, ← answersCount, ← laterCount]

end Replays

namespace MemoryReader

/-- An operation that leaves no error latched asks a question that is answered, or does nothing. -/
theorem perform_of_unlatched {reader : MemoryReader} {operation : ReadOperation}
    (unlatched : (operation.perform.after reader).error = none) :
    (∃ question answer, operation = .ask question ∧
      question.ask reader = .ok answer (operation.perform.after reader)) ∨
    operation.question? = none ∧ operation.perform.after reader = reader := by
  have started := unlatched_of_perform unlatched
  cases operation with
  | ask question =>
      left
      cases asked : question.ask reader with
      | ok answer after =>
          have performed : (ReadOperation.ask question).perform reader = .ok answer after := asked
          rw [Action.after_of_ok performed]
          exact ⟨question, answer, rfl, asked⟩
      | error fault after =>
          have performed : (ReadOperation.ask question).perform reader = .error fault after := asked
          cases fallible : (ReadOperation.ask question).isFallible with
          | true =>
              have settles : ((ReadOperation.ask question).perform :
                Action MemoryReader Answer).Settles := ReadOperation.settles fallible
              have settled := settles started
              rw [performed] at settled
              rw [Action.after_of_error performed] at unlatched
              exact absurd (settled.symm.trans unlatched) (by simp)
          | false =>
              cases question with
              | hasMore kind => cases asked
              | leaf kind deployment => cases fallible
              | enter kind deployment => cases fallible
              | leave kind => cases fallible
  | check =>
      right
      have checked : ReadOperation.check.perform reader = .ok .done reader :=
        Action.map_eq_ok_iff.2 ⟨(), Action.check_of_unlatched started, rfl⟩
      exact ⟨rfl, Action.after_of_ok checked⟩
  | raise newError =>
      have raised : (ReadOperation.raise newError).perform reader =
        .error newError (Latch.setError newError reader) := Action.raise_of_unlatched started
      rw [Action.after_of_error raised] at unlatched
      exact absurd unlatched (setError_ne_none newError reader)
  | setError newError => exact absurd unlatched (setError_ne_none newError reader)

/-- Operations that leave no error latched amount to a dialogue. -/
theorem exists_replays {operations : List ReadOperation} {reader : MemoryReader}
    (unlatched : (ReadOperation.performAll operations reader).error = none) :
    ∃ log : Dialogue, log.map Prod.fst = operations.filterMap ReadOperation.question? ∧
      Replays reader log (ReadOperation.performAll operations reader) := by
  induction operations generalizing reader with
  | nil => exact ⟨[], rfl, .nil⟩
  | cons operation rest ih =>
      have continued : ReadOperation.performAll (operation :: rest) reader =
        ReadOperation.performAll rest (operation.perform.after reader) := rfl
      rw [continued] at unlatched ⊢
      rcases ih unlatched with ⟨log, questionsEq, replays⟩
      rcases perform_of_unlatched (replays.unlatched unlatched) with
        ⟨question, answer, rfl, asked⟩ | ⟨idle, kept⟩
      · exact ⟨(question, answer) :: log, congrArg (question :: ·) questionsEq,
          .cons asked replays⟩
      · rw [List.filterMap_cons, idle]
        refine ⟨log, questionsEq, ?_⟩
        rw [kept] at replays ⊢
        exact replays

end MemoryReader

end ValueBus
