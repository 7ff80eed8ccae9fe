import Mathlib.Data.List.Forall2
import Mathlib.Logic.Relation
import ValueBus.Proofs.Careful
import ValueBus.Proofs.CheckedReading

/-!
# The moments of a reading

A reading goes on call by call. Between two calls it is known what is still to come, what the reader
looks like, and, for every frame that is open, how many items it announced and how often another
item was granted. One call leads from each moment to the next, and what holds of all moments is
proved by induction on the calls.

At no moment are more frames open than the limits allow, and no loop has run more often than was
announced or than the limits allow. The variants that enclose the next call are among the open
frames, which bounds how often one may be entered inside another.
-/

namespace ValueBus

open MemoryReader

/-- The items of an open frame: how many it announced and how many were granted. -/
structure Tally where
  announced : Nat
  granted : Nat
  deriving DecidableEq, Repr

namespace Tally

def grantOne (tally : Tally) : Tally :=
  { tally with granted := tally.granted + 1 }

/-- What an open frame counts agrees with its tally. -/
def Fits (limits : Limits) (tally : Tally) : ReadFrame → Prop
  | .plain _ => tally.granted = 0
  | .counted _ remaining =>
      tally.granted + remaining = tally.announced ∧ tally.announced ≤ limits.maxSequenceLength

theorem Fits.granted_le {limits : Limits} {tally : Tally} {frame : ReadFrame}
    (fits : tally.Fits limits frame) :
    tally.granted ≤ min tally.announced limits.maxSequenceLength := by
  cases frame with
  | plain kind =>
      have noneGranted : tally.granted = 0 := fits
      omega
  | counted kind remaining =>
      rcases fits with ⟨sumEq, short⟩
      omega

theorem fits_readFrame {limits : Limits} {opening : Opening}
    (short : opening.length ≤ limits.maxSequenceLength) :
    (Tally.mk opening.length 0).Fits limits opening.readFrame := by
  cases opening with
  | sequence length => exact ⟨Nat.zero_add length, short⟩
  | map length => exact ⟨Nat.zero_add length, short⟩
  | _ => rfl

variable {limits : Limits} {tallies : List Tally}

theorem granted_le_of_mem {frames : List ReadFrame}
    (tallied : List.Forall₂ (Fits limits) tallies frames) :
    ∀ tally ∈ tallies, tally.granted ≤ min tally.announced limits.maxSequenceLength := by
  induction tallied with
  | nil => exact List.forall_mem_nil _
  | cons fits _ ih => exact List.forall_mem_cons.2 ⟨fits.granted_le, ih⟩

/-- The frame that is left takes its tally with it. -/
theorem fits_tail {frames : List ReadFrame} (tallied : List.Forall₂ (Fits limits) tallies frames) :
    List.Forall₂ (Fits limits) tallies.tail frames.tail := by
  cases tallied with
  | nil => exact .nil
  | cons _ outer => exact outer

/-- An item that is granted is one less to come. -/
theorem fits_grantOne {kind : Repetition} {remaining : Nat} {outer : List ReadFrame}
    (tallied : List.Forall₂ (Fits limits) tallies (.counted kind (remaining + 1) :: outer)) :
    List.Forall₂ (Fits limits) (tallies.modifyHead grantOne)
      (.counted kind remaining :: outer) := by
  cases tallied with
  | @cons tally _ _ _ fits outerTallied =>
      rcases fits with ⟨sumEq, short⟩
      refine .cons ⟨?_, short⟩ outerTallied
      simp only [grantOne]
      omega

end Tally

theorem MemoryReader.check_bind {α : Type} {reader : MemoryReader} (unlatched : reader.error = none)
    (action : Action MemoryReader α) :
    (Latch.check >>= fun _ => action) reader = action reader :=
  Action.bind_of_ok (Action.check_of_unlatched unlatched)

/-- A moment of a reading: the calls that are still to come, the reader, and the tallies of its open
frames, the innermost first. -/
structure Moment (α : Type) where
  rest : ReadProgram α
  reader : MemoryReader
  tallies : List Tally := []

namespace Moment

variable {α : Type}

/-- One call that does not fail. -/
inductive Step : Moment α → Moment α → Prop where
  | leaf {kind : LeafKind} {deployment : Option Deployment} {next : Leaf → ReadProgram α}
      {reader after : MemoryReader} {tallies : List Tally} {value : Leaf} :
      InputStream.leaf kind deployment reader = .ok value after →
      Step ⟨.leaf kind deployment next, reader, tallies⟩ ⟨next value, after, tallies⟩
  | enter {kind : FrameKind} {deployment : Option Deployment} {next : Opening → ReadProgram α}
      {reader after : MemoryReader} {tallies : List Tally} {opening : Opening} :
      InputStream.enter kind deployment reader = .ok opening after →
      Step ⟨.enter kind deployment next, reader, tallies⟩
        ⟨next opening, after, ⟨opening.length, 0⟩ :: tallies⟩
  | leave {kind : FrameKind} {next : ReadProgram α} {reader after : MemoryReader}
      {tallies : List Tally} :
      InputStream.leave kind reader = .ok () after →
      Step ⟨.leave kind next, reader, tallies⟩ ⟨next, after, tallies.tail⟩
  | more {kind : Repetition} {next : Bool → ReadProgram α} {reader after : MemoryReader}
      {tallies : List Tally} :
      InputStream.hasMore kind reader = (true, after) →
      Step ⟨.hasMore kind next, reader, tallies⟩
        ⟨next true, after, tallies.modifyHead Tally.grantOne⟩
  | noMore {kind : Repetition} {next : Bool → ReadProgram α} {reader after : MemoryReader}
      {tallies : List Tally} :
      InputStream.hasMore kind reader = (false, after) →
      Step ⟨.hasMore kind next, reader, tallies⟩ ⟨next false, after, tallies⟩
  | check {next : ReadProgram α} {reader after : MemoryReader} {tallies : List Tally} :
      Latch.check reader = .ok () after →
      Step ⟨.check next, reader, tallies⟩ ⟨next, after, tallies⟩

/-- One moment is followed, sooner or later, by another. -/
def Reaches : Moment α → Moment α → Prop :=
  Relation.ReflTransGen Step

/-- What comes of the reading is the same from one call to the next. -/
theorem Step.run_eq {moment next : Moment α} (step : moment.Step next) :
    (moment.rest.run : Action MemoryReader α) moment.reader = next.rest.run next.reader := by
  cases step with
  | leaf answered => exact Action.bind_of_ok answered
  | enter entered => exact Action.bind_of_ok entered
  | leave left => exact Action.bind_of_ok left
  | more asked =>
      rw [ReadProgram.run_hasMore, asked]
  | noMore asked =>
      rw [ReadProgram.run_hasMore, asked]
  | check checked => exact Action.bind_of_ok checked

theorem Reaches.run_eq {start moment : Moment α} (reaches : start.Reaches moment) :
    (start.rest.run : Action MemoryReader α) start.reader = moment.rest.run moment.reader := by
  induction reaches with
  | refl => rfl
  | tail _ step ih => rw [ih, step.run_eq]

/-- Each moment is followed by another, unless the reading answers or fails there. -/
theorem exists_step (moment : Moment α) :
    (∃ next, moment.Step next) ∨ (∃ value, moment.rest = .done value) ∨
      ∃ fault after,
        (moment.rest.run : Action MemoryReader α) moment.reader = .error fault after := by
  rcases moment with ⟨rest, reader, tallies⟩
  cases rest with
  | done value => exact .inr (.inl ⟨value, rfl⟩)
  | raise fault => exact .inr (.inr (Action.raise_eq_error fault reader))
  | leaf kind deployment next =>
      cases result : InputStream.leaf kind deployment reader with
      | ok value after => exact .inl ⟨_, .leaf result⟩
      | error fault after => exact .inr (.inr ⟨fault, after, Action.bind_of_error result⟩)
  | enter kind deployment next =>
      cases result : InputStream.enter kind deployment reader with
      | ok opening after => exact .inl ⟨_, .enter result⟩
      | error fault after => exact .inr (.inr ⟨fault, after, Action.bind_of_error result⟩)
  | leave kind next =>
      cases result : (InputStream.leave kind : Action MemoryReader Unit) reader with
      | ok answer after => exact .inl ⟨_, .leave result⟩
      | error fault after => exact .inr (.inr ⟨fault, after, Action.bind_of_error result⟩)
  | hasMore kind next =>
      cases result : InputStream.hasMore kind reader with
      | mk answer after =>
          cases answer with
          | true => exact .inl ⟨_, .more result⟩
          | false => exact .inl ⟨_, .noMore result⟩
  | check next =>
      cases result : (Latch.check : Action MemoryReader Unit) reader with
      | ok answer after => exact .inl ⟨_, .check result⟩
      | error fault after => exact .inr (.inr ⟨fault, after, Action.bind_of_error result⟩)

/-- What every moment of a careful reading keeps. An error that was latched without a failure is
found by the next call. -/
structure Consistent (limits : Limits) (moment : Moment α) : Prop where
  sane : moment.reader.Sane limits
  tallied : List.Forall₂ (Tally.Fits limits) moment.tallies moment.reader.frames
  careful : moment.rest.Careful
  heeded : moment.reader.error = none ∨ moment.rest.Checks

namespace Consistent

variable {limits : Limits}

/-- A call other than a check is made with nothing latched. -/
theorem unlatched {moment : Moment α} (consistent : moment.Consistent limits)
    (calls : ¬ moment.rest.Checks) : moment.reader.error = none :=
  consistent.heeded.resolve_right calls

/-- One call keeps a moment consistent. -/
theorem step {moment next : Moment α} (consistent : moment.Consistent limits)
    (step : moment.Step next) : next.Consistent limits := by
  have sane := consistent.sane
  have tallied := consistent.tallied
  have careful := consistent.careful
  cases step with
  | @leaf kind deployment next reader after tallies value answered =>
      have unlatched := consistent.unlatched id
      have saneAfter := ((leaf_faithful kind deployment).answers sane answered).2.1
      have taken : takeLeaf kind deployment reader = .ok value after :=
        (check_bind unlatched _).symm.trans answered
      rcases takeLeaf_eq_ok_iff.1 taken with ⟨_, _, cursor, _, _, _, rfl⟩
      exact ⟨saneAfter, tallied, careful value, .inl unlatched⟩
  | @enter kind deployment next reader after tallies opening entered =>
      have unlatched := consistent.unlatched id
      rcases (entering_faithful kind deployment).answers sane entered with ⟨_, saneAfter, short⟩
      have taken : enter kind deployment reader = .ok opening after :=
        (check_bind unlatched _).symm.trans entered
      rcases enter_eq_ok_iff.1 taken with ⟨_, _, cursor, _, _, _, rfl⟩
      exact ⟨saneAfter, .cons (Tally.fits_readFrame short) tallied, careful opening,
        .inl unlatched⟩
  | @leave kind next reader after tallies left =>
      have unlatched := consistent.unlatched id
      have saneAfter := ((leave_faithful kind).answers sane left).2.1
      have closed : closeFrame kind reader = .ok () after :=
        (check_bind unlatched _).symm.trans left
      cases eq_of_closeFrame closed
      exact ⟨saneAfter, Tally.fits_tail tallied, careful, .inl unlatched⟩
  | @more kind next reader after tallies asked =>
      have unlatched := consistent.unlatched id
      have asked : hasMore kind reader = (true, after) := asked
      have saneAfter : (hasMore kind reader).2.Sane limits := sane.hasMore kind
      rw [asked] at saneAfter
      rcases hasMore_cases kind reader with
        ⟨remaining, outer, innermost, counted⟩ | same | ⟨_, same⟩
      · cases asked.symm.trans counted
        rw [innermost] at tallied
        exact ⟨saneAfter, Tally.fits_grantOne tallied, careful.1, .inl unlatched⟩
      · cases asked.symm.trans same
      · cases asked.symm.trans same
  | @noMore kind next reader after tallies asked =>
      have asked : hasMore kind reader = (false, after) := asked
      have saneAfter : (hasMore kind reader).2.Sane limits := sane.hasMore kind
      rw [asked] at saneAfter
      -- An error may be latched here without a failure, but what comes next checks for it.
      refine ⟨saneAfter, ?_, careful.2.1, .inr careful.2.2⟩
      rcases hasMore_cases kind reader with ⟨_, _, _, counted⟩ | same | ⟨_, same⟩
      · cases asked.symm.trans counted
      · cases asked.symm.trans same
        exact tallied
      · cases asked.symm.trans same
        exact tallied
  | @check next reader after tallies checked =>
      cases latched : reader.error with
      | some first =>
          simp only [Latch.check, Latch.error, latched] at checked
          cases checked
      | none =>
          cases (Action.check_of_unlatched latched).symm.trans checked
          exact ⟨sane, tallied, careful, .inl latched⟩

theorem reaches {start moment : Moment α} (consistent : start.Consistent limits)
    (reaches : start.Reaches moment) : moment.Consistent limits := by
  induction reaches with
  | refl => exact consistent
  | tail _ step ih => exact ih.step step

/-- A reading starts with nothing open. -/
theorem start {bytes : List UInt8} (addressable : bytes.length < Machine.memorySize)
    {program : ReadProgram α} (careful : program.Careful) :
    (Moment.mk program (.ofBytes bytes limits) []).Consistent limits where
  sane := Sane.ofBytes addressable limits
  tallied := .nil
  careful := careful
  heeded := .inl rfl

end Consistent

/-- How often a variant is entered along the calls that lead to a moment, if one is entered there:
once for every variant that is open, of whatever set, and once more. -/
def entries (moment : Moment α) : Nat :=
  moment.reader.frames.count (.plain .variant) + 1

end Moment

/-- The error of entering a frame of one byte beyond the depth limit. The byte is read before the
frame is opened, so the end of the bytes is found first. -/
def MemoryReader.tooDeep (limits : Limits) (reader : MemoryReader) : StreamError :=
  if reader.cursor.atEnd then .readFailed reader.cursor.offset .endOfBuffer
  else .limitExceeded .depth limits.maxDepth (limits.maxDepth + 1)

/-- A variant is not entered when as many frames are open as the limits allow. -/
theorem MemoryReader.enter_variant_of_full {limits : Limits} {reader : MemoryReader}
    (sane : reader.Sane limits) (unlatched : reader.error = none)
    (full : reader.frames.length = limits.maxDepth) (deployment : Option Deployment) :
    ∃ after, InputStream.enter .variant deployment reader =
      .error (reader.tooDeep limits) after := by
  have entered : InputStream.enter .variant deployment reader =
      enter .variant deployment reader := check_bind unlatched _
  rw [entered, enter_variant_apply]
  unfold tooDeep ReadCursor.atEnd
  by_cases ended : reader.cursor.bytes.length ≤ reader.cursor.offset
  · have failed : ReadCursor.take 1 reader.cursor =
        .error (.readFailed reader.cursor.offset .endOfBuffer) reader.cursor :=
      if_neg (by omega)
    have raised : onCursor (ReadCursor.take 1) reader =
        (Latch.raise (.readFailed reader.cursor.offset .endOfBuffer) :
          Action MemoryReader (List UInt8)) reader := by
      simp only [onCursor, failed]
    rw [Action.raise_of_unlatched unlatched] at raised
    rw [Action.bind_of_error raised, if_pos (decide_eq_true ended)]
    exact ⟨_, rfl⟩
  · have stepped : ∃ run cursor, ReadCursor.take 1 reader.cursor = .ok run cursor :=
      ⟨_, _, if_pos (by omega)⟩
    rcases stepped with ⟨run, cursor, stepped⟩
    have taken := onCursor_eq_ok_iff.2 ⟨cursor, stepped, rfl⟩
    have exceeds : StreamError.overLimit? .depth reader.limits.maxDepth (reader.frames.length + 1) =
        some (.limitExceeded .depth limits.maxDepth (limits.maxDepth + 1)) := by
      rw [sane.limits_eq, full]
      exact if_pos (Nat.lt_succ_self _)
    have refused := @openFrame_of_some { reader with cursor } (.plain .variant) _ unlatched exceeds
    rcases refused with ⟨after, refused⟩
    rw [Action.bind_of_ok taken, Action.bind_of_error refused, decide_eq_false ended]
    exact ⟨after, rfl⟩

namespace Moment

variable {α : Type}

/-- The bounds that hold at every moment. -/
structure Within (limits : Limits) (moment : Moment α) : Prop where
  frames_le : moment.reader.frames.length ≤ limits.maxDepth
  /-- Every open frame has its tally, and no loop runs more often than announced or allowed. -/
  tallies_length : moment.tallies.length = moment.reader.frames.length
  granted_le : ∀ tally ∈ moment.tallies,
    tally.granted ≤ min tally.announced limits.maxSequenceLength
  entries_le : ∀ {deployment next}, moment.rest = .enter .variant deployment next →
    moment.entries ≤ limits.maxDepth + 1
  last_entry_fails : ∀ {deployment next}, moment.rest = .enter .variant deployment next →
    moment.entries = limits.maxDepth + 1 →
      ∃ after, InputStream.enter .variant deployment moment.reader =
        .error (moment.reader.tooDeep limits) after

theorem Consistent.within {limits : Limits} {moment : Moment α}
    (consistent : moment.Consistent limits) : moment.Within limits := by
  have shallow := consistent.sane.shallow
  have variantsLe : moment.reader.frames.count (.plain .variant) ≤ moment.reader.frames.length :=
    List.count_le_length
  refine ⟨shallow, consistent.tallied.length_eq, ?_, ?_, ?_⟩
  · exact Tally.granted_le_of_mem consistent.tallied
  · intro deployment next _
    exact Nat.succ_le_succ (Nat.le_trans variantsLe shallow)
  · intro deployment next entering last
    have full : moment.reader.frames.length = limits.maxDepth := by
      unfold entries at last
      omega
    have unlatched : moment.reader.error = none := consistent.unlatched (by rw [entering]; exact id)
    exact enter_variant_of_full consistent.sane unlatched full deployment

end Moment

end ValueBus
