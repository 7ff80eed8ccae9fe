import ValueBus.Proofs.Parts
import ValueBus.Proofs.Ranges
import ValueBus.Schema.Read

/-!
# The memory reader in machine arithmetic

The calls of the memory reader with all their computations as those of a machine, and the running of
a program by them. From a sane reader, one that has its cursor inside the bytes and its frames
within their limit, every call answers what the reader answers and leaves a sane reader behind. So a
program runs in machine arithmetic as it runs.
-/

namespace ValueBus

theorem LengthWidth.genuine_of_ofDeployment {deployment : Option Deployment} {fault : DataFault}
    (refused : LengthWidth.ofDeployment deployment = .error fault) :
    ¬ (StreamError.invalidData fault).Exhausted := by
  unfold LengthWidth.ofDeployment at refused
  cases hinted : deployment.bind (·.integerHint? Deployment.lengthWidthHint) with
  | none => simp only [hinted, reduceCtorEq] at refused
  | some width =>
      simp only [hinted] at refused
      split_ifs at refused
      cases refused
      exact id

namespace MemoryReader

/-- A reader whose cursor is in range, that has no more frames open than the limits allow, and that
has latched nothing about an allowance. -/
structure Sane (limits : Limits) (reader : MemoryReader) : Prop where
  inRange : reader.cursor.InRange
  limits_eq : reader.limits = limits
  shallow : reader.frames.length ≤ limits.maxDepth
  genuine : ∀ first, reader.error = some first → ¬ first.Exhausted

variable {limits : Limits} {α : Type}

theorem Sane.ofBytes {bytes : List UInt8} (addressable : bytes.length < Machine.memorySize)
    (limits : Limits) : Sane limits (.ofBytes bytes limits) where
  inRange := ⟨Nat.zero_le _, addressable⟩
  limits_eq := rfl
  shallow := Nat.zero_le _
  genuine := by
    intro first latched
    cases latched

theorem Sane.withCursor {reader : MemoryReader} (sane : Sane limits reader) {cursor : ReadCursor}
    (inRange : cursor.InRange) : Sane limits { reader with cursor } :=
  ⟨inRange, sane.limits_eq, sane.shallow, sane.genuine⟩

theorem Sane.withFrames {reader : MemoryReader} (sane : Sane limits reader)
    {frames : List ReadFrame} (shallow : frames.length ≤ limits.maxDepth) :
    Sane limits { reader with frames } :=
  ⟨sane.inRange, sane.limits_eq, shallow, sane.genuine⟩

theorem Sane.setError {reader : MemoryReader} (sane : Sane limits reader) {fault : StreamError}
    (genuine : ¬ fault.Exhausted) : Sane limits (Latch.setError fault reader) := by
  refine ⟨sane.inRange, sane.limits_eq, sane.shallow, ?_⟩
  intro first latched
  cases error : reader.error with
  | none =>
      simp only [Latch.setError, error] at latched
      cases latched
      exact genuine
  | some earlier =>
      simp only [Latch.setError, error] at latched
      cases latched
      exact sane.genuine _ error

/-- Raising an error latches it, or reports the one that was latched. -/
theorem Sane.raise {reader after : MemoryReader} (sane : Sane limits reader)
    {newError fault : StreamError} (genuine : ¬ newError.Exhausted)
    (failed : (Latch.raise newError : Action MemoryReader α) reader = .error fault after) :
    Sane limits after ∧ ¬ fault.Exhausted := by
  cases latched : reader.error with
  | none =>
      rw [Action.raise_of_unlatched latched] at failed
      cases failed
      exact ⟨sane.setError genuine, genuine⟩
  | some first =>
      have reported : (Latch.raise newError : Action MemoryReader α) reader =
          .error first reader := by
        unfold Latch.raise
        simp only [Latch.error, latched]
      rw [reported] at failed
      cases failed
      exact ⟨sane, sane.genuine _ latched⟩

/-- What is raised does not depend on what was asked for. -/
theorem raise_eq {β : Type} {reader after : MemoryReader} {newError fault : StreamError}
    (failed : (Latch.raise newError : Action MemoryReader α) reader = .error fault after) :
    (Latch.raise newError : Action MemoryReader β) reader = .error fault after := by
  unfold Latch.raise at failed ⊢
  cases latched : Latch.error reader with
  | none =>
      simp only [latched] at failed ⊢
      cases failed
      rfl
  | some first =>
      simp only [latched] at failed ⊢
      cases failed
      rfl

theorem raise_faithful {fault : StreamError} (genuine : ¬ fault.Exhausted) (post : α → Prop) :
    Faithful (Sane limits) (OptionT.lift (Latch.raise fault)) (Latch.raise fault) post :=
  .of_lift (fun _ answered => absurd answered Action.raise_ne_ok)
    fun sane failed => sane.raise genuine failed

/-- A step of the cursor in machine arithmetic. -/
def onCursorChecked (step : Checked ReadCursor α) : Checked MemoryReader α :=
  OptionT.mk (onCursor step.run)

theorem onCursor_faithful {checked : Checked ReadCursor α} {step : Action ReadCursor α}
    {post : α → Prop} (faithful : Faithful ReadCursor.InRange checked step post) :
    Faithful (Sane limits) (onCursorChecked checked) (onCursor step) post where
  answers := by
    intro before answer after sane answered
    rcases onCursor_eq_ok_iff.1 answered with ⟨cursor, stepped, rfl⟩
    rcases faithful.answers sane.inRange stepped with ⟨runs, inRange, holds⟩
    exact ⟨onCursor_eq_ok_iff.2 ⟨cursor, runs, rfl⟩, sane.withCursor inRange, holds⟩
  fails := by
    intro before fault after sane failed
    cases result : step before.cursor with
    | ok answer cursor =>
        simp only [onCursor, result] at failed
        cases failed
    | error found cursor =>
        rcases faithful.fails sane.inRange result with ⟨runs, inRange, genuine⟩
        have failing : onCursor step before =
            (Latch.raise found : Action MemoryReader α) { before with cursor } := by
          simp only [onCursor, result]
        have checkedFailing : (onCursorChecked checked).run before =
            (Latch.raise found : Action MemoryReader (Option α)) { before with cursor } := by
          have steps : (onCursorChecked checked).run before = onCursor checked.run before := rfl
          simp only [steps, onCursor, runs]
        rw [failing] at failed
        rw [checkedFailing]
        exact ⟨raise_eq failed, (sane.withCursor inRange).raise genuine failed⟩

/-- A length is not checked against an allowance. -/
theorem checkLength_faithful {what : LimitKind} (genuine : what ≠ .nesting) (limit actual : Nat) :
    Faithful (Sane limits) (OptionT.lift (checkLength what limit actual))
      (checkLength what limit actual) fun _ => actual ≤ limit := by
  have exceeded : ¬ (StreamError.limitExceeded what limit actual).Exhausted := by
    intro exhausted
    cases what with
    | nesting => exact genuine rfl
    | _ => exact exhausted
  unfold checkLength
  split_ifs with exceeds
  · exact raise_faithful exceeded _
  · refine .of_lift ?_ ?_
    · intro before answer after sane answered
      cases answered
      exact ⟨sane, Nat.le_of_not_lt exceeds⟩
    · intro before fault after sane failed
      cases failed

theorem openFrame_faithful (frame : ReadFrame) :
    Faithful (Sane limits) (OptionT.lift (openFrame frame)) (openFrame frame) fun _ => True := by
  refine .of_lift ?_ ?_
  · intro before answer after sane opened
    rcases openFrame_eq_ok_iff.1 opened with ⟨within, rfl⟩
    rw [sane.limits_eq] at within
    refine ⟨sane.withFrames ?_, trivial⟩
    simp only [StreamError.overLimit?] at within
    simpa using within
  · intro before fault after sane failed
    rw [openFrame_apply] at failed
    cases checked : checkLength .depth before.limits.maxDepth (before.frames.length + 1) before with
    | ok answer middle =>
        rw [Action.bind_of_ok checked] at failed
        cases failed
    | error found middle =>
        rw [Action.bind_of_error checked] at failed
        cases failed
        exact ((checkLength_faithful (by decide) _ _).fails sane checked).2

theorem Sane.withoutFrame {reader : MemoryReader} (sane : Sane limits reader) :
    Sane limits { reader with frames := reader.frames.tail } := by
  apply sane.withFrames
  rw [List.length_tail]
  exact Nat.le_trans (Nat.sub_le _ _) sane.shallow

theorem checkClosed_faithful (kind : FrameKind) (found : Option ReadFrame) :
    Faithful (Sane limits) (OptionT.lift (checkClosed kind found)) (checkClosed kind found)
      fun _ => True := by
  have accepted : Faithful (Sane limits) (OptionT.lift (pure ())) (pure ()) fun _ => True :=
    Faithful.pure trivial
  unfold checkClosed
  split
  · split_ifs
    · exact accepted
    · exact raise_faithful id _
  · split_ifs
    · exact accepted
    · exact raise_faithful id _
    · exact raise_faithful id _
  · exact raise_faithful id _

theorem closeFrame_faithful (kind : FrameKind) :
    Faithful (Sane limits) (OptionT.lift (closeFrame kind)) (closeFrame kind) fun _ => True := by
  have faithful (before : MemoryReader) :
      Faithful (Sane limits) _ _ _ := checkClosed_faithful kind before.frames.head?
  refine .of_lift ?_ ?_
  · intro before answer after sane closed
    exact ((faithful before).answers sane.withoutFrame closed).2
  · intro before fault after sane failed
    exact ((faithful before).fails sane.withoutFrame failed).2

theorem check_faithful :
    Faithful (Sane limits) (OptionT.lift Latch.check) Latch.check fun _ => True := by
  refine .of_lift ?_ ?_
  · intro before answer after sane checked
    cases latched : before.error with
    | none =>
        rw [Action.check_of_unlatched latched] at checked
        cases checked
        exact ⟨sane, trivial⟩
    | some first =>
        simp only [Latch.check, Latch.error, latched] at checked
        cases checked
  · intro before fault after sane failed
    cases latched : before.error with
    | none =>
        rw [Action.check_of_unlatched latched] at failed
        cases failed
    | some first =>
        simp only [Latch.check, Latch.error, latched] at failed
        cases failed
        exact ⟨sane, sane.genuine _ latched⟩

def takeNumberChecked (kind : NumberKind) : Checked MemoryReader Number :=
  onCursorChecked do
    ReadCursor.alignChecked kind.size
    return kind.ofBytes (← ReadCursor.takeArrayChecked kind.size)

def takeLengthChecked (deployment : Option Deployment) : Checked MemoryReader Nat :=
  match LengthWidth.ofDeployment deployment with
  | .error fault => OptionT.lift (Latch.raise (.invalidData fault))
  | .ok width =>
      onCursorChecked do
        ReadCursor.alignChecked width.size
        return LittleEndian.value (← ReadCursor.takeArrayChecked width.size)

def takeTextChecked (deployment : Option Deployment) : Checked MemoryReader String := do
  let limits := (← get).limits
  let length ← takeLengthChecked deployment
  if length = 0 then
    OptionT.lift (Latch.raise (.invalidData .missingTerminator))
  else
    let payload ← Checked.compute (Machine.difference? length 1)
    OptionT.lift (checkLength .string limits.maxStringLength payload)
    let run ← onCursorChecked (ReadCursor.takeChecked length)
    let text ← Checked.compute (Machine.slice? run 0 payload)
    let terminator ← Checked.compute (Machine.slice? run payload run.length)
    if terminator = [0] then
      match Utf8.decode text with
      | .ok text => pure text
      | .error fault => OptionT.lift (Latch.raise (.invalidData (.notUtf8 fault)))
    else
      OptionT.lift (Latch.raise (.invalidData .unterminated))

def takeLeafChecked (kind : LeafKind) (deployment : Option Deployment) :
    Checked MemoryReader Leaf := do
  match kind with
  | .bool =>
      let byte ← onCursorChecked (ReadCursor.takeArrayChecked 1)
      if byte = [0] then pure (.bool false)
      else if byte = [1] then pure (.bool true)
      else OptionT.lift (Latch.raise (.invalidData (.booleanByte (byte.headD 0))))
  | .number kind => .number <$> takeNumberChecked kind
  | .text => .text <$> takeTextChecked deployment
  | .bytes =>
      let limits := (← get).limits
      let length ← takeLengthChecked deployment
      OptionT.lift (checkLength .byteBuffer limits.maxStringLength length)
      .bytes <$> onCursorChecked (ReadCursor.takeChecked length)

def enterRepeatedChecked (kind : Repetition) (deployment : Option Deployment) :
    Checked MemoryReader Nat := do
  let length ← takeLengthChecked deployment
  let limits := (← get).limits
  OptionT.lift (checkLength .sequence limits.maxSequenceLength length)
  OptionT.lift (openFrame (.counted kind length))
  return length

def takeSerialChecked : Checked MemoryReader UInt32 :=
  onCursorChecked do
    ReadCursor.alignChecked 4
    let run ← ReadCursor.takeArrayChecked 4
    ReadCursor.alignChecked 8
    return UInt32.ofNat (LittleEndian.value run)

def enterChecked (kind : FrameKind) (deployment : Option Deployment) :
    Checked MemoryReader Opening := do
  match kind with
  | .struct =>
      onCursorChecked (ReadCursor.alignChecked 8)
      OptionT.lift (openFrame (.plain .struct))
      return .struct
  | .polymorphic =>
      let serial ← takeSerialChecked
      OptionT.lift (openFrame (.plain .polymorphic))
      return .polymorphic serial
  | .variant =>
      let run ← onCursorChecked (ReadCursor.takeArrayChecked 1)
      OptionT.lift (openFrame (.plain .variant))
      return .variant (LittleEndian.value run)
  | .sequence => .sequence <$> enterRepeatedChecked .sequence deployment
  | .map => .map <$> enterRepeatedChecked .map deployment
  | .mapEntry =>
      OptionT.lift (openFrame (.plain .mapEntry))
      return .mapEntry

def hasMore? (kind : Repetition) (reader : MemoryReader) : Option (Bool × MemoryReader) :=
  match reader.error, reader.frames with
  | some _, _ => some (false, reader)
  | none, .counted found remaining :: outer =>
      if found = kind then
        if remaining = 0 then some (false, reader)
        else do
          let left ← Machine.difference? remaining 1
          return (true, { reader with frames := .counted found left :: outer })
      else
        some (false, Latch.setError
          (.unbalanced (.itemRequested kind (some (.counted found remaining)))) reader)
  | none, frames =>
      some (false, Latch.setError (.unbalanced (.itemRequested kind frames.head?)) reader)

def hasMoreChecked (kind : Repetition) : Checked MemoryReader Bool := OptionT.mk fun reader =>
  match hasMore? kind reader with
  | none => .ok none reader
  | some (more, after) => .ok (some more) after

theorem takeNumber_faithful (kind : NumberKind) :
    Faithful (Sane limits) (takeNumberChecked kind) (takeNumber kind) fun _ => True := by
  have positive : 0 < kind.size := by cases kind <;> decide
  have small : kind.size ≤ 8 := by cases kind <;> decide
  apply onCursor_faithful
  apply (ReadCursor.align_faithful positive small).bind
  intro _ _
  apply (ReadCursor.takeArray_faithful kind.size).bind
  intro run _
  exact Faithful.pure trivial

theorem takeLength_faithful (deployment : Option Deployment) :
    Faithful (Sane limits) (takeLengthChecked deployment) (takeLength deployment)
      fun _ => True := by
  unfold takeLengthChecked takeLength
  cases refused : LengthWidth.ofDeployment deployment with
  | error fault => exact raise_faithful (LengthWidth.genuine_of_ofDeployment refused) _
  | ok width =>
      have positive : 0 < width.size := by cases width <;> decide
      have small : width.size ≤ 8 := by cases width <;> decide
      apply onCursor_faithful
      apply (ReadCursor.align_faithful positive small).bind
      intro _ _
      apply (ReadCursor.takeArray_faithful width.size).bind
      intro run _
      exact Faithful.pure trivial

theorem takeText_faithful (deployment : Option Deployment) :
    Faithful (Sane limits) (takeTextChecked deployment) (takeText deployment)
      fun _ => True := by
  apply Faithful.get.bind
  intro reader _
  apply (takeLength_faithful deployment).bind
  intro length _
  -- A length of zero is refused before the terminator is subtracted from it.
  cases length with
  | zero => exact raise_faithful id _
  | succ length =>
      rw [if_neg (Nat.succ_ne_zero length), Machine.difference?_succ_one, Checked.compute_bind]
      apply (checkLength_faithful (by decide) _ _).bind
      intro _ _
      apply (onCursor_faithful (ReadCursor.take_faithful (length + 1))).bind
      intro run lengthEq
      have inside : length ≤ run.length := Nat.le_of_lt (by omega)
      rw [Machine.slice?_zero inside, Machine.slice?_length inside, Checked.compute_bind,
        Checked.compute_bind]
      split_ifs
      · cases Utf8.decode (run.take length) with
        | ok text => exact Faithful.pure trivial
        | error fault => exact raise_faithful id _
      · exact raise_faithful id _

theorem takeLeaf_faithful (kind : LeafKind) (deployment : Option Deployment) :
    Faithful (Sane limits) (takeLeafChecked kind deployment) (takeLeaf kind deployment)
      fun _ => True := by
  cases kind with
  | bool =>
      apply (onCursor_faithful (ReadCursor.takeArray_faithful 1)).bind
      intro byte _
      split_ifs
      · exact Faithful.pure trivial
      · exact Faithful.pure trivial
      · exact raise_faithful id _
  | number kind => exact (takeNumber_faithful kind).map fun _ _ => trivial
  | text => exact (takeText_faithful deployment).map fun _ _ => trivial
  | bytes =>
      apply Faithful.get.bind
      intro reader _
      apply (takeLength_faithful deployment).bind
      intro length _
      apply (checkLength_faithful (by decide) _ _).bind
      intro _ _
      exact (onCursor_faithful (ReadCursor.take_faithful length)).map fun _ _ => trivial

/-- An opened sequence or map announces no more items than the limits allow. -/
theorem enterRepeated_faithful (kind : Repetition) (deployment : Option Deployment) :
    Faithful (Sane limits) (enterRepeatedChecked kind deployment) (enterRepeated kind deployment)
      (· ≤ limits.maxSequenceLength) := by
  apply (takeLength_faithful deployment).bind
  intro length _
  apply Faithful.get.bind
  intro reader sane
  rw [sane.limits_eq]
  apply (checkLength_faithful (by decide) _ _).bind
  intro _ short
  exact (openFrame_faithful _).bind fun _ _ => Faithful.pure short

theorem takeSerial_faithful :
    Faithful (Sane limits) takeSerialChecked takeSerial fun _ => True := by
  apply onCursor_faithful
  apply (ReadCursor.align_faithful (by decide) (by decide)).bind
  intro _ _
  apply (ReadCursor.takeArray_faithful 4).bind
  intro run _
  apply (ReadCursor.align_faithful (by decide) (by decide)).bind
  exact fun _ _ => Faithful.pure trivial

/-- An opening announces no more items than the limits allow. -/
theorem enter_faithful (kind : FrameKind) (deployment : Option Deployment) :
    Faithful (Sane limits) (enterChecked kind deployment) (enter kind deployment)
      (·.length ≤ limits.maxSequenceLength) := by
  cases kind with
  | struct =>
      apply (onCursor_faithful (ReadCursor.align_faithful (by decide) (by decide))).bind
      intro _ _
      exact (openFrame_faithful _).bind fun _ _ => Faithful.pure (Nat.zero_le _)
  | polymorphic =>
      apply takeSerial_faithful.bind
      intro serial _
      exact (openFrame_faithful _).bind fun _ _ => Faithful.pure (Nat.zero_le _)
  | variant =>
      apply (onCursor_faithful (ReadCursor.takeArray_faithful 1)).bind
      intro run _
      exact (openFrame_faithful _).bind fun _ _ => Faithful.pure (Nat.zero_le _)
  | sequence => exact (enterRepeated_faithful .sequence deployment).map fun _ short => short
  | map => exact (enterRepeated_faithful .map deployment).map fun _ short => short
  | mapEntry => exact (openFrame_faithful _).bind fun _ _ => Faithful.pure (Nat.zero_le _)

/-- A question for another item counts one item of the innermost frame, or changes nothing, or
latches that no frame of its kind is innermost. -/
theorem hasMore_cases (kind : Repetition) (reader : MemoryReader) :
    (∃ remaining outer, reader.frames = .counted kind (remaining + 1) :: outer ∧
      hasMore kind reader = (true, { reader with frames := .counted kind remaining :: outer })) ∨
    hasMore kind reader = (false, reader) ∨
    ∃ found, hasMore kind reader =
      (false, Latch.setError (.unbalanced (.itemRequested kind found)) reader) := by
  unfold hasMore
  cases error : reader.error with
  | some first => exact .inr (.inl rfl)
  | none =>
      cases innermost : reader.frames with
      | nil => exact .inr (.inr ⟨_, rfl⟩)
      | cons frame outer =>
          cases frame with
          | plain found => exact .inr (.inr ⟨_, rfl⟩)
          | counted found remaining =>
              by_cases same : found = kind
              · subst same
                cases remaining with
                | zero => exact .inr (.inl (if_pos rfl))
                | succ remaining => exact .inl ⟨remaining, outer, rfl, if_pos rfl⟩
              · exact .inr (.inr ⟨_, if_neg same⟩)

theorem Sane.hasMore {reader : MemoryReader} (sane : Sane limits reader) (kind : Repetition) :
    Sane limits (MemoryReader.hasMore kind reader).2 := by
  rcases hasMore_cases kind reader with
    ⟨remaining, outer, innermost, counted⟩ | same | ⟨found, failed⟩
  · rw [counted]
    apply sane.withFrames
    have shallow := sane.shallow
    rwa [innermost] at shallow
  · rw [same]
    exact sane
  · rw [failed]
    exact sane.setError id

theorem hasMore?_eq (kind : Repetition) (reader : MemoryReader) :
    hasMore? kind reader = some (hasMore kind reader) := by
  unfold hasMore? hasMore
  cases error : reader.error with
  | some first => rfl
  | none =>
      cases innermost : reader.frames with
      | nil => rfl
      | cons frame outer =>
          cases frame with
          | plain found => rfl
          | counted found remaining =>
              by_cases same : found = kind
              · cases remaining with
                | zero => simp only [if_pos same, if_true]
                | succ remaining =>
                    simp only [if_pos same, Nat.succ_ne_zero, if_false,
                      Machine.difference?_succ_one, Option.bind_eq_bind, Option.bind_some]
                    rfl
              · simp only [if_neg same]

theorem run_hasMoreChecked (kind : Repetition) (reader : MemoryReader) :
    (hasMoreChecked kind).run reader =
      .ok (some (hasMore kind reader).1) (hasMore kind reader).2 := by
  have steps : (hasMoreChecked kind).run reader =
      match hasMore? kind reader with
      | none => .ok none reader
      | some (more, after) => .ok (some more) after := rfl
  rw [steps, hasMore?_eq]

theorem hasMore_faithful (kind : Repetition) :
    Faithful (Sane limits) (hasMoreChecked kind) (modifyGet (hasMore kind)) fun _ => True where
  answers := by
    intro before answer after sane answered
    cases answered
    exact ⟨run_hasMoreChecked kind before, sane.hasMore kind, trivial⟩
  fails := by
    intro before fault after sane failed
    cases failed

/-- A call in machine arithmetic, for which the latch is checked. -/
def calling (checked : Checked MemoryReader α) : Checked MemoryReader α := do
  OptionT.lift Latch.check
  checked

theorem calling_faithful {checked : Checked MemoryReader α} {action : Action MemoryReader α}
    {post : α → Prop} (faithful : Faithful (Sane limits) checked action post) :
    Faithful (Sane limits) (calling checked) (Latch.check >>= fun _ => action) post :=
  check_faithful.bind fun _ _ => faithful

theorem leaf_faithful (kind : LeafKind) (deployment : Option Deployment) :
    Faithful (Sane limits) (calling (takeLeafChecked kind deployment))
      (InputStream.leaf kind deployment) fun _ => True :=
  calling_faithful (takeLeaf_faithful kind deployment)

theorem entering_faithful (kind : FrameKind) (deployment : Option Deployment) :
    Faithful (Sane limits) (calling (enterChecked kind deployment))
      (InputStream.enter kind deployment) (·.length ≤ limits.maxSequenceLength) :=
  calling_faithful (enter_faithful kind deployment)

theorem leave_faithful (kind : FrameKind) :
    Faithful (Sane limits) (calling (OptionT.lift (closeFrame kind))) (InputStream.leave kind)
      fun _ => True :=
  calling_faithful (closeFrame_faithful kind)

end MemoryReader

namespace ReadProgram

open MemoryReader

variable {α : Type}

/-- Runs a program in machine arithmetic. -/
def runChecked : ReadProgram α → Checked MemoryReader α
  | .done value => pure value
  | .raise error => OptionT.lift (Latch.raise error)
  | .leaf kind deployment next => do
      let leaf ← calling (takeLeafChecked kind deployment)
      (next leaf).runChecked
  | .enter kind deployment next => do
      let opening ← calling (enterChecked kind deployment)
      (next opening).runChecked
  | .leave kind next => do
      calling (OptionT.lift (closeFrame kind))
      next.runChecked
  | .hasMore kind next => do
      let more ← hasMoreChecked kind
      (next more).runChecked
  | .check next => do
      OptionT.lift Latch.check
      next.runChecked

/-- From a sane reader a program runs in machine arithmetic as it runs. -/
theorem runChecked_eq (program : ReadProgram α) {limits : Limits} {reader : MemoryReader}
    (sane : reader.Sane limits) :
    program.runChecked.run reader = (OptionT.lift program.run).run reader := by
  induction program generalizing reader with
  | done value => rfl
  | raise error => rfl
  | leaf kind deployment next ih =>
      exact (leaf_faithful kind deployment).run_bind_eq sane fun leaf => ih leaf
  | enter kind deployment next ih =>
      exact (entering_faithful kind deployment).run_bind_eq sane fun opening => ih opening
  | leave kind next ih => exact (leave_faithful kind).run_bind_eq sane fun _ => ih
  | hasMore kind next ih => exact (hasMore_faithful kind).run_bind_eq sane fun more => ih more
  | check next ih => exact check_faithful.run_bind_eq sane fun _ => ih

end ReadProgram

end ValueBus
