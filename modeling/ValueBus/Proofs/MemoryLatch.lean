import ValueBus.Proofs.Latching
import ValueBus.Proofs.Parts
import ValueBus.Proofs.Writing

/-!
# The memory streams keep to the latch

A call on the memory writer first makes its checks, which leave the bytes alone, and then puts bytes,
which cannot fail. Hence a call that fails has put nothing. A call on the memory reader may fail
after the cursor has moved, but then the failure is latched as well.
-/

namespace ValueBus

open ValueBus.Action (Settled Settles Refuses)

namespace MemoryWriter

variable {α β : Type}

instance : LawfulLatch MemoryWriter where
  error_setError _ _ := Option.orElse_eq_or

/-- A later error changes nothing. -/
theorem setError_of_latched {writer : MemoryWriter} {first : StreamError} (newError : StreamError)
    (latched : writer.error = some first) : Latch.setError newError writer = writer := by
  cases writer
  cases latched
  rfl

/-- An action that looks and does not put: it may fail, and leaves the bytes alone. -/
structure Checks (action : Action MemoryWriter α) : Prop where
  settles : action.Settles
  keeps : ∀ before, (action.after before).cursor = before.cursor

/-- An action that cannot fail. -/
structure Puts (action : Action MemoryWriter α) : Prop where
  answers : ∀ before, ∃ answer after, action before = .ok answer after
  settles : action.Settles

/-- An action that makes its checks before it puts anything. -/
structure ChecksFirst (action : Action MemoryWriter α) : Prop where
  settles : action.Settles
  keeps : ∀ {before after : MemoryWriter} {fault : StreamError},
    action before = .error fault after → after.cursor = before.cursor

theorem Checks.checksFirst {action : Action MemoryWriter α} (checks : Checks action) :
    ChecksFirst action where
  settles := checks.settles
  keeps := by
    intro before after fault fails
    have kept := checks.keeps before
    rwa [Action.after_of_error fails] at kept

theorem Checks.bind {first : Action MemoryWriter α} {next : α → Action MemoryWriter β}
    (checks : Checks first) (nextChecks : ∀ answer, Checks (next answer)) :
    Checks (first >>= next) where
  settles := checks.settles.bind fun answer => (nextChecks answer).settles
  keeps := by
    intro before
    have kept := checks.keeps before
    cases result : first before with
    | ok answer middle =>
        rw [Action.after_of_ok result] at kept
        rw [Action.after, Action.bind_of_ok result, ← kept]
        exact (nextChecks answer).keeps middle
    | error fault middle =>
        rw [Action.after_of_error result] at kept
        rw [Action.after_of_error (Action.bind_of_error result), kept]

theorem Puts.bind {first : Action MemoryWriter α} {next : α → Action MemoryWriter β}
    (puts : Puts first) (nextPuts : ∀ answer, Puts (next answer)) : Puts (first >>= next) where
  answers := by
    intro before
    rcases puts.answers before with ⟨answer, middle, answered⟩
    rw [Action.bind_of_ok answered]
    exact (nextPuts answer).answers middle
  settles := puts.settles.bind fun answer => (nextPuts answer).settles

/-- A check may stand before anything that makes its checks first. -/
theorem Checks.andThen {first : Action MemoryWriter α} {next : α → Action MemoryWriter β}
    (checks : Checks first) (nextChecks : ∀ answer, ChecksFirst (next answer)) :
    ChecksFirst (first >>= next) where
  settles := checks.settles.bind fun answer => (nextChecks answer).settles
  keeps := by
    intro before after fault fails
    have kept := checks.keeps before
    cases result : first before with
    | ok answer middle =>
        rw [Action.after_of_ok result] at kept
        rw [Action.bind_of_ok result] at fails
        rw [← kept]
        exact (nextChecks answer).keeps fails
    | error firstFault middle =>
        rw [Action.after_of_error result] at kept
        rw [Action.bind_of_error result] at fails
        cases fails
        exact kept

/-- What cannot fail may stand after anything that makes its checks first. -/
theorem ChecksFirst.andThen {first : Action MemoryWriter α} {next : α → Action MemoryWriter β}
    (checks : ChecksFirst first) (nextPuts : ∀ answer, Puts (next answer)) :
    ChecksFirst (first >>= next) where
  settles := checks.settles.bind fun answer => (nextPuts answer).settles
  keeps := by
    intro before after fault fails
    cases result : first before with
    | ok answer middle =>
        rcases (nextPuts answer).answers middle with ⟨last, final, answered⟩
        rw [Action.bind_of_ok result, answered] at fails
        cases fails
    | error firstFault middle =>
        rw [Action.bind_of_error result] at fails
        cases fails
        exact checks.keeps result

theorem get_checks : Checks (get : Action MemoryWriter MemoryWriter) where
  settles := Action.get_settles
  keeps _ := rfl

theorem pure_checks (answer : α) : Checks (pure answer : Action MemoryWriter α) where
  settles := Settles.pure answer
  keeps _ := rfl

theorem raise_checks (fault : StreamError) :
    Checks (Latch.raise fault : Action MemoryWriter α) where
  settles := Action.raise_settles fault
  keeps := by
    intro before
    unfold Action.after Latch.raise
    cases Latch.error before <;> rfl

theorem check_checks : Checks (Latch.check : Action MemoryWriter Unit) where
  settles := Action.check_settles
  keeps := by
    intro before
    unfold Action.after Latch.check
    cases Latch.error before <;> rfl

theorem Puts.checksFirst {action : Action MemoryWriter α} (puts : Puts action) :
    ChecksFirst action :=
  (pure_checks ()).checksFirst.andThen fun _ => puts

theorem modify_puts {change : MemoryWriter → MemoryWriter}
    (keeps : ∀ writer, (change writer).error = writer.error) :
    Puts (modify change : Action MemoryWriter Unit) where
  answers before := ⟨(), change before, rfl⟩
  settles := by
    intro before unlatched
    exact (keeps before).trans unlatched

theorem put_puts (run : List UInt8) : Puts (put run) :=
  modify_puts fun _ => rfl

theorem align_puts (alignment : Nat) : Puts (align alignment) :=
  modify_puts fun _ => rfl

theorem putNumber_puts (number : Number) : Puts (putNumber number) :=
  (align_puts _).bind fun _ => put_puts _

theorem checkLength_checks (what : LimitKind) (limit actual : Nat) :
    Checks (checkLength what limit actual) := by
  unfold checkLength
  split
  · exact raise_checks _
  · exact pure_checks ()

/-- An action may open or close frames before it checks. -/
theorem Checks.of_reframed {action : Action MemoryWriter α}
    (runs : ∀ before : MemoryWriter, ∃ frames other,
      Checks other ∧ action before = other { before with frames }) : Checks action where
  settles := by
    intro before unlatched
    rcases runs before with ⟨frames, other, checks, runsAs⟩
    rw [runsAs]
    exact checks.settles unlatched
  keeps := by
    intro before
    rcases runs before with ⟨frames, other, checks, runsAs⟩
    rw [Action.after, runsAs]
    exact checks.keeps { before with frames }

theorem openFrame_checks (kind : FrameKind) : Checks (openFrame kind) := by
  apply Checks.of_reframed
  intro before
  by_cases deep : before.frames.length + 1 > before.limits.maxDepth
  · have refused : openFrame kind before = Latch.raise (.limitExceeded .depth
        before.limits.maxDepth (before.frames.length + 1)) before := by
      rw [openFrame_apply, checkLength, if_pos deep, Action.raise_bind]
    exact ⟨before.frames, _, raise_checks _, refused⟩
  · refine ⟨kind :: before.frames, _, pure_checks (), ?_⟩
    rw [openFrame_apply, checkLength, if_neg deep]
    rfl

theorem closeFrame_checks (kind : FrameKind) : Checks (closeFrame kind) := by
  apply Checks.of_reframed
  intro before
  have steps : closeFrame kind before =
      (if before.frames.head? = some kind then pure ()
        else Latch.raise (.unbalanced (.endedWriting kind before.frames.head?)))
          { before with frames := before.frames.tail } := rfl
  refine ⟨before.frames.tail, _, ?_, steps⟩
  split
  · exact pure_checks ()
  · exact raise_checks _

theorem putLength_checksFirst (length : Nat) (deployment : Option Deployment) :
    ChecksFirst (putLength length deployment) := by
  unfold putLength
  split
  · exact (raise_checks _).checksFirst
  · split
    · exact (get_checks.bind fun _ => raise_checks _).checksFirst
    · exact ((align_puts _).bind fun _ => put_puts _).checksFirst

theorem putLeaf_checksFirst (value : Leaf) (deployment : Option Deployment) :
    ChecksFirst (putLeaf value deployment) := by
  apply get_checks.andThen
  intro writer
  cases value with
  | bool value => exact (put_puts _).checksFirst
  | number value => exact (putNumber_puts value).checksFirst
  | text value =>
      apply (checkLength_checks _ _ _).andThen
      intro _
      exact (putLength_checksFirst _ _).andThen fun _ => put_puts _
  | bytes value =>
      apply (checkLength_checks _ _ _).andThen
      intro _
      exact (putLength_checksFirst _ _).andThen fun _ => put_puts _

theorem enterRepeated_checksFirst (kind : Repetition) (length : Nat)
    (deployment : Option Deployment) : ChecksFirst (enterRepeated kind length deployment) := by
  apply get_checks.andThen
  intro writer
  apply (checkLength_checks _ _ _).andThen
  intro _
  apply (openFrame_checks _).andThen
  intro _
  exact putLength_checksFirst length deployment

theorem enter_checksFirst (opening : Opening) (deployment : Option Deployment) :
    ChecksFirst (enter opening deployment) := by
  cases opening with
  | struct => exact (openFrame_checks _).andThen fun _ => (align_puts _).checksFirst
  | polymorphic serial =>
      apply (openFrame_checks _).andThen
      intro _
      exact ((putNumber_puts _).bind fun _ => align_puts _).checksFirst
  | variant tag =>
      simp only [enter]
      split
      · exact (get_checks.bind fun _ => raise_checks _).checksFirst
      · exact (openFrame_checks _).andThen fun _ => (put_puts _).checksFirst
  | sequence length => exact enterRepeated_checksFirst _ _ _
  | map length => exact enterRepeated_checksFirst _ _ _
  | mapEntry => exact (openFrame_checks _).checksFirst

theorem takeCall_checksFirst (call : WriteCall) : ChecksFirst (takeCall call) := by
  cases call with
  | leaf value deployment => exact putLeaf_checksFirst value deployment
  | enter opening deployment => exact enter_checksFirst opening deployment
  | leave kind => exact (closeFrame_checks kind).checksFirst

instance : LawfulOutputStream MemoryWriter where
  settles call := (takeCall_checksFirst call).settles.of_check
  refuses call := Action.check_refuses.bind fun _ => takeCall call

end MemoryWriter

namespace MemoryReader

variable {α : Type}

instance : LawfulLatch MemoryReader where
  error_setError _ _ := Option.orElse_eq_or

/-- A later error changes nothing. -/
theorem setError_of_latched {reader : MemoryReader} {first : StreamError} (newError : StreamError)
    (latched : reader.error = some first) : Latch.setError newError reader = reader := by
  cases reader
  cases latched
  rfl

theorem onCursor_settles (step : Action ReadCursor α) : (onCursor step).Settles := by
  intro before unlatched
  unfold onCursor
  cases step before.cursor with
  | ok answer cursor => exact unlatched
  | error fault cursor =>
      have moved : Latch.error { before with cursor } = none := unlatched
      exact Action.raise_settles fault moved

theorem Composed.settles {action : Action MemoryReader α} (composed : Composed action) :
    action.Settles := by
  induction composed with
  | pure answer => exact Settles.pure answer
  | raise fault => exact Action.raise_settles fault
  | take count => exact onCursor_settles _
  | align fits => exact onCursor_settles _
  | reframed change next composed runs ih =>
      intro before unlatched
      rw [runs]
      exact ih _ _ unlatched
  | bind composed nextComposed ih nextIh => exact ih.bind nextIh

theorem hasMore_of_latched (kind : Repetition) {reader : MemoryReader} {first : StreamError}
    (latched : reader.error = some first) : hasMore kind reader = (false, reader) := by
  unfold hasMore
  simp only [latched]

theorem unlatched_of_hasMore (kind : Repetition) {reader : MemoryReader}
    (unlatched : reader.error = none) (more : (hasMore kind reader).1 = true) :
    (hasMore kind reader).2.error = none := by
  unfold hasMore at more ⊢
  grind

instance : LawfulInputStream MemoryReader where
  leaf_settles kind deployment := (Composed.takeLeaf kind deployment).settles.of_check
  leaf_refuses kind deployment := Action.check_refuses.bind fun _ => takeLeaf kind deployment
  enter_settles kind deployment := (Composed.enter kind deployment).settles.of_check
  enter_refuses kind deployment := Action.check_refuses.bind fun _ => enter kind deployment
  leave_settles kind := (Composed.closeFrame kind).settles.of_check
  leave_refuses kind := Action.check_refuses.bind fun _ => closeFrame kind
  hasMore_of_latched kind _ _ latched := hasMore_of_latched kind latched
  unlatched_of_hasMore kind _ unlatched more := unlatched_of_hasMore kind unlatched more

end MemoryReader

end ValueBus
