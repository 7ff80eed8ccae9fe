import ValueBus.Proofs.Latching
import ValueBus.Proofs.Parts
import ValueBus.Proofs.Writing

/-!
# Calls under two limits

Two memory streams in the same state but for their limits, the limits of the one not above those of
the other, take every call alike, unless the first one is over a limit: they give the same answer or
the same error, and an answer leaves them in the same state but for their limits.

A limit is looked at in few places, and what is found there has no effect but the error. The
judgement is therefore composed as the calls are, from the parts that look at a limit and those that
do not. A call that comes behind a latched error finds that error before it looks at a limit, so the
parts are compared on streams that have latched nothing.
-/

namespace ValueBus

/-- Limits none of which is above the one of the others. -/
structure Limits.Within (tight loose : Limits) : Prop where
  depth : tight.maxDepth ≤ loose.maxDepth
  stringLength : tight.maxStringLength ≤ loose.maxStringLength
  sequenceLength : tight.maxSequenceLength ≤ loose.maxSequenceLength

def StreamError.IsLimit (fault : StreamError) : Prop :=
  ∃ what limit actual, fault = .limitExceeded what limit actual

namespace Action

variable {σ α β : Type} {related : σ → σ → Prop}

/-- Results that are the same up to related states, unless the first is over a limit. -/
inductive SameResult (related : σ → σ → Prop) :
    EStateM.Result StreamError σ α → EStateM.Result StreamError σ α → Prop where
  | ok {answer : α} {after other : σ} :
      related after other → SameResult related (.ok answer after) (.ok answer other)
  | error {fault : StreamError} {after other : σ} :
      SameResult related (.error fault after) (.error fault other)
  | exceeded {fault : StreamError} {after : σ} {result : EStateM.Result StreamError σ α} :
      fault.IsLimit → SameResult related (.error fault after) result

theorem SameResult.mono {wider : σ → σ → Prop}
    {result other : EStateM.Result StreamError σ α} (same : SameResult related result other)
    (widens : ∀ before other, related before other → wider before other) :
    SameResult wider result other := by
  cases same with
  | ok states => exact .ok (widens _ _ states)
  | error => exact .error
  | exceeded limitFault => exact .exceeded limitFault

/-- Actions with the same result from related states on. -/
def Matches (related : σ → σ → Prop) (first second : Action σ α) : Prop :=
  ∀ ⦃before other : σ⦄, related before other → SameResult related (first before) (second other)

namespace Matches

theorem pure (answer : α) :
    Matches related (pure answer : Action σ α) (Pure.pure answer) :=
  fun _ _ states => .ok states

theorem bind {first second : Action σ α} {next following : α → Action σ β}
    (firstMatch : Matches related first second)
    (nextMatch : ∀ answer, Matches related (next answer) (following answer)) :
    Matches related (first >>= next) (second >>= following) := by
  intro before other states
  have same := firstMatch states
  cases firstResult : first before with
  | ok answer after =>
      rw [bind_of_ok firstResult]
      rw [firstResult] at same
      generalize secondResult : second other = result at same
      cases same with
      | ok statesAfter =>
          rw [bind_of_ok secondResult]
          exact nextMatch answer statesAfter
  | error fault after =>
      rw [bind_of_error firstResult]
      rw [firstResult] at same
      generalize secondResult : second other = result at same
      cases same with
      | error =>
          rw [bind_of_error secondResult]
          exact .error
      | exceeded limitFault => exact .exceeded limitFault

theorem map {first second : Action σ α} (firstMatch : Matches related first second)
    (change : α → β) :
    Matches related (change <$> first) (change <$> second) := by
  simp only [map_eq_pure_bind]
  exact firstMatch.bind fun answer => pure (change answer)

theorem set {before other : σ} (states : related before other) :
    Matches related (set before : Action σ PUnit) (MonadStateOf.set other) :=
  fun _ _ _ => .ok states

theorem ite {condition : Prop} [Decidable condition] {first second third fourth : Action σ α}
    (firsts : Matches related first third) (seconds : Matches related second fourth) :
    Matches related (if condition then first else second)
      (if condition then third else fourth) := by
  split
  · exact firsts
  · exact seconds

end Matches

variable [Latch σ]

/-- Related states of which the first has latched nothing. -/
def Unlatched (related : σ → σ → Prop) (before other : σ) : Prop :=
  Latch.error before = none ∧ related before other

/-- Related states have latched the same error. -/
def SameLatch (related : σ → σ → Prop) : Prop :=
  ∀ ⦃before other : σ⦄, related before other → Latch.error before = Latch.error other

namespace Matches

theorem raise (same : SameLatch related) (fault : StreamError) :
    Matches related (Latch.raise fault : Action σ α) (Latch.raise fault) := by
  intro before other states
  cases latched : Latch.error before with
  | none =>
      rw [raise_of_unlatched latched, raise_of_unlatched ((same states).symm.trans latched)]
      exact .error
  | some first =>
      rw [raise_refuses fault latched, raise_refuses fault ((same states).symm.trans latched)]
      exact .error

/-- Whoever refuses a latched error comes to the same as one who fails with a limit. -/
theorem exceeds (same : SameLatch related) {what : LimitKind} {limit actual : Nat}
    {action : Action σ α} (refuses : action.Refuses) :
    Matches related (Latch.raise (.limitExceeded what limit actual)) action := by
  intro before other states
  cases latched : Latch.error before with
  | none =>
      rw [raise_of_unlatched latched]
      exact .exceeded ⟨what, limit, actual, rfl⟩
  | some first =>
      rw [raise_refuses _ latched, refuses ((same states).symm.trans latched)]
      exact .error

/-- A limit that is not below another is not exceeded where the other is not. -/
theorem limited {what : LimitKind} {limit bound : Nat} (actual : Nat) (within : limit ≤ bound) :
    Matches (Unlatched related)
      (if actual > limit then Latch.raise (.limitExceeded what limit actual) else Pure.pure ())
      (if actual > bound then Latch.raise (.limitExceeded what bound actual)
        else Pure.pure ()) := by
  by_cases tooLarge : actual > limit
  · rintro before other ⟨unlatched, _⟩
    rw [if_pos tooLarge, raise_of_unlatched unlatched]
    exact .exceeded ⟨what, limit, actual, rfl⟩
  · have fits : ¬ actual > bound := fun above => tooLarge (Nat.lt_of_le_of_lt within above)
    rw [if_neg tooLarge, if_neg fits]
    exact pure ()

/-- Behind a check of the latch, actions need to agree where nothing is latched. -/
theorem check (same : SameLatch related) {first second : Action σ α}
    (firstMatch : Matches (Unlatched related) first second) :
    Matches related (Latch.check >>= fun _ => first) (Latch.check >>= fun _ => second) := by
  intro before other states
  cases latched : Latch.error before with
  | none =>
      rw [bind_of_ok (check_of_unlatched latched),
        bind_of_ok (check_of_unlatched ((same states).symm.trans latched))]
      exact (firstMatch ⟨latched, states⟩).mono fun _ _ statesAfter => statesAfter.2
  | some firstError =>
      rw [bind_of_error (check_refuses latched),
        bind_of_error (check_refuses ((same states).symm.trans latched))]
      exact .error

end Matches

end Action

open ValueBus.Action (Matches Unlatched SameLatch)

/-- Streams whose limits can be put in place of others. -/
class Limited (σ : Type) [Latch σ] where
  limits : σ → Limits
  withLimits : Limits → σ → σ
  limits_withLimits : ∀ (other : Limits) (state : σ), limits (withLimits other state) = other
  error_withLimits : ∀ (other : Limits) (state : σ),
    Latch.error (withLimits other state) = Latch.error state

section Limited

variable {σ α : Type} [Latch σ] [Limited σ] {tight loose : Limits}

/-- Streams in the same state but for their limits. -/
def Relaxed (tight loose : Limits) (before other : σ) : Prop :=
  Limited.limits before = tight ∧ Limited.withLimits loose before = other

/-- Actions that look at different limits. -/
abbrev Alike (tight loose : Limits) (first second : Action σ α) : Prop :=
  Matches (Unlatched (Relaxed tight loose)) first second

theorem Relaxed.sameLatch : SameLatch (Relaxed tight loose : σ → σ → Prop) := by
  rintro before other ⟨_, rfl⟩
  exact (Limited.error_withLimits loose before).symm

theorem Alike.raise (fault : StreamError) :
    Alike tight loose (Latch.raise fault : Action σ α) (Latch.raise fault) :=
  Matches.raise (fun _ _ states => Relaxed.sameLatch states.2) fault

/-- What comes next may depend on the limits. -/
theorem Alike.of_limits {action : Action σ α} (next : Limits → Action σ α)
    (runs : ∀ before, action before = next (Limited.limits before) before)
    (nextAlike : Alike tight loose (next tight) (next loose)) :
    Alike tight loose action action := by
  rintro before other ⟨unlatched, rfl, rfl⟩
  rw [runs, runs, Limited.limits_withLimits]
  exact nextAlike ⟨unlatched, rfl, rfl⟩

end Limited

variable {α : Type} {tight loose : Limits}

namespace MemoryReader

instance : Limited MemoryReader where
  limits := MemoryReader.limits
  withLimits limits reader := { reader with limits }
  limits_withLimits _ _ := rfl
  error_withLimits _ _ := rfl

theorem onCursor_alike (step : Action ReadCursor α) :
    Alike tight loose (onCursor step) (onCursor step) := by
  rintro before other ⟨unlatched, limitsEq, rfl⟩
  unfold onCursor
  cases step before.cursor with
  | ok answer cursor => exact .ok ⟨unlatched, limitsEq, rfl⟩
  | error fault cursor =>
      have moved : Unlatched (Relaxed tight loose) { before with cursor }
          { before with cursor, limits := loose } := ⟨unlatched, limitsEq, rfl⟩
      exact Alike.raise fault moved

theorem checkLength_alike (what : LimitKind) {limit bound : Nat} (actual : Nat)
    (within : limit ≤ bound) :
    Alike tight loose (checkLength what limit actual) (checkLength what bound actual) :=
  Matches.limited actual within

theorem openFrame_alike (within : tight.Within loose) (frame : ReadFrame) :
    Alike tight loose (openFrame frame) (openFrame frame) := by
  rintro before other ⟨unlatched, rfl, rfl⟩
  rw [openFrame_apply, openFrame_apply]
  have checked : Alike before.limits loose _ _ :=
    checkLength_alike .depth (before.frames.length + 1) within.depth
  have pushed : Alike before.limits loose (set { before with frames := frame :: before.frames })
      (set { before with frames := frame :: before.frames, limits := loose }) :=
    .set ⟨unlatched, rfl, rfl⟩
  exact checked.bind (fun _ => pushed) ⟨unlatched, rfl, rfl⟩

theorem closeFrame_alike (kind : FrameKind) :
    Alike tight loose (closeFrame kind) (closeFrame kind) := by
  have checked (frame : Option ReadFrame) :
      Alike tight loose (checkClosed kind frame) (checkClosed kind frame) := by
    unfold checkClosed
    split
    · exact Matches.ite (.pure ()) (Alike.raise _)
    · exact Matches.ite (Matches.ite (.pure ()) (Alike.raise _)) (Alike.raise _)
    · exact Alike.raise _
  rintro before other ⟨unlatched, rfl, rfl⟩
  rw [closeFrame_apply, closeFrame_apply]
  exact checked _ ⟨unlatched, rfl, rfl⟩

theorem takeLength_alike (deployment : Option Deployment) :
    Alike tight loose (takeLength deployment) (takeLength deployment) := by
  unfold takeLength
  split
  · exact Alike.raise _
  · exact onCursor_alike _

theorem takePayload_alike (length : Nat) :
    Alike tight loose (takePayload length) (takePayload length) := by
  apply (onCursor_alike _).bind
  intro run
  apply Matches.ite
  · split
    · exact .pure _
    · exact Alike.raise _
  · exact Alike.raise _

theorem takeText_alike (within : tight.Within loose) (deployment : Option Deployment) :
    Alike tight loose (takeText deployment) (takeText deployment) := by
  apply Alike.of_limits fun limits => takeLength deployment >>= takeTerminated limits
  · intro before
    exact takeText_apply deployment
  · apply (takeLength_alike deployment).bind
    intro length
    cases length with
    | zero => exact Alike.raise _
    | succ length =>
        exact (checkLength_alike _ _ within.stringLength).bind fun _ => takePayload_alike length

theorem takeLeaf_alike (within : tight.Within loose) (kind : LeafKind)
    (deployment : Option Deployment) :
    Alike tight loose (takeLeaf kind deployment) (takeLeaf kind deployment) := by
  cases kind with
  | bool =>
      apply (onCursor_alike _).bind
      intro byte
      exact Matches.ite (.pure _) (Matches.ite (.pure _) (Alike.raise _))
  | number kind => exact (onCursor_alike _).map _
  | text => exact (takeText_alike within deployment).map _
  | bytes =>
      apply Alike.of_limits fun limits => takeLength deployment >>= fun length =>
        checkLength .byteBuffer limits.maxStringLength length >>= fun _ =>
          .bytes <$> onCursor (ReadCursor.take length)
      · intro before
        exact takeBytes_apply deployment
      · apply (takeLength_alike deployment).bind
        intro length
        apply (checkLength_alike _ _ within.stringLength).bind
        intro _
        exact (onCursor_alike _).map _

theorem enterRepeated_alike (within : tight.Within loose) (kind : Repetition)
    (deployment : Option Deployment) :
    Alike tight loose (enterRepeated kind deployment) (enterRepeated kind deployment) := by
  apply (takeLength_alike deployment).bind
  intro length
  apply Alike.of_limits fun limits =>
    checkLength .sequence limits.maxSequenceLength length >>= fun _ =>
      openFrame (.counted kind length) >>= fun _ => pure length
  · intro before
    exact openCounted_apply kind length
  · apply (checkLength_alike _ _ within.sequenceLength).bind
    intro _
    exact (openFrame_alike within _).bind fun _ => .pure length

theorem enter_alike (within : tight.Within loose) (kind : FrameKind)
    (deployment : Option Deployment) :
    Alike tight loose (enter kind deployment) (enter kind deployment) := by
  have opened (frame : ReadFrame) (opening : Opening) :
      Alike tight loose (openFrame frame >>= fun _ => pure opening)
        (openFrame frame >>= fun _ => pure opening) :=
    (openFrame_alike within frame).bind fun _ => .pure opening
  cases kind with
  | struct => exact (onCursor_alike _).bind fun _ => opened _ _
  | polymorphic => exact (onCursor_alike _).bind fun _ => opened _ _
  | variant => exact (onCursor_alike _).bind fun _ => opened _ _
  | sequence => exact (enterRepeated_alike within .sequence deployment).map _
  | map => exact (enterRepeated_alike within .map deployment).map _
  | mapEntry => exact opened _ _

theorem hasMore_alike (kind : Repetition) :
    Matches (Relaxed tight loose)
      (modifyGet (InputStream.hasMore kind) : Action MemoryReader Bool)
      (modifyGet (InputStream.hasMore kind)) := by
  have asked (reader : MemoryReader) :
      (modifyGet (InputStream.hasMore kind) : Action MemoryReader Bool) reader =
        .ok (hasMore kind reader).1 (hasMore kind reader).2 := rfl
  rintro before other ⟨rfl, rfl⟩
  have moved : hasMore kind (Limited.withLimits loose before) =
      ((hasMore kind before).1, Limited.withLimits loose (hasMore kind before).2) := by
    refine (hasMore_with kind before before.cursor loose).trans ?_
    rw [← hasMore_cursor kind before]
    rfl
  rw [asked, asked, moved]
  exact .ok ⟨hasMore_limits kind before, rfl⟩

end MemoryReader

namespace MemoryWriter

instance : Limited MemoryWriter where
  limits := MemoryWriter.limits
  withLimits limits writer := { writer with limits }
  limits_withLimits _ _ := rfl
  error_withLimits _ _ := rfl

theorem put_alike (run : List UInt8) : Alike tight loose (put run) (put run) := by
  rintro before other ⟨unlatched, limitsEq, rfl⟩
  exact .ok ⟨unlatched, limitsEq, rfl⟩

theorem align_alike (alignment : Nat) :
    Alike tight loose (align alignment) (align alignment) := by
  rintro before other ⟨unlatched, limitsEq, rfl⟩
  exact .ok ⟨unlatched, limitsEq, rfl⟩

theorem putNumber_alike (number : Number) :
    Alike tight loose (putNumber number) (putNumber number) :=
  (align_alike _).bind fun _ => put_alike _

theorem checkLength_alike (what : LimitKind) {limit bound : Nat} (actual : Nat)
    (within : limit ≤ bound) :
    Alike tight loose (checkLength what limit actual) (checkLength what bound actual) :=
  Matches.limited actual within

theorem openFrame_alike (within : tight.Within loose) (kind : FrameKind) :
    Alike tight loose (openFrame kind) (openFrame kind) := by
  rintro before other ⟨unlatched, rfl, rfl⟩
  rw [openFrame_apply, openFrame_apply]
  have checked : Alike before.limits loose _ _ :=
    checkLength_alike .depth (before.frames.length + 1) within.depth
  have pushed : Alike before.limits loose (set { before with frames := kind :: before.frames })
      (set { before with frames := kind :: before.frames, limits := loose }) :=
    .set ⟨unlatched, rfl, rfl⟩
  exact checked.bind (fun _ => pushed) ⟨unlatched, rfl, rfl⟩

theorem closeFrame_alike (kind : FrameKind) :
    Alike tight loose (closeFrame kind) (closeFrame kind) := by
  rintro before other ⟨unlatched, rfl, rfl⟩
  have popped : Unlatched (Relaxed before.limits loose)
      { before with frames := before.frames.tail }
      { before with frames := before.frames.tail, limits := loose } := ⟨unlatched, rfl, rfl⟩
  have checked : Alike before.limits loose
      (if before.frames.head? = some kind then pure ()
        else Latch.raise (.unbalanced (.endedWriting kind before.frames.head?)) :
          Action MemoryWriter Unit)
      (if before.frames.head? = some kind then pure ()
        else Latch.raise (.unbalanced (.endedWriting kind before.frames.head?))) :=
    Matches.ite (.pure ()) (Alike.raise _)
  exact checked popped

theorem putLength_alike (length : Nat) (deployment : Option Deployment) :
    Alike tight loose (putLength length deployment) (putLength length deployment) := by
  unfold putLength
  split
  · exact Alike.raise _
  · split
    · rintro before other ⟨unlatched, rfl, rfl⟩
      exact Alike.raise (.writeFailed before.length _) ⟨unlatched, rfl, rfl⟩
    · exact (align_alike _).bind fun _ => put_alike _

theorem putLeaf_alike (within : tight.Within loose) (value : Leaf)
    (deployment : Option Deployment) :
    Alike tight loose (putLeaf value deployment) (putLeaf value deployment) := by
  cases value with
  | bool value => exact Alike.of_limits (fun _ => put _) (fun _ => rfl) (put_alike _)
  | number value =>
      exact Alike.of_limits (fun _ => putNumber value) (fun _ => rfl) (putNumber_alike value)
  | text value =>
      apply Alike.of_limits fun limits =>
        checkLength .string limits.maxStringLength (Utf8.encode value).length >>= fun _ =>
          putLength ((Utf8.encode value).length + 1) deployment >>= fun _ =>
            put (Utf8.encode value ++ [0])
      · intro before
        exact putLeaf_text_apply value deployment
      · apply (checkLength_alike _ _ within.stringLength).bind
        intro _
        exact (putLength_alike _ deployment).bind fun _ => put_alike _
  | bytes value =>
      apply Alike.of_limits fun limits =>
        checkLength .byteBuffer limits.maxStringLength value.length >>= fun _ =>
          putLength value.length deployment >>= fun _ => put value
      · intro before
        exact putLeaf_bytes_apply value deployment
      · apply (checkLength_alike _ _ within.stringLength).bind
        intro _
        exact (putLength_alike _ deployment).bind fun _ => put_alike _

theorem enterRepeated_alike (within : tight.Within loose) (kind : Repetition) (length : Nat)
    (deployment : Option Deployment) :
    Alike tight loose (enterRepeated kind length deployment)
      (enterRepeated kind length deployment) := by
  apply Alike.of_limits fun limits =>
    checkLength .sequence limits.maxSequenceLength length >>= fun _ =>
      openFrame kind.frame >>= fun _ => putLength length deployment
  · intro before
    exact enterRepeated_apply kind length deployment
  · apply (checkLength_alike _ _ within.sequenceLength).bind
    intro _
    exact (openFrame_alike within _).bind fun _ => putLength_alike length deployment

theorem enter_alike (within : tight.Within loose) (opening : Opening)
    (deployment : Option Deployment) :
    Alike tight loose (enter opening deployment) (enter opening deployment) := by
  cases opening with
  | struct => exact (openFrame_alike within _).bind fun _ => align_alike _
  | polymorphic serial =>
      apply (openFrame_alike within _).bind
      intro _
      exact (putNumber_alike _).bind fun _ => align_alike _
  | variant tag =>
      simp only [enter]
      split
      · rintro before other ⟨unlatched, rfl, rfl⟩
        exact Alike.raise (.writeFailed before.length _) ⟨unlatched, rfl, rfl⟩
      · exact (openFrame_alike within _).bind fun _ => put_alike _
  | sequence length => exact enterRepeated_alike within .sequence length deployment
  | map length => exact enterRepeated_alike within .map length deployment
  | mapEntry => exact openFrame_alike within _

theorem perform_alike (within : tight.Within loose) (call : WriteCall) :
    Matches (Relaxed tight loose) (OutputStream.perform call : Action MemoryWriter Unit)
      (OutputStream.perform call) := by
  apply Matches.check Relaxed.sameLatch
  cases call with
  | leaf value deployment => exact putLeaf_alike within value deployment
  | enter opening deployment => exact enter_alike within opening deployment
  | leave kind => exact closeFrame_alike kind

end MemoryWriter

end ValueBus
