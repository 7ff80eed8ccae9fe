import ValueBus.Proofs.Conforming

/-!
# Announced bounds

A stream announces how many items a sequence or map has and how deep variants can be nested. Such a
number is no part of the format, and a stream that does not know it can announce any bound. Here a
stream is given a bound to announce. It answers everything else as before, so it conforms to the
protocol if the stream did.
-/

namespace ValueBus

open ValueBus.Action (Settled Settles Refuses)

/-- What is told when a frame is entered, with a number of items announced if the frame repeats. -/
def FrameKind.announce (kind : FrameKind) (bound : Nat) (opening : Opening) : Opening :=
  match kind with
  | .sequence => .sequence bound
  | .map => .map bound
  | _ => opening

theorem Repetition.length_announce (kind : Repetition) (bound : Nat) (opening : Opening) :
    (kind.frame.announce bound opening).length = bound := by
  cases kind <;> rfl

theorem FrameKind.announce_of_plain {kind : FrameKind} (plain : kind.repetition? = none)
    (bound : Nat) : kind.announce bound = id := by
  funext opening
  cases kind with
  | sequence => cases plain
  | map => cases plain
  | _ => rfl

/-- A stream that announces a bound wherever something is announced. -/
structure Announcing (σ : Type) where
  bound : Nat
  stream : σ

namespace Announcing

variable {σ α β : Type}

/-- A result on the stream as a result on the stream that announces a bound. -/
def result (bound : Nat) :
    EStateM.Result StreamError σ α → EStateM.Result StreamError (Announcing σ) α
  | .ok value stream => .ok value ⟨bound, stream⟩
  | .error fault stream => .error fault ⟨bound, stream⟩

theorem result_injective (bound : Nat) :
    Function.Injective (result bound : EStateM.Result StreamError σ α → _) := by
  intro first second same
  cases first <;> cases second <;> cases same <;> rfl

def onStream (action : Action σ α) : Action (Announcing σ) α := fun state =>
  result state.bound (action state.stream)

instance [Latch σ] : Latch (Announcing σ) where
  error state := Latch.error state.stream
  setError fault state := { state with stream := Latch.setError fault state.stream }

instance [InputStream σ] : InputStream (Announcing σ) where
  nesting state := state.bound
  leaf kind deployment := onStream (InputStream.leaf kind deployment)
  enter kind deployment := fun state =>
    onStream (kind.announce state.bound <$> InputStream.enter kind deployment) state
  leave kind := onStream (InputStream.leave kind)
  hasMore kind state :=
    let (more, stream) := InputStream.hasMore kind state.stream
    (more, { state with stream })

section Latch

variable [Latch σ]

instance [LawfulLatch σ] : LawfulLatch (Announcing σ) where
  error_setError newError state := LawfulLatch.error_setError newError state.stream

theorem onStream_settles {action : Action σ α} (settles : action.Settles) :
    (onStream action).Settles := by
  intro before unlatched
  have settled := settles unlatched
  unfold onStream
  cases ran : action before.stream with
  | ok value after => exact settled.unlatched_of_ok ran
  | error fault after =>
      rw [ran] at settled
      exact settled

theorem onStream_refuses {action : Action σ α} (refuses : action.Refuses) :
    (onStream action).Refuses := by
  intro before first latched
  have refused := refuses latched
  unfold onStream
  rw [refused]
  rfl

end Latch

variable [InputStream σ]

theorem hasMore_eq {kind : Repetition} {stream asked : σ} {more : Bool}
    (answered : InputStream.hasMore kind stream = (more, asked)) (bound : Nat) :
    InputStream.hasMore kind (⟨bound, stream⟩ : Announcing σ) = (more, ⟨bound, asked⟩) := by
  simp only [InputStream.hasMore, answered]

instance [LawfulInputStream σ] : LawfulInputStream (Announcing σ) where
  leaf_settles kind deployment := onStream_settles (LawfulInputStream.leaf_settles kind deployment)
  leaf_refuses kind deployment := onStream_refuses (LawfulInputStream.leaf_refuses kind deployment)
  enter_settles kind deployment := fun state unlatched =>
    onStream_settles ((LawfulInputStream.enter_settles kind deployment).map _) unlatched
  enter_refuses kind deployment := fun state first latched =>
    onStream_refuses ((LawfulInputStream.enter_refuses kind deployment).map _) latched
  leave_settles kind := onStream_settles (LawfulInputStream.leave_settles kind)
  leave_refuses kind := onStream_refuses (LawfulInputStream.leave_refuses kind)
  hasMore_of_latched kind state first latched := by
    have silent := @LawfulInputStream.hasMore_of_latched σ _ _ kind state.stream first latched
    exact hasMore_eq silent state.bound
  unlatched_of_hasMore kind state unlatched more :=
    @LawfulInputStream.unlatched_of_hasMore σ _ _ kind state.stream unlatched more

theorem onStream_check :
    onStream (Latch.check : Action σ Unit) = (Latch.check : Action (Announcing σ) Unit) := by
  funext state
  have same : Latch.error state = Latch.error state.stream := rfl
  simp only [onStream, Latch.check, same]
  cases Latch.error state.stream <;> rfl

instance [ConformingInputStream σ] : ConformingInputStream (Announcing σ) where
  enter_of_optional kind deployment optional := by
    have entered := @ConformingInputStream.enter_of_optional σ _ _ kind deployment optional
    funext state
    rw [← onStream_check]
    simp only [InputStream.enter, entered, onStream, Functor.map, EStateM.map]
    cases kind with
    | mapEntry => cases (Latch.check : Action σ Unit) state.stream <;> rfl
    | _ => cases optional
  leave_of_optional kind optional := by
    have left := @ConformingInputStream.leave_of_optional σ _ _ kind optional
    rw [← onStream_check, ← left]
    rfl

end Announcing

end ValueBus
