import ValueBus.Proofs.Reading

/-!
# What the memory reader is made of

Every call of the memory reader is put together from a few parts: it takes bytes, aligns the cursor,
changes the frames as the limits and the frames tell, and raises errors. What holds of the parts and
is kept by composition holds of every call.

The parts that look at the reader see its limits and its frames. They never see how many bytes are
left, which is why the answers depend only on the bytes that were taken.
-/

namespace ValueBus.MemoryReader

variable {α β : Type}

theorem onCursor_bind (step : Action ReadCursor α) (next : α → Action ReadCursor β) :
    onCursor (step >>= next) = onCursor step >>= fun answer => onCursor (next answer) := by
  funext reader
  cases result : step reader.cursor with
  | ok answer cursor =>
      have stepped : onCursor step reader = .ok answer { reader with cursor } := by
        simp only [onCursor, result]
      simp only [Action.bind_of_ok stepped, onCursor, Action.bind_of_ok result]
  | error fault cursor =>
      have composed : onCursor (step >>= next) reader =
          (Latch.raise fault : Action MemoryReader β) { reader with cursor } := by
        simp only [onCursor, Action.bind_of_error result]
      have stepped : onCursor step reader =
          (Latch.raise fault : Action MemoryReader α) { reader with cursor } := by
        simp only [onCursor, result]
      rw [composed, Action.bind_of_eq stepped, Action.raise_bind]

/-- Reads the payload of a text whose length with the terminator is known. -/
def takeTerminated (limits : Limits) : Nat → Action MemoryReader String
  | 0 => Latch.raise (.invalidData .missingTerminator)
  | length + 1 =>
      checkLength .string limits.maxStringLength length >>= fun _ => takePayload length

/-- An action that is put together from the parts of the memory reader. -/
inductive Composed : {α : Type} → Action MemoryReader α → Prop where
  | pure {α : Type} (answer : α) : Composed (pure answer)
  | raise {α : Type} (fault : StreamError) : Composed (Latch.raise fault : Action MemoryReader α)
  | take (count : Nat) : Composed (onCursor (ReadCursor.take count))
  | align {alignment : Nat} (fits : alignment ≤ greatestAlignment) :
      Composed (onCursor (ReadCursor.align alignment))
  | reframed {α : Type} {action : Action MemoryReader α}
      (change : Limits → List ReadFrame → List ReadFrame)
      (next : Limits → List ReadFrame → Action MemoryReader α)
      (composed : ∀ limits frames, Composed (next limits frames))
      (runs : ∀ before, action before =
        next before.limits before.frames
          { before with frames := change before.limits before.frames }) : Composed action
  | bind {α β : Type} {first : Action MemoryReader α} {next : α → Action MemoryReader β}
      (composed : Composed first) (nextComposed : ∀ answer, Composed (next answer)) :
      Composed (first >>= next)

namespace Composed

/-- What comes next may depend on the limits. -/
theorem of_limits {action : Action MemoryReader α} (next : Limits → Action MemoryReader α)
    (composed : ∀ limits, Composed (next limits))
    (runs : ∀ before, action before = next before.limits before) : Composed action :=
  reframed (fun _ frames => frames) (fun limits _ => next limits) (fun limits _ => composed limits)
    runs

theorem map {action : Action MemoryReader α} (composed : Composed action) (change : α → β) :
    Composed (change <$> action) := by
  rw [map_eq_pure_bind]
  exact composed.bind fun answer => pure (change answer)

theorem checkLength (what : LimitKind) (limit actual : Nat) :
    Composed (checkLength what limit actual) := by
  unfold MemoryReader.checkLength
  split
  · exact raise _
  · exact pure ()

theorem takeNumber (kind : NumberKind) : Composed (takeNumber kind) := by
  have fits : kind.size ≤ greatestAlignment := by cases kind <;> decide
  simp only [MemoryReader.takeNumber, ReadCursor.takeNumber, onCursor_bind]
  exact (align fits).bind fun _ => (take _).bind fun _ => pure _

theorem takeLength (deployment : Option Deployment) : Composed (takeLength deployment) := by
  unfold MemoryReader.takeLength
  split
  · exact raise _
  · rename_i width _
    have fits : width.size ≤ greatestAlignment := by cases width <;> decide
    simp only [onCursor_bind]
    exact (align fits).bind fun _ => (take _).bind fun _ => pure _

theorem openFrame (frame : ReadFrame) : Composed (openFrame frame) := by
  apply reframed
    (fun limits frames => if frames.length + 1 > limits.maxDepth then frames else frame :: frames)
    fun limits frames => MemoryReader.checkLength .depth limits.maxDepth (frames.length + 1)
  · intro limits frames
    exact checkLength _ _ _
  · intro before
    rw [openFrame_apply]
    unfold MemoryReader.checkLength
    split_ifs
    · rw [Action.raise_bind]
    · rfl

theorem closeFrame (kind : FrameKind) : Composed (closeFrame kind) := by
  apply reframed (fun _ frames => frames.tail) fun _ frames => checkClosed kind frames.head?
  · intro limits frames
    unfold checkClosed
    split
    · split_ifs
      · exact pure ()
      · exact raise _
    · split_ifs
      · exact pure ()
      · exact raise _
      · exact raise _
    · exact raise _
  · intro before
    exact closeFrame_apply kind

theorem takePayload (length : Nat) : Composed (takePayload length) := by
  apply (take _).bind
  intro run
  split
  · split
    · exact pure _
    · exact raise _
  · exact raise _

theorem takeText (deployment : Option Deployment) : Composed (takeText deployment) := by
  apply of_limits fun limits => MemoryReader.takeLength deployment >>= takeTerminated limits
  · intro limits
    apply (takeLength deployment).bind
    intro length
    cases length with
    | zero => exact raise _
    | succ length => exact (checkLength _ _ _).bind fun _ => takePayload length
  · intro before
    exact takeText_apply deployment

theorem takeLeaf (kind : LeafKind) (deployment : Option Deployment) :
    Composed (takeLeaf kind deployment) := by
  cases kind with
  | bool =>
      apply (take 1).bind
      intro byte
      split
      · exact pure _
      · split
        · exact pure _
        · exact raise _
  | number kind => exact (takeNumber kind).map _
  | text => exact (takeText deployment).map _
  | bytes =>
      apply of_limits fun limits => MemoryReader.takeLength deployment >>= fun length =>
        MemoryReader.checkLength .byteBuffer limits.maxStringLength length >>= fun _ =>
          .bytes <$> onCursor (ReadCursor.take length)
      · intro limits
        apply (takeLength deployment).bind
        intro length
        exact (checkLength _ _ _).bind fun _ => (take length).map _
      · intro before
        exact takeBytes_apply deployment

theorem openCounted (kind : Repetition) (length : Nat) : Composed (openCounted kind length) := by
  apply of_limits fun limits =>
    MemoryReader.checkLength .sequence limits.maxSequenceLength length >>= fun _ =>
      MemoryReader.openFrame (.counted kind length) >>= fun _ => Pure.pure length
  · intro limits
    exact (checkLength _ _ _).bind fun _ => (openFrame _).bind fun _ => pure _
  · intro before
    exact openCounted_apply kind length

theorem enterRepeated (kind : Repetition) (deployment : Option Deployment) :
    Composed (enterRepeated kind deployment) :=
  (takeLength deployment).bind fun length => openCounted kind length

theorem takeSerial : Composed takeSerial := by
  simp only [MemoryReader.takeSerial, onCursor_bind]
  apply (align (by decide)).bind
  intro _
  apply (take 4).bind
  intro run
  exact (align (by decide)).bind fun _ => pure _

theorem enter (kind : FrameKind) (deployment : Option Deployment) :
    Composed (enter kind deployment) := by
  cases kind with
  | struct => exact (align (by decide)).bind fun _ => (openFrame _).bind fun _ => pure _
  | polymorphic => exact takeSerial.bind fun serial => (openFrame _).bind fun _ => pure _
  | variant => exact (take 1).bind fun run => (openFrame _).bind fun _ => pure _
  | sequence => exact (enterRepeated _ _).map _
  | map => exact (enterRepeated _ _).map _
  | mapEntry => exact (openFrame _).bind fun _ => pure _

end Composed

end ValueBus.MemoryReader
