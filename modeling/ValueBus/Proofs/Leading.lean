import ValueBus.Proofs.Careful
import ValueBus.Proofs.MemoryLatch

/-!
# Calls and the frames they leave open

`Leads` says of an action which frames are open before and after it, and that it fails for other
reasons than brackets. It is kept by composition, and holds of every call of the memory streams that
is made where its brackets are in order. Entering a frame puts it in front of those that are open;
leaving it takes it away again, if it counts no item; everything else leaves the frames alone but
the question for another item, which counts it.
-/

namespace ValueBus

/-- The error says that brackets do not pair up. -/
def StreamError.IsUnbalanced : StreamError → Prop
  | .unbalanced _ => True
  | _ => False

namespace Action

variable {σ φ α β : Type} [Latch σ]

/-- The action has answered, nothing being latched, and left the given frames open; or it has failed
for other reasons than brackets, and latched what it failed with. -/
def Reached (framesOf : σ → List φ) (after : α → List φ) : EStateM.Result StreamError σ α → Prop
  | .ok answer final => framesOf final = after answer ∧ Latch.error final = none
  | .error fault final => Latch.error final = some fault ∧ ¬ fault.IsUnbalanced

/-- Run without a latched error and with the first frames open, the action leaves the second open,
unless it fails for other reasons than brackets. -/
def Leads (framesOf : σ → List φ) (before : List φ) (after : α → List φ) (action : Action σ α) :
    Prop :=
  ∀ ⦃state : σ⦄, Latch.error state = none → framesOf state = before →
    Reached framesOf after (action state)

namespace Leads

variable {framesOf : σ → List φ} {before : List φ} {after : α → List φ}

theorem pure {answer : α} (framed : after answer = before) :
    Leads framesOf before after (pure answer) :=
  fun _ unlatched started => ⟨started.trans framed.symm, unlatched⟩

theorem bind {last : β → List φ} {first : Action σ α} {next : α → Action σ β}
    (leads : Leads framesOf before after first)
    (nextLeads : ∀ answer, Leads framesOf (after answer) last (next answer)) :
    Leads framesOf before last (first >>= next) := by
  intro state unlatched framed
  have reached := leads unlatched framed
  cases result : first state with
  | ok answer middle =>
      rw [result] at reached
      rw [bind_of_ok result]
      exact nextLeads answer reached.2 reached.1
  | error fault failure =>
      rw [result] at reached
      rw [bind_of_error result]
      exact reached

theorem map {frames : List φ} {action : Action σ α}
    (leads : Leads framesOf before (fun _ => frames) action) (change : α → β) :
    Leads framesOf before (fun _ => frames) (change <$> action) := by
  rw [map_eq_pure_bind]
  exact leads.bind fun _ => pure rfl

theorem raise [LawfulLatch σ] {fault : StreamError} (other : ¬ fault.IsUnbalanced) :
    Leads framesOf before after (Latch.raise fault) := by
  intro state unlatched _
  have settled := (raise_settles fault : Settles (Latch.raise fault : Action σ α)) unlatched
  rw [raise_of_unlatched unlatched] at settled ⊢
  exact ⟨settled, other⟩

theorem check : Leads framesOf before (fun _ => before) Latch.check := by
  intro state unlatched framed
  rw [check_of_unlatched unlatched]
  exact ⟨framed, unlatched⟩

/-- A state is put in place. -/
theorem set {state : σ} {frames : List φ} (framed : framesOf state = frames)
    (unlatched : Latch.error state = none) :
    Leads framesOf before (fun _ => frames) (MonadStateOf.set state) :=
  fun _ _ _ => ⟨framed, unlatched⟩

theorem ite {condition : Prop} [Decidable condition] {first second : Action σ α}
    (firstLeads : Leads framesOf before after first)
    (secondLeads : Leads framesOf before after second) :
    Leads framesOf before after (if condition then first else second) := by
  split
  · exact firstLeads
  · exact secondLeads

end Leads

end Action

open ValueBus.Action (Leads)

namespace MemoryWriter

variable {frames : List FrameKind}

theorem get_leads : Leads MemoryWriter.frames frames (fun _ => frames) get :=
  fun _ unlatched framed => ⟨framed, unlatched⟩

theorem put_leads (run : List UInt8) :
    Leads MemoryWriter.frames frames (fun _ => frames) (put run) :=
  fun _ unlatched framed => ⟨framed, unlatched⟩

theorem align_leads (alignment : Nat) :
    Leads MemoryWriter.frames frames (fun _ => frames) (align alignment) :=
  fun _ unlatched framed => ⟨framed, unlatched⟩

theorem putNumber_leads (number : Number) :
    Leads MemoryWriter.frames frames (fun _ => frames) (putNumber number) :=
  (align_leads _).bind fun _ => put_leads _

theorem checkLength_leads (what : LimitKind) (limit actual : Nat) :
    Leads MemoryWriter.frames frames (fun _ => frames) (checkLength what limit actual) :=
  Leads.ite (.raise id) (.pure rfl)

theorem openFrame_leads (kind : FrameKind) :
    Leads MemoryWriter.frames frames (fun _ => kind :: frames) (openFrame kind) := by
  intro writer unlatched framed
  rw [openFrame_apply]
  apply (checkLength_leads _ _ _).bind _ unlatched framed
  exact fun _ => .set (congrArg (kind :: ·) framed) unlatched

theorem closeFrame_leads (kind : FrameKind) :
    Leads MemoryWriter.frames (kind :: frames) (fun _ => frames) (closeFrame kind) := by
  intro writer unlatched framed
  rw [closeFrame_of_innermost (congrArg List.head? framed)]
  exact ⟨congrArg List.tail framed, unlatched⟩

theorem putLength_leads (length : Nat) (deployment : Option Deployment) :
    Leads MemoryWriter.frames frames (fun _ => frames) (putLength length deployment) := by
  unfold putLength
  split
  · exact .raise id
  · apply Leads.ite
    · exact get_leads.bind fun _ => .raise id
    · exact (align_leads _).bind fun _ => put_leads _

theorem putLeaf_leads (value : Leaf) (deployment : Option Deployment) :
    Leads MemoryWriter.frames frames (fun _ => frames) (putLeaf value deployment) := by
  apply get_leads.bind
  intro writer
  cases value with
  | bool value => exact put_leads _
  | number value => exact putNumber_leads value
  | text value =>
      apply (checkLength_leads _ _ _).bind
      intro _
      exact (putLength_leads _ _).bind fun _ => put_leads _
  | bytes value =>
      apply (checkLength_leads _ _ _).bind
      intro _
      exact (putLength_leads _ _).bind fun _ => put_leads _

theorem enterRepeated_leads (kind : Repetition) (length : Nat) (deployment : Option Deployment) :
    Leads MemoryWriter.frames frames (fun _ => kind.frame :: frames)
      (enterRepeated kind length deployment) := by
  apply get_leads.bind
  intro writer
  apply (checkLength_leads _ _ _).bind
  intro _
  exact (openFrame_leads _).bind fun _ => putLength_leads length deployment

theorem enter_leads (opening : Opening) (deployment : Option Deployment) :
    Leads MemoryWriter.frames frames (fun _ => opening.kind :: frames)
      (enter opening deployment) := by
  cases opening with
  | struct => exact (openFrame_leads _).bind fun _ => align_leads _
  | polymorphic serial =>
      apply (openFrame_leads _).bind
      intro _
      exact (putNumber_leads _).bind fun _ => align_leads _
  | variant tag =>
      apply Leads.ite
      · exact get_leads.bind fun _ => .raise id
      · exact (openFrame_leads _).bind fun _ => put_leads _
  | sequence length => exact enterRepeated_leads .sequence length deployment
  | map length => exact enterRepeated_leads .map length deployment
  | mapEntry => exact openFrame_leads _

end MemoryWriter

/-- The frame of a kind that is opened for so many items. -/
def ReadFrame.opened (kind : FrameKind) (length : Nat) : ReadFrame :=
  match kind.repetition? with
  | some repetition => .counted repetition length
  | none => .plain kind

namespace MemoryReader

variable {α : Type} {frames : List ReadFrame}

theorem take_leads (count : Nat) :
    Leads MemoryReader.frames frames (fun _ => frames) (onCursor (ReadCursor.take count)) := by
  intro reader unlatched framed
  unfold onCursor ReadCursor.take
  split_ifs
  · exact ⟨framed, unlatched⟩
  · exact Leads.raise id unlatched framed

theorem align_leads (alignment : Nat) :
    Leads MemoryReader.frames frames (fun _ => frames) (onCursor (ReadCursor.align alignment)) := by
  intro reader unlatched framed
  unfold onCursor ReadCursor.align
  dsimp only
  split_ifs
  · exact ⟨framed, unlatched⟩
  · exact Leads.raise id unlatched framed

theorem checkLength_leads (what : LimitKind) (limit actual : Nat) :
    Leads MemoryReader.frames frames (fun _ => frames) (checkLength what limit actual) :=
  Leads.ite (.raise id) (.pure rfl)

theorem openFrame_leads (frame : ReadFrame) :
    Leads MemoryReader.frames frames (fun _ => frame :: frames) (openFrame frame) := by
  intro reader unlatched framed
  rw [openFrame_apply]
  apply (checkLength_leads _ _ _).bind _ unlatched framed
  exact fun _ => .set (congrArg (frame :: ·) framed) unlatched

/-- A frame may be left when none of its items is left. -/
theorem closeFrame_leads (kind : FrameKind) :
    Leads MemoryReader.frames (.opened kind 0 :: frames) (fun _ => frames) (closeFrame kind) := by
  intro reader unlatched framed
  have closed : closeFrame kind reader = .ok () { reader with frames } := by
    cases kind with
    | sequence => exact @closeFrame_of_counted reader .sequence frames framed
    | map => exact @closeFrame_of_counted reader .map frames framed
    | _ => exact closeFrame_of_plain framed
  rw [closed]
  exact ⟨rfl, unlatched⟩

theorem takeNumber_leads (kind : NumberKind) :
    Leads MemoryReader.frames frames (fun _ => frames) (takeNumber kind) := by
  simp only [takeNumber, ReadCursor.takeNumber, onCursor_bind]
  exact (align_leads _).bind fun _ => (take_leads _).bind fun _ => .pure rfl

theorem takeLength_leads (deployment : Option Deployment) :
    Leads MemoryReader.frames frames (fun _ => frames) (takeLength deployment) := by
  unfold takeLength
  split
  · exact .raise id
  · simp only [onCursor_bind]
    exact (align_leads _).bind fun _ => (take_leads _).bind fun _ => .pure rfl

theorem takePayload_leads (length : Nat) :
    Leads MemoryReader.frames frames (fun _ => frames) (takePayload length) := by
  apply (take_leads _).bind
  intro run
  apply Leads.ite
  · split
    · exact .pure rfl
    · exact .raise id
  · exact .raise id

theorem takeText_leads (deployment : Option Deployment) :
    Leads MemoryReader.frames frames (fun _ => frames) (takeText deployment) := by
  intro reader unlatched framed
  rw [takeText_apply]
  apply (takeLength_leads deployment).bind _ unlatched framed
  intro length
  cases length with
  | zero => exact .raise id
  | succ length => exact (checkLength_leads _ _ _).bind fun _ => takePayload_leads length

theorem takeLeaf_leads (kind : LeafKind) (deployment : Option Deployment) :
    Leads MemoryReader.frames frames (fun _ => frames) (takeLeaf kind deployment) := by
  cases kind with
  | bool =>
      apply (take_leads 1).bind
      exact fun _ => Leads.ite (.pure rfl) (Leads.ite (.pure rfl) (.raise id))
  | number kind => exact (takeNumber_leads kind).map _
  | text => exact (takeText_leads deployment).map _
  | bytes =>
      intro reader unlatched framed
      rw [takeBytes_apply]
      apply (takeLength_leads deployment).bind _ unlatched framed
      intro length
      exact (checkLength_leads _ _ _).bind fun _ => (take_leads length).map _

theorem openCounted_leads (kind : Repetition) (length : Nat) :
    Leads MemoryReader.frames frames (fun found => .counted kind found :: frames)
      (openCounted kind length) := by
  intro reader unlatched framed
  rw [openCounted_apply]
  apply (checkLength_leads _ _ _).bind _ unlatched framed
  exact fun _ => (openFrame_leads _).bind fun _ => .pure rfl

theorem enterRepeated_leads (kind : Repetition) (deployment : Option Deployment) :
    Leads MemoryReader.frames frames (fun length => .counted kind length :: frames)
      (enterRepeated kind deployment) :=
  (takeLength_leads deployment).bind fun length => openCounted_leads kind length

theorem takeSerial_leads :
    Leads MemoryReader.frames frames (fun _ => frames) takeSerial := by
  simp only [takeSerial, onCursor_bind]
  apply (align_leads 4).bind
  intro _
  apply (take_leads 4).bind
  exact fun _ => (align_leads 8).bind fun _ => .pure rfl

theorem enter_leads (kind : FrameKind) (deployment : Option Deployment) :
    Leads MemoryReader.frames frames (fun opening => .opened kind opening.length :: frames)
      (enter kind deployment) := by
  cases kind with
  | struct => exact (align_leads 8).bind fun _ => (openFrame_leads _).bind fun _ => .pure rfl
  | polymorphic => exact takeSerial_leads.bind fun _ => (openFrame_leads _).bind fun _ => .pure rfl
  | variant => exact (take_leads 1).bind fun _ => (openFrame_leads _).bind fun _ => .pure rfl
  | sequence => exact (enterRepeated_leads .sequence deployment).bind fun _ => .pure rfl
  | map => exact (enterRepeated_leads .map deployment).bind fun _ => .pure rfl
  | mapEntry => exact (openFrame_leads _).bind fun _ => .pure rfl

/-- The question for another item, asked while its frame is innermost. When the answer is no, no
item is left. -/
theorem hasMore_leads (kind : Repetition) (remaining : Nat) :
    Leads MemoryReader.frames (.counted kind remaining :: frames)
      (fun more => .counted kind (if more then remaining - 1 else 0) :: frames)
      (modifyGet (hasMore kind)) := by
  intro reader unlatched framed
  have asked : (modifyGet (hasMore kind) : Action MemoryReader Bool) reader =
    .ok (hasMore kind reader).1 (hasMore kind reader).2 := rfl
  cases remaining with
  | zero =>
      rw [asked, hasMore_of_counted_zero unlatched framed]
      exact ⟨framed, unlatched⟩
  | succ remaining =>
      rw [asked, hasMore_of_counted_succ unlatched framed]
      exact ⟨rfl, unlatched⟩

end MemoryReader

end ValueBus
