import ValueBus.Proofs.Leading
import ValueBus.Proofs.RoundTrip

/-!
# Values leave the frames as they found them

A value is written and read between the brackets of whatever encloses it. It closes what it opens
and nothing else, asks for items only while its own sequence or map is innermost, and leaves that
only when no item is left. So on a memory stream it never meets brackets that do not pair up, and
when it is done the open frames are those that were open before, with the same items to come.

The counters matter in one place only: a loop that ends has asked until no item was left, whatever
the number of items that it was told.
-/

namespace ValueBus

open ValueBus.Action (Leads)

namespace WriteStep

/-- The steps keep the frames of a memory writer, whatever they are. -/
def KeepFrames (steps : List WriteStep) : Prop :=
  ∀ frames, Leads MemoryWriter.frames frames (fun _ => frames) (runAll steps)

theorem KeepFrames.append {first second : List WriteStep} (firstKeeps : KeepFrames first)
    (secondKeeps : KeepFrames second) : KeepFrames (first ++ second) := by
  intro frames
  rw [runAll_append]
  exact (firstKeeps frames).bind fun _ => secondKeeps frames

theorem KeepFrames.bracketed {opening : Opening} {deployment : Option Deployment}
    {body : List WriteStep} (keeps : KeepFrames body) :
    KeepFrames (Value.entering opening deployment :: body ++ [Value.leaving opening.kind]) := by
  intro frames
  have entered : Leads MemoryWriter.frames frames (fun _ => opening.kind :: frames)
      (OutputStream.perform (.enter opening deployment)) :=
    Leads.check.bind fun _ => MemoryWriter.enter_leads opening deployment
  have left : Leads MemoryWriter.frames (opening.kind :: frames) (fun _ => frames)
      (OutputStream.perform (.leave opening.kind)) :=
    Leads.check.bind fun _ => MemoryWriter.closeFrame_leads opening.kind
  rw [List.cons_append, runAll, runAll_append]
  refine entered.bind fun _ => (keeps _).bind fun _ => ?_
  exact left.bind fun _ => .pure rfl

theorem composable_keepFrames : Value.Composable KeepFrames where
  nil _ := .pure rfl
  append := KeepFrames.append
  bracketed := KeepFrames.bracketed

end WriteStep

theorem Value.write_leads (value : Value) (deployment : Option Deployment)
    (frames : List FrameKind) :
    Leads MemoryWriter.frames frames (fun _ => frames) (value.write deployment) := by
  refine WriteStep.composable_keepFrames.steps ?_ ?_ value deployment frames
  · intro leaf deployment frames
    have taken : Leads MemoryWriter.frames frames (fun _ => frames)
        (OutputStream.perform (.leaf leaf deployment)) :=
      Leads.check.bind fun _ => MemoryWriter.putLeaf_leads leaf deployment
    exact taken.bind fun _ => .pure rfl
  · exact fun _ => Leads.bind (.raise id) fun _ => .pure rfl

namespace ReadProgram

variable {α β : Type} {before frames : List ReadFrame} {after : α → List ReadFrame}

/-- Run on a memory reader with the first frames open, the program leaves the second open, unless it
fails for other reasons than brackets. -/
def LeadsTo (before : List ReadFrame) (after : α → List ReadFrame) (program : ReadProgram α) :
    Prop :=
  Leads MemoryReader.frames before after program.run

/-- The program leaves the same frames open, whatever they are. -/
def KeepsFrames (program : ReadProgram α) : Prop :=
  ∀ frames, program.LeadsTo frames fun _ => frames

namespace LeadsTo

theorem done {answer : α} (framed : after answer = before) : LeadsTo before after (done answer) :=
  Leads.pure framed

theorem raise {fault : StreamError} (other : ¬ fault.IsUnbalanced) :
    LeadsTo before after (raise fault) :=
  Leads.raise other

theorem bind {last : β → List ReadFrame} {program : ReadProgram α} {next : α → ReadProgram β}
    (leads : program.LeadsTo before after)
    (nextLeads : ∀ answer, (next answer).LeadsTo (after answer) last) :
    (program >>= next).LeadsTo before last := by
  unfold LeadsTo
  rw [run_bind]
  exact Leads.bind leads nextLeads

theorem map {program : ReadProgram α} (leads : program.LeadsTo before fun _ => frames)
    (change : α → β) : (change <$> program).LeadsTo before fun _ => frames :=
  leads.bind fun _ => done rfl

theorem ite {condition : Prop} [Decidable condition] {first second : ReadProgram α}
    (firstLeads : first.LeadsTo before after) (secondLeads : second.LeadsTo before after) :
    (if condition then first else second).LeadsTo before after := by
  split
  · exact firstLeads
  · exact secondLeads

theorem readLeaf (kind : LeafKind) (deployment : Option Deployment) :
    (readLeaf kind deployment).LeadsTo frames fun _ => frames := by
  have asked : Leads MemoryReader.frames frames (fun _ => frames)
      (InputStream.leaf kind deployment) :=
    Leads.check.bind fun _ => MemoryReader.takeLeaf_leads kind deployment
  exact Leads.bind asked fun _ => .pure rfl

theorem enterFrame (kind : FrameKind) (deployment : Option Deployment) :
    (enterFrame kind deployment).LeadsTo frames
      fun opening => .opened kind opening.length :: frames := by
  have asked : Leads MemoryReader.frames frames
      (fun opening => .opened kind opening.length :: frames) (InputStream.enter kind deployment) :=
    Leads.check.bind fun _ => MemoryReader.enter_leads kind deployment
  exact Leads.bind asked fun _ => .pure rfl

theorem leaveFrame (kind : FrameKind) :
    (leaveFrame kind).LeadsTo (.opened kind 0 :: frames) fun _ => frames := by
  have asked : Leads MemoryReader.frames (.opened kind 0 :: frames) (fun _ => frames)
      (InputStream.leave kind) :=
    Leads.check.bind fun _ => MemoryReader.closeFrame_leads kind
  exact Leads.bind asked fun _ => .pure rfl

theorem checkLatch : checkLatch.LeadsTo frames fun _ => frames :=
  Leads.bind .check fun _ => .pure rfl

/-- A loop that ends has read all items: as many as are left, not as many as it was told. -/
theorem repeatWhile {kind : Repetition} {item : α → ReadProgram α}
    (itemKeeps : ∀ state, (item state).KeepsFrames) (count remaining : Nat) (state : α) :
    (repeatWhile kind item count state).LeadsTo (.counted kind remaining :: frames)
      fun _ => .counted kind 0 :: frames := by
  have asked (remaining : Nat) : (more kind).LeadsTo (.counted kind remaining :: frames)
      fun more => .counted kind (if more then remaining - 1 else 0) :: frames :=
    Leads.bind (MemoryReader.hasMore_leads kind remaining) fun _ => .pure rfl
  induction count generalizing remaining state with
  | zero =>
      apply (asked remaining).bind
      rintro (_ | _)
      · exact done rfl
      · exact raise id
  | succ count ih =>
      apply (asked remaining).bind
      rintro (_ | _)
      · exact done rfl
      · exact (itemKeeps state _).bind fun read => ih (remaining - 1) read

end LeadsTo

end ReadProgram

namespace Schema

open ReadProgram

variable {declared : Declared → Option Deployment → ReadProgram Value}

theorem readMembersWith_keepsFrames {types : List DataType}
    (typesKeep : ∀ type ∈ types, ∀ deployment, (type.readWith declared deployment).KeepsFrames)
    (deployment : Option Deployment) (position : Nat) :
    (DataType.readMembersWith declared types deployment position).KeepsFrames := by
  intro frames
  induction types generalizing position with
  | nil => exact .done rfl
  | cons type rest ih =>
      rw [List.forall_mem_cons] at typesKeep
      simp only [DataType.readMembersWith]
      apply (typesKeep.1 _ frames).bind
      intro member
      exact (ih typesKeep.2 _).bind fun members => .done rfl

theorem readEntry_keepsFrames {mapOrder : MapOrder} {readKey readValue : ReadProgram Value}
    (keyKeeps : readKey.KeepsFrames) (valueKeeps : readValue.KeepsFrames)
    (read : List (Value × Value)) : (readEntry mapOrder readKey readValue read).KeepsFrames := by
  intro frames
  apply (LeadsTo.enterFrame .mapEntry none).bind
  intro opening
  apply (keyKeeps _).bind
  intro key
  apply (valueKeeps _).bind
  intro value
  apply (LeadsTo.leaveFrame .mapEntry).bind
  exact fun _ => LeadsTo.ite (.raise id) (.done rfl)

theorem readWith_keepsFrames
    (declaredKeeps : ∀ name deployment, (declared name deployment).KeepsFrames) (type : DataType)
    (deployment : Option Deployment) : (type.readWith declared deployment).KeepsFrames := by
  induction type generalizing deployment with
  | leaf kind => exact fun frames => (LeadsTo.readLeaf kind deployment).map _
  | enumeration choices =>
      intro frames
      simp only [DataType.readWith]
      exact (LeadsTo.readLeaf _ _).bind fun leaf => .ite (.done rfl) (.raise id)
  | ranged range =>
      intro frames
      simp only [DataType.readWith]
      exact (LeadsTo.readLeaf _ _).bind fun leaf => .ite (.done rfl) (.raise id)
  | boxed content ih => exact ih deployment
  | sequence item ih =>
      intro frames
      simp only [DataType.readWith]
      apply (LeadsTo.enterFrame .sequence deployment).bind
      intro opening
      apply (LeadsTo.repeatWhile (fun read frames => (ih _ frames).map _) _ opening.length _).bind
      intro items
      apply LeadsTo.checkLatch.bind
      exact fun _ => (LeadsTo.leaveFrame .sequence).bind fun _ => .done rfl
  | map mapOrder key value keyIh valueIh =>
      intro frames
      simp only [DataType.readWith]
      apply (LeadsTo.enterFrame .map deployment).bind
      intro opening
      have entriesKeep := @readEntry_keepsFrames mapOrder _ _
        (keyIh (Deployment.childOf deployment 0)) (valueIh (Deployment.childOf deployment 1))
      apply (LeadsTo.repeatWhile entriesKeep _ opening.length _).bind
      intro entries
      apply LeadsTo.checkLatch.bind
      exact fun _ => (LeadsTo.leaveFrame .map).bind fun _ => .done rfl
  | tuple items ih =>
      intro frames
      simp only [DataType.readWith]
      apply (LeadsTo.enterFrame .struct deployment).bind
      intro opening
      apply (readMembersWith_keepsFrames ih deployment 0 _).bind
      exact fun members => (LeadsTo.leaveFrame .struct).bind fun _ => .done rfl
  | declared name => exact declaredKeeps name deployment

theorem readAlternative_keepsFrames
    (typesKeep : ∀ (type : DataType) deployment, (type.readWith declared deployment).KeepsFrames)
    (alternatives : List Member) (tag : Nat) (deployment : Option Deployment) :
    (readAlternative declared alternatives tag deployment).KeepsFrames := by
  intro frames
  unfold readAlternative
  split
  · exact (typesKeep _ _ frames).map _
  · exact .raise id

theorem readDeclared_keepsFrames (schema : Schema) (allowance : Nat) (name : Declared)
    (deployment : Option Deployment) :
    (schema.readDeclared allowance name deployment).KeepsFrames := by
  induction allowance generalizing name deployment with
  | zero => exact fun frames => .raise id
  | succ allowance ih =>
      intro frames
      have typesKeep := readWith_keepsFrames ih
      cases name with
      | record name =>
          simp only [readDeclared]
          apply (LeadsTo.enterFrame .struct deployment).bind
          intro opening
          apply (readMembersWith_keepsFrames (fun type _ => typesKeep type) deployment 0 _).bind
          exact fun members => (LeadsTo.leaveFrame .struct).bind fun _ => .done rfl
      | variant set =>
          simp only [readDeclared]
          apply (LeadsTo.enterFrame .variant deployment).bind
          intro opening
          apply (readAlternative_keepsFrames typesKeep _ opening.tag deployment _).bind
          exact fun value => (LeadsTo.leaveFrame .variant).bind fun _ => .done rfl

theorem read_leads (schema : Schema) (type : DataType) (deployment : Option Deployment)
    (frames : List ReadFrame) :
    Leads MemoryReader.frames frames (fun _ => frames) (schema.read type deployment) := by
  intro reader unlatched framed
  exact readWith_keepsFrames (schema.readDeclared_keepsFrames _) type deployment frames unlatched
    framed

end Schema

theorem Error.ofStream_ne_unbalanced {fault : StreamError} (other : ¬ fault.IsUnbalanced)
    (found : BracketFault) : Error.ofStream fault ≠ .serialization (.unbalanced found) := by
  cases fault with
  | unbalanced bracket => exact absurd trivial other
  | _ => simp [ofStream]

theorem encode_ne_unbalanced (value : Value) (deployment : Option Deployment) (limits : Limits)
    (fault : BracketFault) :
    encode value deployment limits ≠ .error (.serialization (.unbalanced fault)) := by
  have reached := @Value.write_leads value deployment [] (.withLimits limits) rfl rfl
  cases result : value.write deployment (MemoryWriter.withLimits limits) with
  | ok answer writer =>
      rw [result] at reached
      rcases reached with ⟨closed, unlatched⟩
      have finished : writer.finish = .ok writer.bytes := by
        simp only [MemoryWriter.finish, closed, show writer.error = none from unlatched]
      rw [Value.write] at result
      simp [encode, WriteStep.encode, result, finished, Except.mapError]
  | error found writer =>
      rw [result] at reached
      rw [Value.write] at result
      simpa [encode, WriteStep.encode, result, Except.mapError] using
        Error.ofStream_ne_unbalanced reached.2 fault

theorem decode_ne_unbalanced (schema : Schema) (type : DataType) (bytes : List UInt8)
    (deployment : Option Deployment) (limits : Limits) (fault : BracketFault) :
    decode schema type bytes deployment limits ≠ .error (.serialization (.unbalanced fault)) := by
  have reached := @Schema.read_leads schema type deployment [] (.ofBytes bytes limits) rfl rfl
  unfold decode
  cases result : schema.read type deployment (MemoryReader.ofBytes bytes limits) with
  | ok answer reader =>
      rw [result] at reached
      rcases reached with ⟨closed, unlatched⟩
      have finished : reader.finish = if reader.cursor.atEnd then .ok ()
          else .error (.invalidData (.trailingBytes reader.remaining)) := by
        simp only [MemoryReader.finish, closed, show reader.error = none from unlatched]
      dsimp only
      rw [finished]
      split_ifs
      · rintro ⟨⟩
      · rintro ⟨⟩
  | error found reader =>
      rw [result] at reached
      simpa using Error.ofStream_ne_unbalanced reached.2 fault

/-- Writing or reading a value leaves the frames of a memory stream as they were, the counters
included, or fails for other reasons than brackets, and latches nothing else. Hence encoding and
decoding fail for other reasons as well. -/
theorem values_keep_frames :
    (∀ (value : Value) (deployment : Option Deployment) (frames : List FrameKind),
      Leads MemoryWriter.frames frames (fun _ => frames) (value.write deployment)) ∧
    (∀ (schema : Schema) (type : DataType) (deployment : Option Deployment)
        (frames : List ReadFrame),
      Leads MemoryReader.frames frames (fun _ => frames) (schema.read type deployment)) ∧
    (∀ (value : Value) (deployment : Option Deployment) (limits : Limits) (fault : BracketFault),
      encode value deployment limits ≠ .error (.serialization (.unbalanced fault))) ∧
    ∀ (schema : Schema) (type : DataType) (bytes : List UInt8) (deployment : Option Deployment)
        (limits : Limits) (fault : BracketFault),
      decode schema type bytes deployment limits ≠
        .error (.serialization (.unbalanced fault)) :=
  ⟨Value.write_leads, Schema.read_leads, encode_ne_unbalanced, decode_ne_unbalanced⟩

/-- A reader inside a sequence with seven items to come; the next of them is a sequence of one. -/
def MemoryReader.amidSequence : MemoryReader :=
  { cursor := { bytes := [1, 0, 0, 0, 1] }, frames := [.counted .sequence 7, .plain .struct] }

/-- The outer sequence still has its seven items to come after the inner one is read. -/
theorem values_keep_frames_amid :
    ∃ after, Schema.read {} (.sequence (.leaf .bool)) none MemoryReader.amidSequence =
        .ok (.sequence [.leaf (.bool true)]) after ∧
      after.frames = [.counted .sequence 7, .plain .struct] ∧ after.error = none := by
  have read : Schema.read {} (.sequence (.leaf .bool)) none MemoryReader.amidSequence =
    .ok (.sequence [.leaf (.bool true)])
      { MemoryReader.amidSequence with cursor := ⟨[1, 0, 0, 0, 1], 5⟩ } := rfl
  have unlatched : Latch.error MemoryReader.amidSequence = none := rfl
  have reached := values_keep_frames.2.1 {} (.sequence (.leaf .bool)) none
    [.counted .sequence 7, .plain .struct] unlatched rfl
  rw [read] at reached
  exact ⟨_, read, reached⟩

end ValueBus
