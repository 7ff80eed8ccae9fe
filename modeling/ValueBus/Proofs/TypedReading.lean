import ValueBus.Proofs.Entries
import ValueBus.Proofs.Following
import ValueBus.Schema.Typing

/-!
# Reading typed values

The program of a type reads back the steps of every value of the type, at any nesting and with any
deployment. The proof is by induction on the typing of the value. What it carries through composite
values is the allowance of declared types: every declared type opens a frame, so that a reader whose
frames are bounded runs into the bound before it runs out of the allowance.
-/

namespace ValueBus

theorem Enumeration.kind_of_declares (choices : Enumeration) {leaf : Leaf}
    (declared : choices.declares leaf = true) : leaf.kind = .number choices.base := by
  rcases List.any_eq_true.1 declared with ⟨enumerator, enumeratorMem, same⟩
  rw [← of_decide_eq_true same, ← choices.kind_eq enumerator enumeratorMem]
  rfl

theorem Range.kind_of_admits (range : Range) {leaf : Leaf} (admitted : range.admits leaf = true) :
    leaf.kind = .number .int32 := by
  unfold Range.admits at admitted
  split at admitted
  · rfl
  · cases admitted

namespace ReadsAs

variable {limits : Limits} {frames : List ReadFrame}

theorem items {items : List Value} {deployment : Option Deployment} {program : ReadProgram Value}
    (parts : ∀ item ∈ items, ∀ count, ReadsAs limits (.counted .sequence count :: frames)
      (item.steps deployment) program item (.counted .sequence count :: frames))
    (read : List Value) :
    ReadsAs limits (.counted .sequence items.length :: frames) (Value.itemSteps items deployment)
      (ReadProgram.repeatWhile .sequence (fun read => (· :: read) <$> program) items.length read)
      (items.reverse ++ read) (.counted .sequence 0 :: frames) := by
  induction items generalizing read with
  | nil => exact repeatWhile_nil
  | cons item rest ih =>
      rcases List.forall_mem_cons.1 parts with ⟨itemReads, restReads⟩
      have first := (itemReads rest.length).map (· :: read)
      simp only [List.reverse_cons, List.append_assoc]
      exact repeatWhile_cons first (ih restReads (item :: read))

/-- The program of an entry that is read in place of the one it amounts to. -/
theorem congr_run {α : Type} {before after : List ReadFrame} {steps : List WriteStep}
    {program other : ReadProgram α} {value : α}
    (same : (program.run : Action MemoryReader α) = other.run)
    (reads : ReadsAs limits before steps other value after) :
    ReadsAs limits before steps program value after where
  depth := reads.depth
  answers described passed within := by
    rw [same]
    exact reads.answers described passed within
  refuses described passed exceeds := by
    rw [same]
    exact reads.refuses described passed exceeds

/-- A key and a value are read between the brackets of their entry. -/
theorem readPair {entry : Value × Value} {keyDeployment valueDeployment : Option Deployment}
    {readKey readValue : ReadProgram Value}
    (key : limits.maxDepth ≥ frames.length + 1 → ReadsAs limits (.plain .mapEntry :: frames)
      (entry.1.steps keyDeployment) readKey entry.1 (.plain .mapEntry :: frames))
    (value : limits.maxDepth ≥ frames.length + 1 → ReadsAs limits (.plain .mapEntry :: frames)
      (entry.2.steps valueDeployment) readValue entry.2 (.plain .mapEntry :: frames)) :
    ReadsAs limits frames (Value.entrySteps [entry] keyDeployment valueDeployment)
      (ReadProgram.readPair readKey readValue) entry frames := by
  rw [Value.entrySteps_cons, Value.entrySteps, List.append_nil]
  apply bracket (by rfl) (by rfl)
  intro inside
  exact (key inside).andThen fun _ => (value inside).map (Prod.mk entry.1)

/-- The entries of a map are read one after the other: no key occurs twice, and every entry goes
behind those before it. -/
theorem entries {mapOrder : MapOrder} {entries : List (Value × Value)}
    {keyDeployment valueDeployment : Option Deployment} {readKey readValue : ReadProgram Value}
    (keys : ∀ entry ∈ entries, ∀ count, limits.maxDepth ≥ frames.length + 2 →
      ReadsAs limits (.plain .mapEntry :: .counted .map count :: frames)
        (entry.1.steps keyDeployment) readKey entry.1
        (.plain .mapEntry :: .counted .map count :: frames))
    (values : ∀ entry ∈ entries, ∀ count, limits.maxDepth ≥ frames.length + 2 →
      ReadsAs limits (.plain .mapEntry :: .counted .map count :: frames)
        (entry.2.steps valueDeployment) readValue entry.2
        (.plain .mapEntry :: .counted .map count :: frames))
    {read : List (Value × Value)} (admits : mapOrder.Admits (read ++ entries)) :
    ReadsAs limits (.counted .map entries.length :: frames)
      (Value.entrySteps entries keyDeployment valueDeployment)
      (ReadProgram.repeatWhile .map (ReadProgram.readEntry mapOrder readKey readValue)
        entries.length read)
      (read ++ entries) (.counted .map 0 :: frames) := by
  induction entries generalizing read with
  | nil =>
      simp only [List.append_nil]
      exact repeatWhile_nil
  | cons entry rest ih =>
      have absent := admits.hasKey_eq_false
      have added := admits.addEntry_eq_append
      rcases List.forall_mem_cons.1 keys with ⟨keyReads, restKeys⟩
      rcases List.forall_mem_cons.1 values with ⟨valueReads, restValues⟩
      have later := ih restKeys restValues
        (by simpa using admits : mapOrder.Admits ((read ++ [entry]) ++ rest))
      have pair := @readPair limits (.counted .map rest.length :: frames) entry keyDeployment
        valueDeployment readKey readValue (keyReads rest.length) (valueReads rest.length)
      have first : ReadsAs limits (.counted .map rest.length :: frames)
          (Value.entrySteps [entry] keyDeployment valueDeployment ++ [])
          (ReadProgram.readEntry mapOrder readKey readValue read) (read ++ [entry])
          (.counted .map rest.length :: frames) := by
        apply congr_run (ReadProgram.run_readEntry read)
        apply pair.andThen
        intro _
        rw [ReadProgram.addPair, absent, added]
        exact done _
      rw [List.append_nil] at first
      have split : Value.entrySteps (entry :: rest) keyDeployment valueDeployment =
          Value.entrySteps [entry] keyDeployment valueDeployment ++
            Value.entrySteps rest keyDeployment valueDeployment :=
        Value.entrySteps_append [entry] rest keyDeployment valueDeployment
      rw [split, List.append_cons]
      exact repeatWhile_cons first later

/-- Members are read one after the other, each with the deployment of its position. -/
theorem members {types : List DataType} {members : List Value}
    {declared : Declared → Option Deployment → ReadProgram Value}
    (lengthEq : types.length = members.length)
    (parts : ∀ pair ∈ types.zip members, ∀ deployment,
      ReadsAs limits frames (pair.2.steps deployment) (pair.1.readWith declared deployment) pair.2
        frames)
    (deployment : Option Deployment) (position : Nat) :
    ReadsAs limits frames (Value.memberSteps members deployment position)
      (DataType.readMembersWith declared types deployment position) members frames := by
  induction types generalizing members position with
  | nil =>
      cases members with
      | nil => exact done []
      | cons member rest => cases lengthEq
  | cons type types ih =>
      cases members with
      | nil => cases lengthEq
      | cons member rest =>
          rcases List.forall_mem_cons.1 parts with ⟨memberReads, restReads⟩
          have later := ih (Nat.succ.inj lengthEq) restReads (position + 1)
          simp only [DataType.readMembersWith, Value.memberSteps]
          exact (memberReads (Deployment.childOf deployment position)).andThen fun _ =>
            later.map (member :: ·)

end ReadsAs

namespace Schema

open WriteStep

variable {schema : Schema} {limits : Limits}

/-- The program of a type reads the steps of its values back. -/
theorem HasType.readsAs {type : DataType} {value : Value} (typed : schema.HasType type value) :
    ∀ {allowance : Nat} {frames : List ReadFrame} (deployment : Option Deployment),
      frames.length ≤ limits.maxDepth → limits.maxDepth < allowance + frames.length →
        ReadsAs limits frames (value.steps deployment)
          (type.readWith (schema.readDeclared allowance) deployment) value frames := by
  induction typed with
  | leaf =>
      intro allowance frames deployment _ _
      simp only [DataType.readWith]
      exact (ReadsAs.leaf _ deployment).map Value.leaf
  | @enumeration choices leaf declared =>
      intro allowance frames deployment _ _
      have read := @ReadsAs.leaf limits frames leaf deployment
      rw [choices.kind_of_declares declared] at read
      simp only [DataType.readWith]
      refine read.andThen fun _ => ?_
      rw [if_pos declared]
      exact .done _
  | @ranged range leaf admitted =>
      intro allowance frames deployment _ _
      have read := @ReadsAs.leaf limits frames leaf deployment
      rw [range.kind_of_admits admitted] at read
      simp only [DataType.readWith]
      refine read.andThen fun _ => ?_
      rw [if_pos admitted]
      exact .done _
  | boxed _ ih =>
      intro allowance frames deployment shallow allowed
      simp only [DataType.readWith]
      exact ih deployment shallow allowed
  | sequence _ ih =>
      intro allowance frames deployment shallow allowed
      simp only [DataType.readWith, Value.steps]
      refine ReadsAs.repeated .sequence (by rfl) (by rfl) (by simp) fun inside =>
        ReadsAs.items ?_ []
      intro item itemMem count
      exact ih item itemMem _ inside (by simp only [List.length_cons]; omega)
  | map _ _ admits keys values =>
      intro allowance frames deployment shallow allowed
      simp only [DataType.readWith, Value.steps]
      refine ReadsAs.repeated .map (by rfl) (by rfl) (by rfl) fun inside =>
        ReadsAs.entries ?_ ?_ admits
      · intro entry entryMem count inner
        exact keys entry entryMem _ inner (by simp only [List.length_cons]; omega)
      · intro entry entryMem count inner
        exact values entry entryMem _ inner (by simp only [List.length_cons]; omega)
  | tuple lengthEq _ ih =>
      intro allowance frames deployment shallow allowed
      simp only [DataType.readWith, Value.steps]
      apply ReadsAs.bracket (by rfl) (by rfl)
      intro inside
      refine ReadsAs.members lengthEq (fun pair pairMem deployment => ?_) deployment 0
      exact ih pair pairMem deployment inside (by simp only [List.length_cons]; omega)
  | record lengthEq _ ih =>
      intro allowance frames deployment shallow allowed
      cases allowance with
      | zero => omega
      | succ allowance =>
          simp only [DataType.readWith, readDeclared, Value.steps]
          apply ReadsAs.bracket (by rfl) (by rfl)
          intro inside
          refine ReadsAs.members ?_ (fun pair pairMem deployment => ?_) deployment 0
          · simp only [List.length_map, lengthEq]
          · simp only [List.zip_map_left] at pairMem
            rcases List.mem_map.1 pairMem with ⟨field, fieldMem, rfl⟩
            exact ih field fieldMem deployment inside (by simp only [List.length_cons]; omega)
  | vacant =>
      intro allowance frames deployment _ _
      refine ⟨fun _ => rfl, ?_, ?_⟩
      · intro cursor chunks final described
        cases described
      · intro cursor chunks final fault described
        cases described
  | holding found _ ih =>
      intro allowance frames deployment shallow allowed
      cases allowance with
      | zero => omega
      | succ allowance =>
          simp only [DataType.readWith, readDeclared, Value.steps]
          apply ReadsAs.bracket (by rfl) (by rfl)
          intro inside
          simp only [Opening.tag, readAlternative, found]
          refine ReadsAs.map ?_ (Value.holding _)
          exact ih _ inside (by simp only [List.length_cons]; omega)

theorem depth_lt_allowance (schema : Schema) (reader : MemoryReader) :
    reader.limits.maxDepth < schema.allowance reader := by
  have nesting : schema.allowance reader =
      (reader.limits.maxDepth + 1) * (schema.records.length + 2) := rfl
  rw [nesting]
  exact Nat.lt_of_lt_of_le (Nat.lt_succ_self _) (Nat.le_mul_of_pos_right _ (Nat.succ_pos _))

/-- A value of a type is read back where its steps stand and break no limit. -/
theorem HasType.read_of_none {type : DataType} {value : Value} (typed : schema.HasType type value)
    (deployment : Option Deployment) {cursor final : ReadCursor} {chunks : List Chunk}
    (described : chunksAll? (value.steps deployment) = some chunks)
    (passed : cursor.passAll? chunks = some final)
    (within : limitFaultAll? limits 0 (value.steps deployment) = none) :
    schema.read type deployment (MemoryReader.unlatched limits [] cursor) =
      .ok value (MemoryReader.unlatched limits [] final) := by
  have allowed := schema.depth_lt_allowance (.unlatched limits [] cursor)
  exact (typed.readsAs deployment (Nat.zero_le _) allowed).answers described passed within

theorem HasType.read_of_some {type : DataType} {value : Value} (typed : schema.HasType type value)
    (deployment : Option Deployment) {cursor final : ReadCursor} {chunks : List Chunk}
    {fault : StreamError} (described : chunksAll? (value.steps deployment) = some chunks)
    (passed : cursor.passAll? chunks = some final)
    (exceeds : limitFaultAll? limits 0 (value.steps deployment) = some fault) :
    ∃ state, schema.read type deployment (MemoryReader.unlatched limits [] cursor) =
      .error fault state := by
  have allowed := schema.depth_lt_allowance (.unlatched limits [] cursor)
  exact (typed.readsAs deployment (Nat.zero_le _) allowed).refuses described passed exceeds

end Schema

end ValueBus
