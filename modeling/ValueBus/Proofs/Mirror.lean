import ValueBus.Proofs.Nesting
import ValueBus.Proofs.RoundTrip

/-!
# Reading mirrors writing

What a value writes does not depend on the stream, and neither does what its type reads. A value
that is written to one stream and read from another, whatever the streams make of it, asks of the
reading side what it told the writing side: the same leaves and brackets in the same order, each
with the same deployment, and besides only whether another item follows.

The recording streams show this. The calls that a writing leaves are transcribed to questions and
tokens without a look at the value or its type, and the transcript answers the reading.
-/

namespace ValueBus

open Deployment (childOf)

/-- Every item is announced by a token. -/
theorem length_le_tokensOf {α : Type} (items : List α) (kind : Repetition)
    (dialogue : α → List Exchange) (rest : List Exchange) :
    items.length ≤ (tokensOf (items.flatMap (fun item =>
      .more kind true :: dialogue item) ++ rest)).length := by
  induction items with
  | nil => exact Nat.zero_le _
  | cons item items ih =>
      simp only [tokensOf_append, List.length_append] at ih
      simp only [List.flatMap_cons, List.cons_append, tokensOf_more, tokensOf_append,
        List.length_append, List.length_cons]
      omega

namespace Answers

open ReadProgram

variable {declared : Declared → Option Deployment → ReadProgram Value}
  {deployment : Option Deployment}

/-- A leaf that is looked at once it is read. -/
theorem of_leaf {leaf : Leaf} {kind : LeafKind} {passes : Leaf → Bool} {fault : Leaf → StreamError}
    (kindEq : leaf.kind = kind) (passed : passes leaf = true) :
    Answers ((Value.leaf leaf).dialogue deployment)
      (readLeaf kind deployment >>= fun leaf =>
        if passes leaf then pure (Value.leaf leaf) else raise (fault leaf)) (.leaf leaf) := by
  subst kindEq
  rw [Value.dialogue_leaf]
  apply (Answers.leaf leaf deployment).andThen_nil
  rw [if_pos passed]
  exact done _

theorem of_sequence {items : List Value} {type : DataType} (filled : ∀ item ∈ items, item.Filled)
    (parts : ∀ item ∈ items, Answers (item.dialogue (childOf deployment 0))
      (type.readWith declared (childOf deployment 0)) item) :
    Answers ((Value.sequence items).dialogue deployment)
      ((DataType.sequence type).readWith declared deployment) (.sequence items) := by
  rw [Value.dialogue_sequence deployment filled]
  simp only [DataType.readWith]
  apply enter_repeated .sequence
  intro opening enough
  have few := Nat.le_trans (length_le_tokensOf items .sequence _ _) enough
  rw [List.append_cons]
  apply (Answers.items parts few []).andThen
  apply checkLatch.andThen
  apply (leave_required rfl).andThen_nil
  rw [List.append_nil, List.reverse_reverse]
  exact done _

theorem of_map {entries : List (Value × Value)} {mapOrder : MapOrder} {key value : DataType}
    (keysFilled : ∀ entry ∈ entries, entry.1.Filled)
    (valuesFilled : ∀ entry ∈ entries, entry.2.Filled) (admits : mapOrder.Admits entries)
    (keys : ∀ entry ∈ entries, Answers (entry.1.dialogue (childOf deployment 0))
      (key.readWith declared (childOf deployment 0)) entry.1)
    (values : ∀ entry ∈ entries, Answers (entry.2.dialogue (childOf deployment 1))
      (value.readWith declared (childOf deployment 1)) entry.2) :
    Answers ((Value.map entries).dialogue deployment)
      ((DataType.map mapOrder key value).readWith declared deployment) (.map entries) := by
  rw [Value.dialogue_map deployment keysFilled valuesFilled]
  simp only [DataType.readWith]
  apply enter_repeated .map
  intro opening enough
  have few := Nat.le_trans (length_le_tokensOf entries .map _ _) enough
  rw [List.append_cons]
  apply (Answers.entries keys values few admits).andThen
  apply checkLatch.andThen
  apply (leave_required rfl).andThen_nil
  exact done _

theorem of_record {types : List DataType} {members : List Value}
    (filled : ∀ member ∈ members, member.Filled) (lengthEq : types.length = members.length)
    (parts : ∀ pair ∈ types.zip members, ∀ child,
      (pair.2.dialogue child).Sublist ((Value.record members).dialogue deployment) →
        Answers (pair.2.dialogue child) (pair.1.readWith declared child) pair.2) :
    Answers ((Value.record members).dialogue deployment)
      ((DataType.tuple types).readWith declared deployment) (.record members) := by
  rw [Value.dialogue_record deployment filled] at parts ⊢
  simp only [DataType.readWith]
  have within := (List.sublist_append_left (Value.memberDialogue members deployment 0)
    [(WriteCall.leave .struct).exchange]).cons (WriteCall.enter .struct deployment).exchange
  apply (enter_struct deployment).andThen
  apply (Answers.members lengthEq parts deployment 0 within).andThen
  apply (leave_required rfl).andThen_nil
  exact done _

theorem of_holding {alternatives : List Member} {alternative : Member} {index : Nat} {value : Value}
    (filled : value.Filled) (found : alternatives[index]? = some alternative)
    (content : Answers (value.dialogue (childOf deployment index))
      (alternative.type.readWith declared (childOf deployment index)) value) :
    Answers ((Value.holding index value).dialogue deployment)
      (enterFrame .variant deployment >>= fun opening =>
        Schema.readAlternative declared alternatives opening.tag deployment >>= fun value =>
          leaveFrame .variant >>= fun _ => pure value) (.holding index value) := by
  have read : Answers (value.dialogue (childOf deployment index))
      (Schema.readAlternative declared alternatives index deployment) (.holding index value) := by
    simp only [Schema.readAlternative, found]
    exact content.map (Value.holding index)
  rw [Value.dialogue_holding deployment filled]
  apply (enter_variant index deployment).andThen
  apply read.andThen_nil
  apply (leave_optional rfl).andThen_nil
  exact done _

end Answers

namespace Value

variable (deployment : Option Deployment)

theorem sublist_sequence {items : List Value} {item : Value}
    (filled : ∀ item ∈ items, item.Filled) (itemMem : item ∈ items) :
    (.more .sequence true :: item.dialogue (childOf deployment 0)).Sublist
      ((Value.sequence items).dialogue deployment) := by
  have within : (.more .sequence true :: item.dialogue (childOf deployment 0)).Sublist
      (itemDialogue items (childOf deployment 0)) :=
    List.sublist_flatten_of_mem (List.mem_map_of_mem itemMem)
  rw [dialogue_sequence deployment filled]
  exact (within.trans (List.sublist_append_left _ _)).cons _

theorem sublist_map_entry {entries : List (Value × Value)} {entry : Value × Value}
    (keysFilled : ∀ entry ∈ entries, entry.1.Filled)
    (valuesFilled : ∀ entry ∈ entries, entry.2.Filled) (entryMem : entry ∈ entries) :
    (.more .map true :: (entry.1.dialogue (childOf deployment 0) ++
      entry.2.dialogue (childOf deployment 1))).Sublist
        ((Value.map entries).dialogue deployment) := by
  have within : (.more .map true :: (entry.1.dialogue (childOf deployment 0) ++
      entry.2.dialogue (childOf deployment 1))).Sublist
        (entryDialogue entries (childOf deployment 0) (childOf deployment 1)) :=
    List.sublist_flatten_of_mem (List.mem_map_of_mem entryMem)
  rw [dialogue_map deployment keysFilled valuesFilled]
  exact (within.trans (List.sublist_append_left _ _)).cons _

end Value

namespace Schema

variable {schema : Schema}

/-- The program of a type is answered by the dialogue of its values. -/
theorem HasType.answers {type : DataType} {value : Value} (typed : schema.HasType type value) :
    ∀ {allowance : Nat} {names : List String} (deployment : Option Deployment), value.Filled →
      schema.Chain names type → schema.Allows allowance names (value.dialogue deployment) →
        Answers (value.dialogue deployment)
          (type.readWith (schema.readDeclared allowance) deployment) value := by
  induction typed with
  | @leaf leaf =>
      intro allowance names deployment _ _ _
      rw [Value.dialogue_leaf]
      simp only [DataType.readWith]
      exact (Answers.leaf leaf deployment).map Value.leaf
  | @enumeration choices leaf declared =>
      intro allowance names deployment _ _ _
      simp only [DataType.readWith]
      exact Answers.of_leaf (choices.kind_of_declares declared) declared
  | @ranged range leaf admitted =>
      intro allowance names deployment _ _ _
      simp only [DataType.readWith]
      exact Answers.of_leaf (range.kind_of_admits admitted) admitted
  | boxed _ ih =>
      intro allowance names deployment filled chain allows
      simp only [DataType.readWith]
      exact ih deployment filled chain.boxed allows
  | sequence _ ih =>
      intro allowance names deployment filled chain allows
      cases filled with
      | sequence filled =>
          apply Answers.of_sequence filled
          intro item itemMem
          -- The question for the item takes a token: the records around the sequence are forgotten.
          have part := Value.sublist_sequence deployment filled itemMem
          exact ih item itemMem _ (filled item itemMem) (.nil _)
            (allows.restart chain (Nat.le_succ _) rfl part)
  | map _ _ admits keys values =>
      intro allowance names deployment filled chain allows
      cases filled with
      | map keysFilled valuesFilled =>
          have part {entry : Value × Value} (entryMem : entry ∈ _) :=
            Value.sublist_map_entry deployment keysFilled valuesFilled entryMem
          apply Answers.of_map keysFilled valuesFilled admits
          · intro entry entryMem
            have keyPart := ((List.sublist_append_left _ _).cons_cons _).trans (part entryMem)
            exact keys entry entryMem _ (keysFilled entry entryMem) (.nil _)
              (allows.restart chain (Nat.le_succ _) rfl keyPart)
          · intro entry entryMem
            have valuePart := ((List.sublist_append_right _ _).cons_cons _).trans (part entryMem)
            exact values entry entryMem _ (valuesFilled entry entryMem) (.nil _)
              (allows.restart chain (Nat.le_succ _) rfl valuePart)
  | tuple lengthEq _ ih =>
      intro allowance names deployment filled chain allows
      cases filled with
      | record filled =>
          apply Answers.of_record filled lengthEq
          intro pair pairMem child part
          rcases List.of_mem_zip pairMem with ⟨typeMem, memberMem⟩
          exact ih pair pairMem child (filled pair.2 memberMem) (chain.tuple typeMem)
            (allows.of_sublist part)
  | @record name members lengthEq membersTyped ih =>
      intro allowance names deployment filled chain allows
      rcases allows.exists_succ chain with ⟨left, rfl⟩
      cases filled with
      | record filled =>
          -- No token is taken here, so the record joins those around it, and is none of them.
          have typesLength : ((schema.fields name).map Member.type).length = members.length := by
            rw [List.length_map, lengthEq]
          apply Answers.of_record filled typesLength
          intro pair pairMem child part
          rw [List.zip_map_left] at pairMem
          rcases List.mem_map.1 pairMem with ⟨⟨field, member⟩, inZip, rfl⟩
          rcases List.of_mem_zip inZip with ⟨fieldMem, memberMem⟩
          exact ih (field, member) inZip child (filled member memberMem)
            (chain.record (.record lengthEq membersTyped) fieldMem)
            ((allows.record name).of_sublist part)
  | vacant =>
      intro allowance names deployment filled
      cases filled
  | holding found _ ih =>
      intro allowance names deployment filled chain allows
      rcases allows.exists_succ chain with ⟨left, rfl⟩
      cases filled with
      | holding filled =>
          simp only [DataType.readWith, readDeclared]
          apply Answers.of_holding filled found
          -- The tag is the token that pays for the variant.
          rw [Value.dialogue_holding deployment filled] at allows
          exact ih _ filled (.nil _)
            (allows.restart chain (Nat.le_refl _) rfl (List.Sublist.refl _))

/-- The tokens of its dialogue give a value back, and none of them is left. -/
theorem HasType.read_dialogue {type : DataType} {value : Value}
    (typed : schema.HasType type value) (filled : value.Filled) (deployment : Option Deployment) :
    schema.read type deployment
        ({ tokens := tokensOf (value.dialogue deployment) } : RecordingReader Answer) =
      .ok value
        { tokens := []
          used := (tokensOf (value.dialogue deployment)).length
          questions := (value.dialogue deployment).map Exchange.question } := by
  have answers := typed.answers deployment filled (.nil type) (.initial schema _)
  have tokensEq : tokensOf (value.dialogue deployment) =
      tokensOf (value.dialogue deployment) ++ [] := (List.append_nil _).symm
  have ran := @answers { tokens := tokensOf (value.dialogue deployment) } [] rfl tokensEq
  simp only [RecordingReader.past, Nat.zero_add, List.nil_append] at ran
  exact ran

end Schema

/-- A value without a vacant variant is written to a stream that never fails, and the calls that it
makes are all that is needed to read it back: the tokens of their transcript give the value and are
used up, and the questions are those of the transcript. Except for the questions whether another
item follows, the transcript has one exchange for each call, in the order of the calls: it asks at
the deployment of the call for what the call has written. -/
theorem read_mirrors_write (schema : Schema) (type : DataType) (value : Value)
    (deployment : Option Deployment) (typed : schema.HasType type value) (filled : value.Filled) :
    ∃ calls, value.write deployment ({} : RecordingWriter) = .ok () { calls } ∧
      schema.read type deployment
          ({ tokens := tokensOf (transcribe [] calls) } : RecordingReader Answer) =
        .ok value
          { tokens := []
            used := (tokensOf (transcribe [] calls)).length
            questions := (transcribe [] calls).map Exchange.question } ∧
      (transcribe [] calls).filter (fun exchange => !exchange.question.isMore) =
        calls.map WriteCall.exchange :=
  ⟨_, filled.write_eq deployment, typed.read_dialogue filled deployment,
    exchanges_of_transcribe [] _⟩

theorem Value.sprout_filled : Value.sprout.Filled := by
  refine .holding (.sequence ?_)
  intro item itemMem
  rw [List.mem_singleton.1 itemMem]
  exact .holding (.leaf _)

/-- The tree with one leaf, written and read with a deployment for the leaf and its brackets. -/
theorem read_mirrors_write_sprout :
    let leaf := Deployment.empty.withHint Deployment.lengthWidthHint (.integer 1)
    let below := Deployment.empty.withChild 0 (leaf.withChild 0 leaf)
    let tree := Deployment.empty.withChild 1 below
    Schema.trees.read (.declared (.variant "Tree")) (some tree)
        ({ tokens := [.opening (.variant 1), .more true, .opening (.variant 0),
            .leaf (.bool true), .more false] } : RecordingReader Answer) =
      .ok .sprout
        { tokens := []
          used := 5
          questions := [.enter .variant (some tree), .enter .sequence (some below),
            .hasMore .sequence, .enter .variant (some (leaf.withChild 0 leaf)),
            .leaf .bool (some leaf), .hasMore .sequence, .leave .sequence] } := by
  intro leaf below tree
  have written : Value.sprout.write (some tree) ({} : RecordingWriter) =
      .ok () { calls := [.enter (.variant 1) (some tree), .enter (.sequence 1) (some below),
        .enter (.variant 0) (some (leaf.withChild 0 leaf)), .leaf (.bool true) (some leaf),
        .leave .sequence] } := rfl
  rcases read_mirrors_write .trees (.declared (.variant "Tree")) .sprout (some tree)
    Value.sprout_typed Value.sprout_filled with ⟨calls, callsWritten, read, _⟩
  rw [written] at callsWritten
  cases callsWritten
  exact read

end ValueBus
