import ValueBus.Proofs.Entries
import ValueBus.Proofs.Following
import ValueBus.Proofs.Writable
import ValueBus.Schema.Typing

/-!
# What a reader accepts

Whatever the program of a type answers is a value of that type, and one that can be written under
the limits of the reader. If no map occurs in the type, then the bytes that were read are the chunks
of the value up to padding; a map may have been read in another order than it is written in.

This is proved by induction on the allowance of declared types and, for each allowance, on the type.
Nothing is assumed of the bytes.
-/

namespace ValueBus

namespace DataType

/-- Induction on types: every part of a composite type satisfies the motive. -/
@[elab_as_elim, induction_eliminator]
theorem induction {motive : DataType → Prop}
    (leaf : ∀ kind, motive (.leaf kind))
    (enumeration : ∀ choices, motive (.enumeration choices))
    (ranged : ∀ range, motive (.ranged range))
    (boxed : ∀ content, motive content → motive (.boxed content))
    (sequence : ∀ item, motive item → motive (.sequence item))
    (map : ∀ mapOrder key value, motive key → motive value → motive (.map mapOrder key value))
    (tuple : ∀ items, (∀ item ∈ items, motive item) → motive (.tuple items))
    (declared : ∀ name, motive (.declared name))
    (type : DataType) : motive type := by
  refine @DataType.rec motive (fun items => ∀ item ∈ items, motive item)
    leaf enumeration ranged boxed sequence map tuple declared ?_ ?_ type
  · simp
  · intro head tail headHolds tailHolds item itemMem
    rcases List.mem_cons.1 itemMem with rfl | itemMem
    · exact headHolds
    · exact tailHolds item itemMem

end DataType

namespace Schema

/-- A type occurs in another, at any depth and through any declaration. -/
inductive Occurs (schema : Schema) (part : DataType) : DataType → Prop where
  | self : Occurs schema part part
  | boxed {content : DataType} : Occurs schema part content → Occurs schema part (.boxed content)
  | item {item : DataType} : Occurs schema part item → Occurs schema part (.sequence item)
  | key {mapOrder : MapOrder} {key value : DataType} :
      Occurs schema part key → Occurs schema part (.map mapOrder key value)
  | value {mapOrder : MapOrder} {key value : DataType} :
      Occurs schema part value → Occurs schema part (.map mapOrder key value)
  | member {items : List DataType} {item : DataType} :
      item ∈ items → Occurs schema part item → Occurs schema part (.tuple items)
  | field {name : String} {field : Member} :
      field ∈ schema.fields name → Occurs schema part field.type →
      Occurs schema part (.declared (.record name))
  | alternative {set : String} {alternative : Member} :
      alternative ∈ schema.alternatives set → Occurs schema part alternative.type →
      Occurs schema part (.declared (.variant set))

def MapFree (schema : Schema) (type : DataType) : Prop :=
  ∀ mapOrder key value, ¬ schema.Occurs (.map mapOrder key value) type

end Schema

open WriteStep

/-- Bytes spell steps: the steps can be written, and, if the bytes are said to be exact, their
chunks stand between the two cursors. -/
structure Spells (limits : Limits) (depth : Nat) (exact : Prop) (cursor final : ReadCursor)
    (steps : List WriteStep) : Prop where
  writable : Writable limits depth steps
  passed : exact → ∃ chunks, chunksAll? steps = some chunks ∧ cursor.passAll? chunks = some final

namespace Spells

variable {limits : Limits} {depth : Nat} {exact weaker : Prop} {cursor middle final : ReadCursor}

theorem nil (limits : Limits) (depth : Nat) (exact : Prop) (cursor : ReadCursor) :
    Spells limits depth exact cursor cursor [] :=
  ⟨writable_nil limits depth, fun _ => ⟨[], rfl, rfl⟩⟩

theorem mono {steps : List WriteStep} (spells : Spells limits depth weaker cursor final steps)
    (implies : exact → weaker) : Spells limits depth exact cursor final steps :=
  ⟨spells.writable, fun holds => spells.passed (implies holds)⟩

theorem append {first second : List WriteStep}
    (spells : Spells limits depth exact cursor middle first)
    (later : Spells limits (depthAfterAll first depth) exact middle final second) :
    Spells limits depth exact cursor final (first ++ second) := by
  refine ⟨writable_append_iff.2 ⟨spells.writable, later.writable⟩, fun holds => ?_⟩
  rcases spells.passed holds with ⟨chunks, firstDescribed, firstPassed⟩
  rcases later.passed holds with ⟨others, secondDescribed, secondPassed⟩
  refine ⟨chunks ++ others, ?_, ?_⟩
  · exact chunksAll?_append_eq_some_iff.2 ⟨chunks, others, firstDescribed, secondDescribed, rfl⟩
  · exact ReadCursor.passAll?_append_eq_some_iff.2 ⟨middle, firstPassed, secondPassed⟩

/-- A call that breaks no limit is spelled by its chunks. -/
theorem of_call {call : WriteCall} {chunks : List Chunk} (described : call.chunks? = some chunks)
    (within : call.limitFault? limits depth = none) (passed : cursor.passAll? chunks = some final) :
    Spells limits depth exact cursor final [.call call] := by
  have chunksEq : chunksAll? [.call call] = some chunks := by
    simp [chunksAll?, WriteStep.chunks?, described]
  exact ⟨⟨⟨chunks, chunksEq⟩, Option.or_eq_none_iff.2 ⟨within, rfl⟩⟩,
    fun _ => ⟨chunks, chunksEq, passed⟩⟩

theorem leaving (limits : Limits) (depth : Nat) (exact : Prop) (cursor : ReadCursor)
    (kind : FrameKind) : Spells limits depth exact cursor cursor [Value.leaving kind] :=
  of_call rfl rfl rfl

open ReadProgram MemoryReader

variable {frames : List ReadFrame} {after : MemoryReader}

theorem of_readLeaf (exact : Prop) {kind : LeafKind} {deployment : Option Deployment} {value : Leaf}
    (answered : (readLeaf kind deployment).run (unlatched limits frames cursor) = .ok value after) :
    value.kind = kind ∧ ∃ final, after = unlatched limits frames final ∧
      Spells limits frames.length exact cursor final [.call (.leaf value deployment)] := by
  rw [run_readLeaf rfl] at answered
  rcases takeLeaf_eq_ok_iff.1 answered with ⟨kindEq, chunks, final, described, within, passed, rfl⟩
  exact ⟨kindEq, final, rfl, of_call described within passed⟩

theorem of_enterFrame (exact : Prop) {kind : FrameKind} {deployment : Option Deployment}
    {opening : Opening}
    (answered : (enterFrame kind deployment).run (unlatched limits frames cursor) =
      .ok opening after) :
    opening.kind = kind ∧ ∃ final, after = unlatched limits (opening.readFrame :: frames) final ∧
      Spells limits frames.length exact cursor final [Value.entering opening deployment] := by
  rw [run_enterFrame rfl] at answered
  rcases enter_eq_ok_iff.1 answered with ⟨kindEq, chunks, final, described, within, passed, rfl⟩
  exact ⟨kindEq, final, rfl, of_call described within passed⟩

theorem of_leaveFrame {kind : FrameKind} {frame : ReadFrame} {answer : Unit}
    (answered : (leaveFrame kind).run (unlatched limits (frame :: frames) cursor) =
      .ok answer after) : after = unlatched limits frames cursor := by
  rw [run_leaveFrame rfl] at answered
  exact (eq_of_closeFrame answered).symm

theorem of_checkLatch {answer : Unit}
    (answered : checkLatch.run (unlatched limits frames cursor) = .ok answer after) :
    after = unlatched limits frames cursor := by
  rw [run_checkLatch rfl] at answered
  cases answered
  rfl

/-- What a bracketed program answers is spelled by what announces the frame, by the steps of what
stands in it, and by its end. -/
theorem of_bracket {exact : Prop} {α γ : Type} {kind : FrameKind} {deployment : Option Deployment}
    {body : Opening → ReadProgram α} {finish : α → γ} {value : γ}
    {accepts : Opening → α → List WriteStep → Prop}
    (inside : ∀ {opening middle answer after}, opening.kind = kind →
      (body opening).run (unlatched limits (opening.readFrame :: frames) middle) =
        .ok answer after →
      ∃ steps frame final, accepts opening answer steps ∧
        after = unlatched limits (frame :: frames) final ∧
          Spells limits (frames.length + 1) exact middle final steps)
    (answered : (enterFrame kind deployment >>= fun opening => body opening >>= fun answer =>
      leaveFrame kind >>= fun _ => pure (finish answer)).run (unlatched limits frames cursor) =
        .ok value after) :
    ∃ opening answer steps final, opening.kind = kind ∧ accepts opening answer steps ∧
      finish answer = value ∧ after = unlatched limits frames final ∧
        Spells limits frames.length exact cursor final
          (Value.entering opening deployment :: steps ++ [Value.leaving kind]) := by
  rcases run_bind_eq_ok_iff.1 answered with ⟨opening, _, entered, answered⟩
  rcases of_enterFrame exact entered with ⟨kindEq, middle, rfl, announced⟩
  rcases run_bind_eq_ok_iff.1 answered with ⟨answer, _, bodyAnswered, answered⟩
  rcases inside kindEq bodyAnswered with ⟨steps, frame, final, accepted, rfl, spelled⟩
  rcases run_bind_eq_ok_iff.1 answered with ⟨_, _, left, finished⟩
  cases of_leaveFrame left
  cases finished
  exact ⟨opening, answer, steps, final, kindEq, accepted, rfl, rfl,
    announced.append (spelled.append (leaving ..))⟩

theorem readFrame_of_repetition {kind : Repetition} {opening : Opening}
    (kindEq : opening.kind = kind.frame) :
    opening.readFrame = .counted kind opening.length := by
  cases kind <;> cases opening <;> first | rfl | cases kindEq

/-- Whatever holds before the first item and is passed on by every item holds after the last. -/
theorem of_repeatWhile {β : Type} {kind : Repetition} {item : β → ReadProgram β}
    (invariant : Nat → ReadCursor → β → Prop)
    (step : ∀ {count cursor state next after}, invariant (count + 1) cursor state →
      (item state).run (unlatched limits (.counted kind count :: frames) cursor) =
        .ok next after →
      ∃ final, after = unlatched limits (.counted kind count :: frames) final ∧
        invariant count final next)
    {count : Nat} {state result : β} (holds : invariant count cursor state)
    (answered : (repeatWhile kind item count state).run
      (unlatched limits (.counted kind count :: frames) cursor) = .ok result after) :
    ∃ final, after = unlatched limits (.counted kind 0 :: frames) final ∧
      invariant 0 final result := by
  induction count generalizing cursor state with
  | zero =>
      rcases run_bind_eq_ok_iff.1 answered with ⟨more, _, asked, answered⟩
      rw [run_more, hasMore_of_counted_zero rfl rfl] at asked
      cases asked
      cases answered
      exact ⟨cursor, rfl, holds⟩
  | succ count ih =>
      rcases run_bind_eq_ok_iff.1 answered with ⟨more, _, asked, answered⟩
      rw [run_more, hasMore_of_counted_succ rfl rfl] at asked
      cases asked
      rcases run_bind_eq_ok_iff.1 answered with ⟨next, _, itemAnswered, answered⟩
      rcases step holds itemAnswered with ⟨middle, rfl, nextHolds⟩
      exact ih nextHolds answered

/-- What a repeating program answers is spelled by the number of its items, by the items and by its
end. -/
theorem of_repeated {exact : Prop} {β γ : Type} {kind : Repetition}
    {deployment : Option Deployment} {item : β → ReadProgram β} {state : β} {finish : β → γ}
    {value : γ} {accepts : Nat → β → Prop} {loopSteps : β → List WriteStep}
    (inside : ∀ {count middle answer after},
      (repeatWhile kind item count state).run
        (unlatched limits (.counted kind count :: frames) middle) = .ok answer after →
      ∃ final, after = unlatched limits (.counted kind 0 :: frames) final ∧
        accepts count answer ∧
          Spells limits (frames.length + 1) exact middle final (loopSteps answer))
    (answered : (enterFrame kind.frame deployment >>= fun opening =>
      repeatWhile kind item opening.length state >>= fun items =>
        checkLatch >>= fun _ => leaveFrame kind.frame >>= fun _ => pure (finish items)).run
          (unlatched limits frames cursor) = .ok value after) :
    ∃ opening answer final, opening.kind = kind.frame ∧ accepts opening.length answer ∧
      finish answer = value ∧ after = unlatched limits frames final ∧
        Spells limits frames.length exact cursor final
          (Value.entering opening deployment :: loopSteps answer ++
            [Value.leaving kind.frame]) := by
  rcases run_bind_eq_ok_iff.1 answered with ⟨opening, _, entered, answered⟩
  rcases of_enterFrame exact entered with ⟨kindEq, middle, rfl, announced⟩
  rw [readFrame_of_repetition kindEq] at answered
  rcases run_bind_eq_ok_iff.1 answered with ⟨answer, _, loopAnswered, answered⟩
  rcases inside loopAnswered with ⟨final, rfl, accepted, spelled⟩
  rcases run_bind_eq_ok_iff.1 answered with ⟨_, _, checked, answered⟩
  cases of_checkLatch checked
  rcases run_bind_eq_ok_iff.1 answered with ⟨_, _, left, finished⟩
  cases of_leaveFrame left
  cases finished
  exact ⟨opening, answer, final, kindEq, accepted, rfl, rfl,
    announced.append (spelled.append (leaving ..))⟩

end Spells

namespace Schema

open Spells ReadProgram MemoryReader
open Deployment (childOf)

/-- A program accepts only values of a type, and only where their steps are spelled. -/
def Sound (schema : Schema) (type : DataType)
    (program : Option Deployment → ReadProgram Value) : Prop :=
  ∀ {limits : Limits} {frames : List ReadFrame} {cursor : ReadCursor}
    {deployment : Option Deployment} {value : Value} {after : MemoryReader},
    (program deployment).run (unlatched limits frames cursor) = .ok value after →
    schema.HasType type value ∧ ∃ final, after = unlatched limits frames final ∧
      Spells limits frames.length (schema.MapFree type) cursor final (value.steps deployment)

variable {schema : Schema} {declared : Declared → Option Deployment → ReadProgram Value}

/-- Items that are read are values of their type, in the order in which they are spelled. -/
theorem sound_items {type : DataType} {program : ReadProgram Value}
    {deployment : Option Deployment}
    (sound : ∀ {limits frames cursor value after},
      program.run (unlatched limits frames cursor) = .ok value after →
      schema.HasType type value ∧ ∃ final, after = unlatched limits frames final ∧
        Spells limits frames.length (schema.MapFree type) cursor final (value.steps deployment))
    {limits : Limits} {frames : List ReadFrame} {cursor : ReadCursor} {count : Nat}
    {answer : List Value} {after : MemoryReader}
    (answered : (repeatWhile .sequence (fun read => (· :: read) <$> program) count []).run
      (unlatched limits (.counted .sequence count :: frames) cursor) = .ok answer after) :
    ∃ final, after = unlatched limits (.counted .sequence 0 :: frames) final ∧
      (answer.length = count ∧ ∀ item ∈ answer, schema.HasType type item) ∧
        Spells limits (frames.length + 1) (schema.MapFree type) cursor final
          (Value.itemSteps answer.reverse deployment) := by
  have loop := of_repeatWhile
    (fun remaining position read => read.length + remaining = count ∧
      (∀ item ∈ read, schema.HasType type item) ∧
        Spells limits (frames.length + 1) (schema.MapFree type) cursor position
          (Value.itemSteps read.reverse deployment)) ?_
    ⟨Nat.zero_add count, by simp, nil limits _ _ cursor⟩ answered
  · rcases loop with ⟨final, rfl, lengthEq, typed, spelled⟩
    exact ⟨final, rfl, ⟨lengthEq, typed⟩, spelled⟩
  · rintro remaining position read next after ⟨lengthEq, typed, spelled⟩ itemAnswered
    rcases run_map_eq_ok_iff.1 itemAnswered with ⟨item, programAnswered, rfl⟩
    rcases sound programAnswered with ⟨itemTyped, final, rfl, itemSpelled⟩
    have balanced : Balanced (Value.itemSteps read.reverse deployment) :=
      Value.composable_balanced.itemSteps (fun item _ => item.balanced_steps) deployment
    refine ⟨final, rfl, ?_, ?_, ?_⟩
    · simp only [List.length_cons]
      omega
    · simp only [List.forall_mem_cons]
      exact ⟨itemTyped, typed⟩
    · simp only [List.reverse_cons, Value.itemSteps_append]
      apply spelled.append
      simp only [balanced.depthAfterAll_eq, Value.itemSteps, List.append_nil]
      exact itemSpelled

/-- What an entry that was read satisfies. -/
def EntryAccepted (schema : Schema) (limits : Limits) (depth : Nat) (key value : DataType)
    (keyDeployment valueDeployment : Option Deployment) (entry : Value × Value) : Prop :=
  schema.HasType key entry.1 ∧ schema.HasType value entry.2 ∧
    Value.EntryWritable limits depth keyDeployment valueDeployment entry

/-- An entry that is read has a key that was not read before. -/
theorem sound_entry {mapOrder : MapOrder} {key value : DataType}
    {keyDeployment valueDeployment : Option Deployment}
    (keySound : schema.Sound key (key.readWith declared))
    (valueSound : schema.Sound value (value.readWith declared))
    {limits : Limits} {frames : List ReadFrame} {cursor : ReadCursor}
    {read next : List (Value × Value)} {after : MemoryReader}
    (answered : (readEntry mapOrder (key.readWith declared keyDeployment)
      (value.readWith declared valueDeployment) read).run (unlatched limits frames cursor) =
        .ok next after) :
    ∃ entry final, after = unlatched limits frames final ∧ Value.hasKey entry.1 read = false ∧
      schema.EntryAccepted limits frames.length key value keyDeployment valueDeployment entry ∧
        Value.addEntry mapOrder entry.1 entry.2 read = next := by
  rcases run_bind_eq_ok_iff.1 answered with ⟨opening, _, entered, answered⟩
  rcases of_enterFrame True entered with ⟨kindEq, middle, rfl, announced⟩
  rcases run_bind_eq_ok_iff.1 answered with ⟨foundKey, _, keyAnswered, answered⟩
  rcases keySound keyAnswered with ⟨keyTyped, keyFinal, rfl, keySpelled⟩
  rcases run_bind_eq_ok_iff.1 answered with ⟨foundValue, _, valueAnswered, answered⟩
  rcases valueSound valueAnswered with ⟨valueTyped, valueFinal, rfl, valueSpelled⟩
  rcases run_bind_eq_ok_iff.1 answered with ⟨_, _, left, checked⟩
  cases of_leaveFrame left
  cases opening with
  | mapEntry =>
      cases present : Value.hasKey foundKey read with
      | true =>
          rw [present] at checked
          exact absurd checked Action.raise_ne_ok
      | false =>
          rw [present] at checked
          cases checked
          exact ⟨(foundKey, foundValue), valueFinal, rfl, present,
            ⟨keyTyped, valueTyped, announced.writable, keySpelled.writable,
              valueSpelled.writable⟩, rfl⟩
  | _ => cases kindEq

/-- Entries that are read make up a map of their type, and all of them can be written. -/
theorem sound_entries {mapOrder : MapOrder} {key value : DataType}
    {keyDeployment valueDeployment : Option Deployment} {exact : Prop}
    (keySound : schema.Sound key (key.readWith declared))
    (valueSound : schema.Sound value (value.readWith declared)) (inexact : ¬ exact)
    {limits : Limits} {frames : List ReadFrame} {cursor : ReadCursor} {count : Nat}
    {answer : List (Value × Value)} {after : MemoryReader}
    (answered : (repeatWhile .map (readEntry mapOrder (key.readWith declared keyDeployment)
      (value.readWith declared valueDeployment)) count []).run
        (unlatched limits (.counted .map count :: frames) cursor) = .ok answer after) :
    ∃ final, after = unlatched limits (.counted .map 0 :: frames) final ∧
      (answer.length = count ∧ mapOrder.Admits answer ∧
        ∀ entry ∈ answer, schema.HasType key entry.1 ∧ schema.HasType value entry.2) ∧
      Spells limits (frames.length + 1) exact cursor final
        (Value.entrySteps answer keyDeployment valueDeployment) := by
  have loop := of_repeatWhile
    (fun remaining _ read => read.length + remaining = count ∧ mapOrder.Admits read ∧
      ∀ entry ∈ read, schema.EntryAccepted limits (frames.length + 1) key value keyDeployment
        valueDeployment entry) ?_
    ⟨Nat.zero_add count, MapOrder.Admits.nil, by simp⟩ answered
  · rcases loop with ⟨final, rfl, lengthEq, admits, accepted⟩
    refine ⟨final, rfl, ⟨lengthEq, admits, fun entry entryMem => ?_⟩, ?_, fun holds => ?_⟩
    · exact ⟨(accepted entry entryMem).1, (accepted entry entryMem).2.1⟩
    · exact Value.writable_entrySteps_iff.2 fun entry entryMem =>
        (accepted entry entryMem).2.2
    · exact absurd holds inexact
  · rintro remaining position read next after ⟨lengthEq, admits, accepted⟩ entryAnswered
    rcases sound_entry keySound valueSound entryAnswered with
      ⟨entry, final, rfl, absent, entryAccepted, rfl⟩
    have added := Value.addEntry_perm mapOrder entry.1 entry.2 read
    refine ⟨final, rfl, ?_, admits.addEntry absent, ?_⟩
    · simp only [added.length_eq, List.length_cons]
      omega
    · intro other otherMem
      rcases List.mem_cons.1 (added.mem_iff.1 otherMem) with rfl | otherMem
      · exact entryAccepted
      · exact accepted other otherMem

theorem sound_members {types : List DataType}
    (sound : ∀ type ∈ types, schema.Sound type (type.readWith declared))
    {limits : Limits} {frames : List ReadFrame} {cursor : ReadCursor}
    {deployment : Option Deployment} {position : Nat} {members : List Value} {after : MemoryReader}
    (answered : (DataType.readMembersWith declared types deployment position).run
      (unlatched limits frames cursor) = .ok members after) :
    types.length = members.length ∧
      (∀ pair ∈ types.zip members, schema.HasType pair.1 pair.2) ∧
        ∃ final, after = unlatched limits frames final ∧
          Spells limits frames.length (∀ type ∈ types, schema.MapFree type) cursor final
            (Value.memberSteps members deployment position) := by
  induction types generalizing cursor position members after with
  | nil =>
      cases answered
      exact ⟨rfl, by simp, cursor, rfl, nil ..⟩
  | cons type types ih =>
      simp only [DataType.readMembersWith] at answered
      rcases run_bind_eq_ok_iff.1 answered with ⟨member, _, firstAnswered, answered⟩
      rcases List.forall_mem_cons.1 sound with ⟨firstSound, restSound⟩
      rcases firstSound firstAnswered with
        ⟨memberTyped, middle, rfl, memberSpelled⟩
      rcases run_bind_eq_ok_iff.1 answered with ⟨rest, _, restAnswered, finished⟩
      rcases ih restSound restAnswered with ⟨lengthEq, restTyped, final, rfl, restSpelled⟩
      cases finished
      refine ⟨congrArg Nat.succ lengthEq, ?_, final, rfl, ?_⟩
      · simp only [List.zip_cons_cons, List.forall_mem_cons]
        exact ⟨memberTyped, restTyped⟩
      · simp only [Value.memberSteps]
        refine (memberSpelled.mono fun free => (List.forall_mem_cons.1 free).1).append ?_
        rw [(member.balanced_steps _).depthAfterAll_eq]
        exact restSpelled.mono fun free => (List.forall_mem_cons.1 free).2

/-- The members of a struct that is read are values of their types. -/
theorem sound_struct {types : List DataType}
    (sound : ∀ type ∈ types, schema.Sound type (type.readWith declared))
    {limits : Limits} {frames : List ReadFrame} {cursor : ReadCursor}
    {deployment : Option Deployment} {value : Value} {after : MemoryReader}
    (answered : (enterFrame .struct deployment >>= fun _ =>
      DataType.readMembersWith declared types deployment 0 >>= fun members =>
        leaveFrame .struct >>= fun _ => pure (Value.record members)).run
          (unlatched limits frames cursor) = .ok value after) :
    ∃ members final, value = .record members ∧ types.length = members.length ∧
      (∀ pair ∈ types.zip members, schema.HasType pair.1 pair.2) ∧
        after = unlatched limits frames final ∧
          Spells limits frames.length (∀ type ∈ types, schema.MapFree type) cursor final
            ((Value.record members).steps deployment) := by
  have inside {opening : Opening} {middle : ReadCursor} {members : List Value}
      {after : MemoryReader} (_ : opening.kind = .struct)
      (membersAnswered : (DataType.readMembersWith declared types deployment 0).run
        (unlatched limits (opening.readFrame :: frames) middle) = .ok members after) :
      ∃ steps frame final, (steps = Value.memberSteps members deployment 0 ∧
          types.length = members.length ∧
            ∀ pair ∈ types.zip members, schema.HasType pair.1 pair.2) ∧
        after = unlatched limits (frame :: frames) final ∧
          Spells limits (frames.length + 1) (∀ type ∈ types, schema.MapFree type) middle final
            steps := by
    rcases sound_members sound membersAnswered with ⟨lengthEq, typed, final, rfl, spelled⟩
    exact ⟨_, _, final, ⟨rfl, lengthEq, typed⟩, rfl, spelled⟩
  rcases of_bracket inside answered with
    ⟨opening, members, _, final, kindEq, ⟨rfl, lengthEq, typed⟩, rfl, rfl, spelled⟩
  cases opening with
  | struct => exact ⟨members, final, rfl, lengthEq, typed, rfl, spelled⟩
  | _ => cases kindEq

theorem MapFree.of_boxed {content : DataType} (free : schema.MapFree (.boxed content)) :
    schema.MapFree content :=
  fun mapOrder key value occurs => free mapOrder key value (.boxed occurs)

theorem MapFree.of_sequence {item : DataType} (free : schema.MapFree (.sequence item)) :
    schema.MapFree item :=
  fun mapOrder key value occurs => free mapOrder key value (.item occurs)

theorem MapFree.of_tuple {items : List DataType} (free : schema.MapFree (.tuple items)) :
    ∀ item ∈ items, schema.MapFree item :=
  fun _ itemMem mapOrder key value occurs => free mapOrder key value (.member itemMem occurs)

theorem MapFree.of_record {name : String} (free : schema.MapFree (.declared (.record name))) :
    ∀ type ∈ (schema.fields name).map Member.type, schema.MapFree type := by
  intro type typeMem mapOrder key value occurs
  rcases List.mem_map.1 typeMem with ⟨field, fieldMem, rfl⟩
  exact free mapOrder key value (.field fieldMem occurs)

/-- The program of a type is sound if those of the declared types are. -/
theorem sound_readWith (declaredSound : ∀ name, schema.Sound (.declared name) (declared name))
    (type : DataType) : schema.Sound type (type.readWith declared) := by
  induction type with
  | leaf kind =>
      intro limits frames cursor deployment value after answered
      simp only [DataType.readWith] at answered
      rcases run_map_eq_ok_iff.1 answered with ⟨leaf, leafAnswered, rfl⟩
      rcases of_readLeaf _ leafAnswered with ⟨rfl, final, rfl, spelled⟩
      exact ⟨.leaf, final, rfl, spelled⟩
  | enumeration choices =>
      intro limits frames cursor deployment value after answered
      simp only [DataType.readWith] at answered
      rcases run_bind_eq_ok_iff.1 answered with ⟨leaf, _, leafAnswered, checked⟩
      rcases of_readLeaf (schema.MapFree (.enumeration choices)) leafAnswered with
        ⟨_, final, rfl, spelled⟩
      split_ifs at checked with declared
      · cases checked
        exact ⟨.enumeration declared, final, rfl, spelled⟩
      · exact absurd checked Action.raise_ne_ok
  | ranged range =>
      intro limits frames cursor deployment value after answered
      simp only [DataType.readWith] at answered
      rcases run_bind_eq_ok_iff.1 answered with ⟨leaf, _, leafAnswered, checked⟩
      rcases of_readLeaf (schema.MapFree (.ranged range)) leafAnswered with
        ⟨_, final, rfl, spelled⟩
      split_ifs at checked with admitted
      · cases checked
        exact ⟨.ranged admitted, final, rfl, spelled⟩
      · exact absurd checked Action.raise_ne_ok
  | boxed content ih =>
      intro limits frames cursor deployment value after answered
      simp only [DataType.readWith] at answered
      rcases ih answered with ⟨typed, final, rfl, spelled⟩
      exact ⟨.boxed typed, final, rfl, spelled.mono MapFree.of_boxed⟩
  | sequence item ih =>
      intro limits frames cursor deployment value after answered
      simp only [DataType.readWith] at answered
      rcases of_repeated (sound_items ih) answered with
        ⟨opening, read, final, kindEq, ⟨lengthEq, typed⟩, rfl, rfl, spelled⟩
      cases opening with
      | sequence length =>
          cases lengthEq
          refine ⟨.sequence fun item itemMem => typed item (List.mem_reverse.1 itemMem), final,
            rfl, ?_⟩
          simp only [Value.steps, List.length_reverse]
          exact spelled.mono MapFree.of_sequence
      | _ => cases kindEq
  | map mapOrder key item keyIh itemIh =>
      intro limits frames cursor deployment value after answered
      simp only [DataType.readWith] at answered
      have inexact (free : schema.MapFree (.map mapOrder key item)) : False :=
        free mapOrder key item .self
      rcases of_repeated (sound_entries keyIh itemIh inexact) answered with
        ⟨opening, read, final, kindEq, ⟨lengthEq, admits, accepted⟩, rfl, rfl, spelled⟩
      cases opening with
      | map length =>
          cases lengthEq
          exact ⟨.map (fun entry entryMem => (accepted entry entryMem).1)
            (fun entry entryMem => (accepted entry entryMem).2) admits, final, rfl, spelled⟩
      | _ => cases kindEq
  | tuple items ih =>
      intro limits frames cursor deployment value after answered
      simp only [DataType.readWith] at answered
      rcases sound_struct ih answered with ⟨members, final, rfl, lengthEq, typed, rfl, spelled⟩
      exact ⟨.tuple lengthEq typed, final, rfl, spelled.mono MapFree.of_tuple⟩
  | declared name => exact declaredSound name

/-- The value of a variant that is read is of the alternative that the tag names. -/
theorem sound_alternative {set : String}
    (sound : ∀ type, schema.Sound type (type.readWith declared)) {tag : Nat}
    {limits : Limits} {frames : List ReadFrame} {cursor : ReadCursor}
    {deployment : Option Deployment} {value : Value} {after : MemoryReader}
    (answered : (readAlternative declared (schema.alternatives set) tag deployment).run
      (unlatched limits frames cursor) = .ok value after) :
    ∃ alternative inner final, (schema.alternatives set)[tag]? = some alternative ∧
      value = .holding tag inner ∧ schema.HasType alternative.type inner ∧
        after = unlatched limits frames final ∧
          Spells limits frames.length (schema.MapFree alternative.type) cursor final
            (inner.steps (childOf deployment tag)) := by
  unfold readAlternative at answered
  cases found : (schema.alternatives set)[tag]? with
  | none =>
      rw [found] at answered
      exact absurd answered Action.raise_ne_ok
  | some alternative =>
      rw [found] at answered
      rcases run_map_eq_ok_iff.1 answered with ⟨inner, innerAnswered, rfl⟩
      rcases sound alternative.type innerAnswered with ⟨typed, final, rfl, spelled⟩
      exact ⟨alternative, inner, final, rfl, rfl, typed, rfl, spelled⟩

theorem MapFree.of_variant {set : String} (free : schema.MapFree (.declared (.variant set)))
    {index : Nat} {alternative : Member}
    (found : (schema.alternatives set)[index]? = some alternative) :
    schema.MapFree alternative.type :=
  fun mapOrder key value occurs =>
    free mapOrder key value (.alternative (List.mem_of_getElem? found) occurs)

/-- The programs of the declared types are sound, whatever their allowance. -/
theorem sound_readDeclared (schema : Schema) (allowance : Nat) (name : Declared) :
    schema.Sound (.declared name) (schema.readDeclared allowance name) := by
  induction allowance generalizing name with
  | zero =>
      intro limits frames cursor deployment value after answered
      simp only [readDeclared] at answered
      exact absurd answered Action.raise_ne_ok
  | succ allowance ih =>
      intro limits frames cursor deployment value after answered
      cases name with
      | record name =>
          simp only [readDeclared] at answered
          rcases sound_struct (fun type _ => sound_readWith ih type) answered with
            ⟨members, final, rfl, lengthEq, typed, rfl, spelled⟩
          simp only [List.length_map] at lengthEq
          refine ⟨.record lengthEq fun pair pairMem => ?_, final, rfl,
            spelled.mono MapFree.of_record⟩
          apply typed (pair.1.type, pair.2)
          simp only [List.zip_map_left]
          exact List.mem_map.2 ⟨pair, pairMem, rfl⟩
      | variant set =>
          simp only [readDeclared] at answered
          have inside {opening : Opening} {middle : ReadCursor} {value : Value}
              {after : MemoryReader} (kindEq : opening.kind = .variant)
              (valueAnswered : (readAlternative (schema.readDeclared allowance)
                (schema.alternatives set) opening.tag deployment).run
                  (unlatched limits (opening.readFrame :: frames) middle) = .ok value after) :
              ∃ steps frame final, (schema.HasType (.declared (.variant set)) value ∧
                  Value.entering opening deployment :: steps ++ [Value.leaving .variant] =
                    value.steps deployment) ∧
                after = unlatched limits (frame :: frames) final ∧
                  Spells limits (frames.length + 1) (schema.MapFree (.declared (.variant set)))
                    middle final steps := by
            rcases sound_alternative (sound_readWith ih) valueAnswered with
              ⟨alternative, inner, final, found, rfl, typed, rfl, spelled⟩
            cases opening with
            | variant tag =>
                exact ⟨_, _, final, ⟨.holding found typed, rfl⟩, rfl,
                  spelled.mono fun free => free.of_variant found⟩
            | _ => cases kindEq
          rcases of_bracket inside answered with
            ⟨opening, value, steps, final, _, ⟨typed, stepsEq⟩, rfl, rfl, spelled⟩
          exact ⟨typed, final, rfl, stepsEq ▸ spelled⟩

/-- Whatever is read is a value of the type, and its steps are spelled. -/
theorem sound_program (schema : Schema) (allowance : Nat) (type : DataType) :
    schema.Sound type (schema.program allowance type) :=
  sound_readWith (schema.sound_readDeclared allowance) type

end Schema

end ValueBus
