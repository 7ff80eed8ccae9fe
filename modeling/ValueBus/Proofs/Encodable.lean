import Mathlib.Algebra.Group.Nat.Defs
import ValueBus.Proofs.RoundTrip
import ValueBus.Proofs.Writable

/-!
# Which values can be encoded

A value is refused if one of its parts is: a variant that is empty or whose tag needs more than a
byte, a text, buffer, sequence or map that is too long for the limits or for its length field, or a
frame that is opened too deep. This file says that nothing else is refused.

Every part stands at a path of child indices, and the deployment that it is written with is the one
at the end of the same path. So the conditions on parts can be told without following the steps that
write them. They are first shown equivalent to the steps being writable, by induction on the value:
what is asked of a composite value is what is asked of itself and, one frame deeper, of its parts.
-/

namespace ValueBus

open Deployment (childOf nodeAt lengthWidthHint)
open WriteStep

/-- Whether a length goes into the field of its prefix: four bytes, unless a deployment hints at an
integer, which must be 1, 2 or 4. -/
def LengthFits (length : Nat) (deployment : Option Deployment) : Prop :=
  match deployment.bind (·.integerHint? lengthWidthHint) with
  | none => length ≤ 2 ^ (8 * 4) - 1
  | some hint => ∃ width ∈ [1, 2, 4], hint = Int64.ofNat width ∧ length ≤ 2 ^ (8 * width) - 1

namespace Value

/-- The parts of a value, each with the child indices that lead to it. -/
inductive PartAt : Value → List Nat → Value → Prop where
  | whole (value : Value) : PartAt value [] value
  | item {items : List Value} {item part : Value} {path : List Nat} :
      item ∈ items → PartAt item path part → PartAt (.sequence items) (0 :: path) part
  | key {entries : List (Value × Value)} {entry : Value × Value} {part : Value}
      {path : List Nat} :
      entry ∈ entries → PartAt entry.1 path part → PartAt (.map entries) (0 :: path) part
  | value {entries : List (Value × Value)} {entry : Value × Value} {part : Value}
      {path : List Nat} :
      entry ∈ entries → PartAt entry.2 path part → PartAt (.map entries) (1 :: path) part
  | member {members : List Value} {position : Nat} {member part : Value} {path : List Nat} :
      members[position]? = some member → PartAt member path part →
      PartAt (.record members) (position :: path) part
  | held {index : Nat} {value part : Value} {path : List Nat} :
      PartAt value path part → PartAt (.holding index value) (index :: path) part

mutual

/-- The greatest number of frames that are open at once while a value is written. -/
def nesting : Value → Nat
  | .leaf _ => 0
  | .sequence items => 1 + nestingAll items
  | .map entries => 1 + nestingEntries entries
  | .record members => 1 + nestingAll members
  | .vacant => 0
  | .holding _ value => 1 + nesting value

def nestingAll : List Value → Nat
  | [] => 0
  | value :: rest => max (nesting value) (nestingAll rest)

/-- Every entry has a frame of its own. -/
def nestingEntries : List (Value × Value) → Nat
  | [] => 0
  | (key, value) :: rest => max (1 + max (nesting key) (nesting value)) (nestingEntries rest)

end

/-- The number that the length field of a value holds, if it has one. A text counts its NUL. -/
def prefixed? : Value → Option Nat
  | .leaf (.text value) => some ((Utf8.encode value).length + 1)
  | .leaf (.bytes value) => some value.length
  | .sequence items => some items.length
  | .map entries => some entries.length
  | _ => none

/-- What a value must be like to be encoded with a deployment under limits. -/
structure Encodable (deployment : Option Deployment) (limits : Limits) (value : Value) : Prop where
  filled : ∀ path, ¬ value.PartAt path .vacant
  tags : ∀ path index held, value.PartAt path (.holding index held) → index ≤ 255
  texts : ∀ path text, value.PartAt path (.leaf (.text text)) →
    (Utf8.encode text).length ≤ limits.maxStringLength
  buffers : ∀ path run, value.PartAt path (.leaf (.bytes run)) →
    run.length ≤ limits.maxStringLength
  sequences : ∀ path items, value.PartAt path (.sequence items) →
    items.length ≤ limits.maxSequenceLength
  maps : ∀ path entries, value.PartAt path (.map entries) →
    entries.length ≤ limits.maxSequenceLength
  shallow : value.nesting ≤ limits.maxDepth
  prefixes : ∀ path part length, value.PartAt path part → part.prefixed? = some length →
    LengthFits length (nodeAt deployment path)

/-! ## Conditions on all parts -/

def EveryPart (holds : List Nat → Value → Prop) (value : Value) : Prop :=
  ∀ path part, value.PartAt path part → holds path part

section EveryPart

variable {holds : List Nat → Value → Prop}

theorem everyPart_leaf_iff {value : Leaf} :
    EveryPart holds (.leaf value) ↔ holds [] (.leaf value) := by
  constructor
  · intro every
    exact every _ _ (.whole _)
  · intro whole path part standing
    cases standing with
    | whole => exact whole

theorem everyPart_sequence_iff {items : List Value} :
    EveryPart holds (.sequence items) ↔
      holds [] (.sequence items) ∧
        ∀ item ∈ items, EveryPart (fun path => holds (0 :: path)) item := by
  constructor
  · intro every
    refine ⟨every _ _ (.whole _), ?_⟩
    intro item itemMem path part standing
    exact every _ _ (.item itemMem standing)
  · rintro ⟨whole, itemsHold⟩ path part standing
    cases standing with
    | whole => exact whole
    | item itemMem standing => exact itemsHold _ itemMem _ _ standing

theorem everyPart_map_iff {entries : List (Value × Value)} :
    EveryPart holds (.map entries) ↔
      holds [] (.map entries) ∧
        ∀ entry ∈ entries, EveryPart (fun path => holds (0 :: path)) entry.1 ∧
          EveryPart (fun path => holds (1 :: path)) entry.2 := by
  constructor
  · intro every
    refine ⟨every _ _ (.whole _), ?_⟩
    intro entry entryMem
    constructor
    · intro path part standing
      exact every _ _ (.key entryMem standing)
    · intro path part standing
      exact every _ _ (.value entryMem standing)
  · rintro ⟨whole, entriesHold⟩ path part standing
    cases standing with
    | whole => exact whole
    | key entryMem standing => exact (entriesHold _ entryMem).1 _ _ standing
    | value entryMem standing => exact (entriesHold _ entryMem).2 _ _ standing

theorem everyPart_record_iff {members : List Value} :
    EveryPart holds (.record members) ↔
      holds [] (.record members) ∧
        ∀ position member, members[position]? = some member →
          EveryPart (fun path => holds (position :: path)) member := by
  constructor
  · intro every
    refine ⟨every _ _ (.whole _), ?_⟩
    intro position member found path part standing
    exact every _ _ (.member found standing)
  · rintro ⟨whole, membersHold⟩ path part standing
    cases standing with
    | whole => exact whole
    | member found standing => exact membersHold _ _ found _ _ standing

theorem everyPart_holding_iff {index : Nat} {value : Value} :
    EveryPart holds (.holding index value) ↔
      holds [] (.holding index value) ∧ EveryPart (fun path => holds (index :: path)) value := by
  constructor
  · intro every
    refine ⟨every _ _ (.whole _), ?_⟩
    intro path part standing
    exact every _ _ (.held standing)
  · rintro ⟨whole, valueHolds⟩ path part standing
    cases standing with
    | whole => exact whole
    | held standing => exact valueHolds _ _ standing

end EveryPart

/-! ## Depth -/

variable {limits : Limits} {depth : Nat}

/-- Parts of a frame find room if the frame does and each of them does. -/
theorem add_nestingAll_le_iff {items : List Value} {bound : Nat} :
    depth + nestingAll items ≤ bound ↔
      depth ≤ bound ∧ ∀ item ∈ items, depth + item.nesting ≤ bound := by
  induction items with
  | nil => simp [nestingAll]
  | cons item rest ih =>
      rw [nestingAll, ← Nat.add_max_add_left, Nat.max_le, ih, List.forall_mem_cons]
      exact and_left_comm

theorem add_nestingEntries_le_iff {entries : List (Value × Value)} {bound : Nat} :
    depth + nestingEntries entries ≤ bound ↔
      depth ≤ bound ∧ ∀ entry ∈ entries, depth + 1 ≤ bound ∧
        depth + 1 + entry.1.nesting ≤ bound ∧ depth + 1 + entry.2.nesting ≤ bound := by
  induction entries with
  | nil => simp [nestingEntries]
  | cons entry rest ih =>
      have entryIff : depth + (1 + max entry.1.nesting entry.2.nesting) ≤ bound ↔
          depth + 1 ≤ bound ∧
            depth + 1 + entry.1.nesting ≤ bound ∧ depth + 1 + entry.2.nesting ≤ bound := by
        omega
      rw [nestingEntries, ← Nat.add_max_add_left, Nat.max_le, ih, List.forall_mem_cons, entryIff]
      exact and_left_comm

/-! ## Steps -/

/-- A length has a field to stand in, whatever chunks come with it. -/
theorem exists_length?_iff {length : Nat} {deployment : Option Deployment}
    {chunksWith : Chunk → List Chunk} :
    (∃ chunks, (Chunk.length? length deployment).map chunksWith = some chunks) ↔
      LengthFits length deployment := by
  have fitsIff (width : LengthWidth) :
      length ≤ width.greatest ↔ length ≤ 2 ^ (8 * width.size) - 1 := by
    cases width <;> rfl
  simp only [Chunk.length?, LengthWidth.ofDeployment, LengthFits]
  cases deployment.bind (·.integerHint? lengthWidthHint) with
  | none => simp [fitsIff, LengthWidth.size]
  | some hint =>
      dsimp only
      split_ifs with one two four
      · simp [fitsIff, LengthWidth.size, one]
      · simp [fitsIff, LengthWidth.size, two]
      · simp [fitsIff, LengthWidth.size, four]
      · simp [one, two, four]

theorem writable_call_iff {call : WriteCall} :
    Writable limits depth [.call call] ↔
      (∃ chunks, call.chunks? = some chunks) ∧ call.limitFault? limits depth = none := by
  constructor
  · rintro ⟨⟨chunks, described⟩, within⟩
    rcases chunksAll?_cons_eq_some_iff.1 described with ⟨first, _, firstDescribed, _, _⟩
    exact ⟨⟨first, firstDescribed⟩, (Option.or_eq_none_iff.1 within).1⟩
  · rintro ⟨⟨chunks, described⟩, within⟩
    refine ⟨⟨chunks ++ [], chunksAll?_cons_eq_some_iff.2 ⟨chunks, [], described, rfl, rfl⟩⟩, ?_⟩
    exact Option.or_eq_none_iff.2 ⟨within, rfl⟩

/-- What is asked of a value itself, whatever its parts are. -/
def HeadFits (deployment : Option Deployment) (limits : Limits) : Value → Prop
  | .leaf (.text value) => (Utf8.encode value).length ≤ limits.maxStringLength ∧
      LengthFits ((Utf8.encode value).length + 1) deployment
  | .leaf (.bytes value) => value.length ≤ limits.maxStringLength ∧
      LengthFits value.length deployment
  | .leaf _ => True
  | .sequence items => items.length ≤ limits.maxSequenceLength ∧
      LengthFits items.length deployment
  | .map entries => entries.length ≤ limits.maxSequenceLength ∧
      LengthFits entries.length deployment
  | .record _ => True
  | .vacant => False
  | .holding index _ => index ≤ 255

variable {deployment : Option Deployment}

theorem writable_leaf_iff {value : Leaf} :
    Writable limits depth [.call (.leaf value deployment)] ↔
      (Value.leaf value).HeadFits deployment limits := by
  rw [writable_call_iff]
  cases value with
  | bool value => simp [WriteCall.chunks?, WriteCall.limitFault?, WriteCall.lengthFault?, HeadFits]
  | number value =>
      simp [WriteCall.chunks?, WriteCall.limitFault?, WriteCall.lengthFault?, HeadFits]
  | text value =>
      simp only [WriteCall.chunks?, WriteCall.limitFault?, WriteCall.lengthFault?, HeadFits,
        StreamError.overLimit?_eq_none_iff, exists_length?_iff, and_comm]
  | bytes value =>
      simp only [WriteCall.chunks?, WriteCall.limitFault?, WriteCall.lengthFault?, HeadFits,
        StreamError.overLimit?_eq_none_iff, exists_length?_iff, and_comm]

theorem writable_entering_iff {opening : Opening} :
    Writable limits depth [entering opening deployment] ↔
      ((∃ chunks, (WriteCall.enter opening deployment).chunks? = some chunks) ∧
        (WriteCall.enter opening deployment).lengthFault? limits = none) ∧
          depth + 1 ≤ limits.maxDepth := by
  rw [entering, writable_call_iff, WriteCall.limitFault?, Option.or_eq_none_iff,
    StreamError.overLimit?_eq_none_iff, and_assoc]

theorem writable_entering_sequence_iff {items : List Value} :
    Writable limits depth [entering (.sequence items.length) deployment] ↔
      (Value.sequence items).HeadFits deployment limits ∧ depth + 1 ≤ limits.maxDepth := by
  simp only [writable_entering_iff, WriteCall.chunks?, WriteCall.lengthFault?, HeadFits,
    StreamError.overLimit?_eq_none_iff, exists_length?_iff, and_comm]

theorem writable_entering_map_iff {entries : List (Value × Value)} :
    Writable limits depth [entering (.map entries.length) deployment] ↔
      (Value.map entries).HeadFits deployment limits ∧ depth + 1 ≤ limits.maxDepth := by
  simp only [writable_entering_iff, WriteCall.chunks?, WriteCall.lengthFault?, HeadFits,
    StreamError.overLimit?_eq_none_iff, exists_length?_iff, and_comm]

theorem writable_entering_mapEntry_iff :
    Writable limits depth [entering .mapEntry deployment] ↔ depth + 1 ≤ limits.maxDepth := by
  simp [writable_entering_iff, WriteCall.chunks?, WriteCall.lengthFault?]

theorem writable_entering_struct_iff :
    Writable limits depth [entering .struct deployment] ↔ depth + 1 ≤ limits.maxDepth := by
  simp [writable_entering_iff, WriteCall.chunks?, WriteCall.lengthFault?]

theorem writable_entering_variant_iff {index : Nat} :
    Writable limits depth [entering (.variant index) deployment] ↔
      index ≤ 255 ∧ depth + 1 ≤ limits.maxDepth := by
  simp [writable_entering_iff, WriteCall.chunks?, WriteCall.lengthFault?]

theorem writable_memberSteps_iff {members : List Value} {position : Nat} :
    Writable limits depth (memberSteps members deployment position) ↔
      ∀ (index : Nat) (member : Value), members[index]? = some member →
        Writable limits depth (member.steps (childOf deployment (position + index))) := by
  induction members generalizing position with
  | nil => simp [memberSteps, writable_nil]
  | cons member rest ih =>
      rw [memberSteps, writable_append_iff, (member.balanced_steps _).depthAfterAll_eq, ih]
      constructor
      · rintro ⟨first, others⟩ index foundMember found
        cases index with
        | zero =>
            cases found
            exact first
        | succ index =>
            have shifted : position + (index + 1) = position + 1 + index := by omega
            rw [shifted]
            exact others index foundMember found
      · intro every
        refine ⟨every 0 member rfl, ?_⟩
        intro index foundMember found
        rw [Nat.add_right_comm]
        exact every (index + 1) foundMember found

/-- What an entry of a map asks for, if it is known what its key and its value ask for. -/
theorem entryWritable_iff {entries : List (Value × Value)} {fits : Option Deployment → Value → Prop}
    (keys : ∀ entry ∈ entries, ∀ {depth deployment}, depth ≤ limits.maxDepth →
      (Writable limits depth (entry.1.steps deployment) ↔
        fits deployment entry.1 ∧ depth + entry.1.nesting ≤ limits.maxDepth))
    (values : ∀ entry ∈ entries, ∀ {depth deployment}, depth ≤ limits.maxDepth →
      (Writable limits depth (entry.2.steps deployment) ↔
        fits deployment entry.2 ∧ depth + entry.2.nesting ≤ limits.maxDepth))
    {keyDeployment valueDeployment : Option Deployment} {entry : Value × Value}
    (entryMem : entry ∈ entries) :
    EntryWritable limits depth keyDeployment valueDeployment entry ↔
      (fits keyDeployment entry.1 ∧ fits valueDeployment entry.2) ∧
        depth + 1 ≤ limits.maxDepth ∧ depth + 1 + entry.1.nesting ≤ limits.maxDepth ∧
          depth + 1 + entry.2.nesting ≤ limits.maxDepth := by
  rw [EntryWritable, writable_entering_mapEntry_iff]
  constructor
  · rintro ⟨opened, keyWritten, valueWritten⟩
    rcases (keys entry entryMem opened).1 keyWritten with ⟨keyFits, keyRoom⟩
    rcases (values entry entryMem opened).1 valueWritten with ⟨valueFits, valueRoom⟩
    exact ⟨⟨keyFits, valueFits⟩, opened, keyRoom, valueRoom⟩
  · rintro ⟨⟨keyFits, valueFits⟩, opened, keyRoom, valueRoom⟩
    exact ⟨opened, (keys entry entryMem opened).2 ⟨keyFits, keyRoom⟩,
      (values entry entryMem opened).2 ⟨valueFits, valueRoom⟩⟩

/-- A value can be written where no more frames are open than allowed if every part has what is
asked of it, and the frames of the value leave room. -/
theorem writable_steps_iff (value : Value) (within : depth ≤ limits.maxDepth) :
    Writable limits depth (value.steps deployment) ↔
      value.EveryPart (fun path part => part.HeadFits (nodeAt deployment path) limits) ∧
        depth + value.nesting ≤ limits.maxDepth := by
  induction value generalizing depth deployment with
  | leaf value =>
      rw [steps, writable_leaf_iff, everyPart_leaf_iff, nesting]
      exact (and_iff_left within).symm
  | sequence items parts =>
      rw [steps, writable_bracketed_iff, writable_itemSteps_iff, writable_entering_sequence_iff,
        everyPart_sequence_iff, nesting, ← Nat.add_assoc, add_nestingAll_le_iff]
      constructor
      · rintro ⟨⟨fits, opened⟩, written⟩
        have itemsFit := fun item itemMem =>
          (parts item itemMem opened).1 (written item itemMem)
        exact ⟨⟨fits, fun item itemMem => (itemsFit item itemMem).1⟩, opened,
          fun item itemMem => (itemsFit item itemMem).2⟩
      · rintro ⟨⟨fits, itemsFit⟩, opened, room⟩
        refine ⟨⟨fits, opened⟩, ?_⟩
        intro item itemMem
        exact (parts item itemMem opened).2 ⟨itemsFit item itemMem, room item itemMem⟩
  | map entries keys values =>
      rw [steps, writable_bracketed_iff, writable_entrySteps_iff, writable_entering_map_iff,
        everyPart_map_iff, nesting, ← Nat.add_assoc, add_nestingEntries_le_iff]
      constructor
      · rintro ⟨⟨fits, opened⟩, written⟩
        have entriesFit : ∀ entry ∈ entries, _ := fun entry entryMem =>
          (entryWritable_iff keys values entryMem).1 (written entry entryMem)
        exact ⟨⟨fits, fun entry entryMem => (entriesFit entry entryMem).1⟩, opened,
          fun entry entryMem => (entriesFit entry entryMem).2⟩
      · rintro ⟨⟨fits, entriesFit⟩, opened, room⟩
        refine ⟨⟨fits, opened⟩, ?_⟩
        intro entry entryMem
        exact (entryWritable_iff keys values entryMem).2
          ⟨entriesFit entry entryMem, room entry entryMem⟩
  | record members parts =>
      rw [steps, writable_bracketed_iff, writable_memberSteps_iff, writable_entering_struct_iff,
        everyPart_record_iff, nesting, ← Nat.add_assoc, add_nestingAll_le_iff]
      simp only [Nat.zero_add]
      constructor
      · rintro ⟨opened, written⟩
        have membersFit := fun position member found =>
          (parts member (List.mem_of_getElem? found) opened).1 (written position member found)
        refine ⟨⟨trivial, fun position member found => (membersFit position member found).1⟩,
          opened, ?_⟩
        intro member memberMem
        rcases List.getElem?_of_mem memberMem with ⟨position, found⟩
        exact (membersFit position member found).2
      · rintro ⟨⟨_, membersFit⟩, opened, room⟩
        refine ⟨opened, ?_⟩
        intro position member found
        have memberMem := List.mem_of_getElem? found
        exact (parts member memberMem opened).2
          ⟨membersFit position member found, room member memberMem⟩
  | vacant =>
      constructor
      · rintro ⟨⟨chunks, described⟩, _⟩
        cases described
      · rintro ⟨fits, _⟩
        exact (fits _ _ (.whole _)).elim
  | holding index value ih =>
      rw [steps, writable_bracketed_iff, writable_entering_variant_iff, everyPart_holding_iff,
        nesting, ← Nat.add_assoc]
      constructor
      · rintro ⟨⟨fits, opened⟩, written⟩
        rcases (ih opened).1 written with ⟨valueFits, room⟩
        exact ⟨⟨fits, valueFits⟩, room⟩
      · rintro ⟨⟨fits, valueFits⟩, room⟩
        have opened : depth + 1 ≤ limits.maxDepth := Nat.le_of_add_right_le room
        exact ⟨⟨fits, opened⟩, (ih opened).2 ⟨valueFits, room⟩⟩

theorem encodable_iff {value : Value} :
    value.Encodable deployment limits ↔
      value.EveryPart (fun path part => part.HeadFits (nodeAt deployment path) limits) ∧
        value.nesting ≤ limits.maxDepth := by
  constructor
  · intro encodable
    refine ⟨?_, encodable.shallow⟩
    intro path part standing
    cases part with
    | leaf leaf =>
        cases leaf with
        | bool flag => trivial
        | number number => trivial
        | text text =>
            exact ⟨encodable.texts path text standing, encodable.prefixes path _ _ standing rfl⟩
        | bytes run =>
            exact ⟨encodable.buffers path run standing, encodable.prefixes path _ _ standing rfl⟩
    | sequence items =>
        exact ⟨encodable.sequences path items standing,
          encodable.prefixes path _ _ standing rfl⟩
    | map entries =>
        exact ⟨encodable.maps path entries standing, encodable.prefixes path _ _ standing rfl⟩
    | record members => trivial
    | vacant => exact encodable.filled path standing
    | holding index held => exact encodable.tags path index held standing
  · rintro ⟨fits, shallow⟩
    refine
      { filled := fun path standing => fits path _ standing
        tags := fun path index held standing => fits path _ standing
        texts := fun path text standing => (fits path _ standing).1
        buffers := fun path run standing => (fits path _ standing).1
        sequences := fun path items standing => (fits path _ standing).1
        maps := fun path entries standing => (fits path _ standing).1
        shallow
        prefixes := ?_ }
    intro path part length standing prefixed
    have headFits := fits path part standing
    cases part with
    | leaf leaf =>
        cases leaf with
        | bool flag => cases prefixed
        | number number => cases prefixed
        | text text =>
            cases prefixed
            exact headFits.2
        | bytes run =>
            cases prefixed
            exact headFits.2
    | sequence items =>
        cases prefixed
        exact headFits.2
    | map entries =>
        cases prefixed
        exact headFits.2
    | record members => cases prefixed
    | vacant => cases prefixed
    | holding index held => cases prefixed

end Value

/-- A value is encoded exactly if each of its parts can be: variants hold something whose tag is a
byte, texts, buffers, sequences and maps keep to the limits and to the length fields that the
deployment at their path selects, and the frames open at once are no more than allowed. -/
theorem encode_succeeds_iff (value : Value) (deployment : Option Deployment) (limits : Limits) :
    (∃ bytes, encode value deployment limits = .ok bytes) ↔ value.Encodable deployment limits := by
  have writtenIff : Writable limits 0 (value.steps deployment) ↔ _ :=
    value.writable_steps_iff (Nat.zero_le limits.maxDepth)
  rw [Nat.zero_add, ← Value.encodable_iff] at writtenIff
  rw [← writtenIff]
  constructor
  · rintro ⟨bytes, encoded⟩
    rcases Value.encode_eq_ok_iff.1 encoded with ⟨chunks, described, within, _⟩
    exact ⟨⟨chunks, described⟩, within⟩
  · rintro ⟨⟨chunks, described⟩, within⟩
    exact ⟨_, Value.encode_eq_ok_iff.2 ⟨chunks, described, within, rfl⟩⟩

end ValueBus
