import ValueBus.Codec
import ValueBus.Proofs.Careful
import ValueBus.Proofs.MemoryLatch
import ValueBus.Proofs.TwoLimits

/-!
# Results that limits have no part in

What is encoded or decoded under some limits comes to the same under larger ones, unless it was a
limit that ended it. So a limit has no other effect than its own error: bytes that are malformed
are malformed in the same way under all limits that they get past.

A program that reads a type is the same under all limits but for its allowance of declared types,
which grows with the depth limit. Where the smaller allowance runs out, the program with it fails
with a limit.
-/

namespace ValueBus

/-- The result is that a limit was exceeded. -/
def OverLimit {α : Type} (result : Except Error α) : Prop :=
  ∃ what limit actual, result = .error (.serialization (.limitExceeded what limit actual))

variable {tight loose : Limits}

namespace ReadProgram

variable {α β : Type}

/-- One program under limits comes to the same as the other under larger ones. -/
abbrev Relaxes (tight loose : Limits) (program other : ReadProgram α) : Prop :=
  Action.Matches (Relaxed tight loose : MemoryReader → MemoryReader → Prop) program.run other.run

namespace Relaxes

theorem refl (within : tight.Within loose) (program : ReadProgram α) :
    Relaxes tight loose program program := by
  have checked {γ : Type} {call : Action MemoryReader γ}
      (callAlike : Alike tight loose call call) :
      Action.Matches (Relaxed tight loose) (Latch.check >>= fun _ => call)
        (Latch.check >>= fun _ => call) :=
    .check Relaxed.sameLatch callAlike
  induction program with
  | done value => exact .pure value
  | raise fault => exact .raise Relaxed.sameLatch fault
  | leaf kind deployment next ih =>
      exact (checked (MemoryReader.takeLeaf_alike within kind deployment)).bind ih
  | enter kind deployment next ih =>
      exact (checked (MemoryReader.enter_alike within kind deployment)).bind ih
  | leave kind next ih => exact (checked (MemoryReader.closeFrame_alike kind)).bind fun _ => ih
  | hasMore kind next ih => exact (MemoryReader.hasMore_alike kind).bind ih
  | check next ih =>
      have passed := checked (.pure ())
      rw [bind_pure_unit] at passed
      exact passed.bind fun _ => ih

theorem bind {program other : ReadProgram α} {next following : α → ReadProgram β}
    (relaxes : Relaxes tight loose program other)
    (nextRelaxes : ∀ answer, Relaxes tight loose (next answer) (following answer)) :
    Relaxes tight loose (program >>= next) (other >>= following) := by
  unfold Relaxes
  rw [run_bind, run_bind]
  exact Action.Matches.bind relaxes nextRelaxes

theorem map {program other : ReadProgram α} (relaxes : Relaxes tight loose program other)
    (change : α → β) : Relaxes tight loose (change <$> program) (change <$> other) :=
  relaxes.bind fun answer => .pure (change answer)

theorem repeatWhile (within : tight.Within loose) {kind : Repetition}
    {item other : α → ReadProgram α}
    (itemRelaxes : ∀ state, Relaxes tight loose (item state) (other state))
    (count : Nat) (state : α) :
    Relaxes tight loose (ReadProgram.repeatWhile kind item count state)
      (ReadProgram.repeatWhile kind other count state) := by
  induction count generalizing state with
  | zero => exact refl within _
  | succ count ih =>
      apply (refl within (more kind)).bind
      intro answer
      cases answer with
      | false => exact refl within _
      | true => exact (itemRelaxes state).bind ih

end Relaxes

end ReadProgram

open ReadProgram (Relaxes)
open Deployment (childOf)

namespace Schema

variable {declared other : Declared → Option Deployment → ReadProgram Value}

theorem relaxes_entry (within : tight.Within loose) {mapOrder : MapOrder}
    {key otherKey value otherValue : ReadProgram Value}
    (keyRelaxes : Relaxes tight loose key otherKey)
    (valueRelaxes : Relaxes tight loose value otherValue) (read : List (Value × Value)) :
    Relaxes tight loose (ReadProgram.readEntry mapOrder key value read)
      (ReadProgram.readEntry mapOrder otherKey otherValue read) := by
  apply (Relaxes.refl within _).bind
  intro _
  apply keyRelaxes.bind
  intro key
  apply valueRelaxes.bind
  intro value
  exact .refl within _

theorem relaxes_members {types : List DataType}
    (typesRelax : ∀ type ∈ types, ∀ deployment,
      Relaxes tight loose (type.readWith declared deployment) (type.readWith other deployment))
    (deployment : Option Deployment) (position : Nat) :
    Relaxes tight loose (DataType.readMembersWith declared types deployment position)
      (DataType.readMembersWith other types deployment position) := by
  induction types generalizing position with
  | nil => exact .pure []
  | cons type rest ih =>
      rw [List.forall_mem_cons] at typesRelax
      simp only [DataType.readMembersWith]
      apply (typesRelax.1 _).bind
      intro member
      exact (ih typesRelax.2 _).bind fun members => .pure (member :: members)

theorem relaxes_readWith (within : tight.Within loose)
    (declaredRelaxes : ∀ name deployment,
      Relaxes tight loose (declared name deployment) (other name deployment))
    (type : DataType) (deployment : Option Deployment) :
    Relaxes tight loose (type.readWith declared deployment) (type.readWith other deployment) := by
  induction type generalizing deployment with
  | leaf kind =>
      simp only [DataType.readWith]
      exact .refl within _
  | enumeration choices =>
      simp only [DataType.readWith]
      exact .refl within _
  | ranged range =>
      simp only [DataType.readWith]
      exact .refl within _
  | boxed content ih => exact ih deployment
  | sequence item ih =>
      simp only [DataType.readWith]
      apply (Relaxes.refl within _).bind
      intro opening
      apply (Relaxes.repeatWhile within (fun read => (ih _).map _) _ _).bind
      intro items
      exact .refl within _
  | map mapOrder key value keyIh valueIh =>
      simp only [DataType.readWith]
      apply (Relaxes.refl within _).bind
      intro opening
      have entryRelaxes := @relaxes_entry tight loose within mapOrder _ _ _ _
        (keyIh (childOf deployment 0)) (valueIh (childOf deployment 1))
      apply (Relaxes.repeatWhile within entryRelaxes _ _).bind
      intro entries
      exact .refl within _
  | tuple items ih =>
      simp only [DataType.readWith]
      apply (Relaxes.refl within _).bind
      intro _
      apply (relaxes_members ih deployment 0).bind
      intro members
      exact .refl within _
  | declared name => exact declaredRelaxes name deployment

theorem relaxes_readAlternative (within : tight.Within loose)
    (typesRelax : ∀ (type : DataType) (deployment : Option Deployment),
      Relaxes tight loose (type.readWith declared deployment) (type.readWith other deployment))
    (alternatives : List Member) (tag : Nat) (deployment : Option Deployment) :
    Relaxes tight loose (readAlternative declared alternatives tag deployment)
      (readAlternative other alternatives tag deployment) := by
  unfold readAlternative
  split
  · exact (typesRelax _ _).map _
  · exact .refl within _

theorem relaxes_readDeclared (within : tight.Within loose) (schema : Schema) (name : Declared)
    (deployment : Option Deployment) {allowance larger : Nat} (grows : allowance ≤ larger) :
    Relaxes tight loose (schema.readDeclared allowance name deployment)
      (schema.readDeclared larger name deployment) := by
  induction allowance generalizing name deployment larger with
  | zero =>
      -- The smaller allowance has run out, which is a limit, and the larger one leads on.
      exact .exceeds Relaxed.sameLatch (schema.readDeclared_refuses larger name deployment)
  | succ allowance ih =>
      cases larger with
      | zero => exact absurd grows (Nat.not_succ_le_zero _)
      | succ larger =>
          have inside (type : DataType) (deployment : Option Deployment) :=
            relaxes_readWith within
              (fun name deployment => ih name deployment (Nat.le_of_succ_le_succ grows))
              type deployment
          cases name with
          | record name =>
              simp only [readDeclared]
              apply (Relaxes.refl within _).bind
              intro _
              apply (relaxes_members (fun type _ => inside type) deployment 0).bind
              intro members
              exact .refl within _
          | variant set =>
              simp only [readDeclared]
              apply (Relaxes.refl within _).bind
              intro opening
              apply (relaxes_readAlternative within inside _ _ _).bind
              intro value
              exact .refl within _

theorem read_alike (within : tight.Within loose) (schema : Schema) (type : DataType)
    (bytes : List UInt8) (deployment : Option Deployment) :
    Action.SameResult (Relaxed tight loose)
      (schema.read type deployment (MemoryReader.ofBytes bytes tight))
      (schema.read type deployment (MemoryReader.ofBytes bytes loose)) := by
  have grows : schema.allowance (MemoryReader.ofBytes bytes tight) ≤
      schema.allowance (MemoryReader.ofBytes bytes loose) :=
    Nat.mul_le_mul_right _ (Nat.succ_le_succ within.depth)
  have programRelaxes := relaxes_readWith within
    (fun name deployment => schema.relaxes_readDeclared within name deployment grows)
    type deployment
  exact programRelaxes ⟨rfl, rfl⟩

end Schema

theorem MemoryWriter.runAll_alike (within : tight.Within loose) (steps : List WriteStep) :
    Action.Matches (Relaxed tight loose)
      (WriteStep.runAll steps : Action MemoryWriter Unit) (WriteStep.runAll steps) := by
  induction steps with
  | nil => exact .pure ()
  | cons step rest ih =>
      refine Action.Matches.bind ?_ fun _ => ih
      cases step with
      | call request => exact perform_alike within request
      | raise fault => exact .raise Relaxed.sameLatch fault

theorem overLimit_of_isLimit {α : Type} {fault : StreamError} (limitFault : fault.IsLimit) :
    OverLimit (.error (.ofStream fault) : Except Error α) := by
  rcases limitFault with ⟨what, limit, actual, rfl⟩
  exact ⟨what, limit, actual, rfl⟩

theorem decode_relaxed (within : tight.Within loose) {schema : Schema} {type : DataType}
    {bytes : List UInt8} {deployment : Option Deployment}
    (unlimited : ¬ OverLimit (decode schema type bytes deployment tight)) :
    decode schema type bytes deployment loose = decode schema type bytes deployment tight := by
  have same := schema.read_alike within type bytes deployment
  unfold decode at unlimited ⊢
  generalize schema.read type deployment (MemoryReader.ofBytes bytes tight) = result
    at same unlimited ⊢
  generalize schema.read type deployment (MemoryReader.ofBytes bytes loose) = other at same ⊢
  cases same with
  | ok states =>
      rcases states with ⟨_, rfl⟩
      rfl
  | error => rfl
  | exceeded limitFault => exact absurd (overLimit_of_isLimit limitFault) unlimited

theorem encode_relaxed (within : tight.Within loose) {value : Value}
    {deployment : Option Deployment} (unlimited : ¬ OverLimit (encode value deployment tight)) :
    encode value deployment loose = encode value deployment tight := by
  have same := MemoryWriter.runAll_alike within (value.steps deployment)
    (⟨rfl, rfl⟩ : Relaxed tight loose (.withLimits tight) (.withLimits loose))
  unfold encode WriteStep.encode at unlimited ⊢
  generalize WriteStep.runAll (value.steps deployment) (MemoryWriter.withLimits tight) = result
    at same unlimited ⊢
  generalize WriteStep.runAll (value.steps deployment) (MemoryWriter.withLimits loose) = other
    at same ⊢
  cases same with
  | ok states =>
      rcases states with ⟨_, rfl⟩
      rfl
  | error => rfl
  | exceeded limitFault => exact absurd (overLimit_of_isLimit limitFault) unlimited

/-- Limits that are not below others change nothing but what the others refused. -/
theorem larger_limits_keep_results (within : tight.Within loose) :
    (∀ (schema : Schema) (type : DataType) (bytes : List UInt8) (deployment : Option Deployment),
      ¬ OverLimit (decode schema type bytes deployment tight) →
        decode schema type bytes deployment loose = decode schema type bytes deployment tight) ∧
    ∀ (value : Value) (deployment : Option Deployment),
      ¬ OverLimit (encode value deployment tight) →
        encode value deployment loose = encode value deployment tight :=
  ⟨fun _ _ _ _ unlimited => decode_relaxed within unlimited,
    fun _ _ unlimited => encode_relaxed within unlimited⟩

/-- Two texts, the second of which is not well formed. -/
def brokenTexts : List UInt8 :=
  [2, 0, 0, 0, 2, 0, 0, 0, 97, 0, 0, 0, 2, 0, 0, 0, 255, 0]

def narrow : Limits := { maxDepth := 1, maxStringLength := 4, maxSequenceLength := 2 }

theorem larger_limits_keep_results_narrow :
    narrow.Within {} ∧
      ¬ OverLimit (decode {} (.sequence (.leaf .text)) brokenTexts none narrow) ∧
      decode {} (.sequence (.leaf .text)) brokenTexts none {} =
        .error (.serialization (.invalidData (.notUtf8 (.invalid 1 0)))) ∧
      ¬ OverLimit (encode (.sequence [.leaf (.text "a")]) none narrow) ∧
      encode (.sequence [.leaf (.text "a")]) none {} = .ok [1, 0, 0, 0, 2, 0, 0, 0, 97, 0] := by
  have within : narrow.Within {} := ⟨by decide, by decide, by decide⟩
  have decoded : decode {} (.sequence (.leaf .text)) brokenTexts none narrow =
      .error (.serialization (.invalidData (.notUtf8 (.invalid 1 0)))) := rfl
  have encoded : encode (.sequence [.leaf (.text "a")]) none narrow =
      .ok [1, 0, 0, 0, 2, 0, 0, 0, 97, 0] := rfl
  have malformed : ¬ OverLimit (decode {} (.sequence (.leaf .text)) brokenTexts none narrow) := by
    rw [decoded]
    rintro ⟨what, limit, actual, exceeded⟩
    cases exceeded
  have written : ¬ OverLimit (encode (.sequence [.leaf (.text "a")]) none narrow) := by
    rw [encoded]
    rintro ⟨what, limit, actual, exceeded⟩
    cases exceeded
  rcases larger_limits_keep_results within with ⟨decodeKept, encodeKept⟩
  exact ⟨within, malformed, (decodeKept _ _ _ _ malformed).trans decoded, written,
    (encodeKept _ _ written).trans encoded⟩

/-- What a limit ended may come to anything under larger limits. -/
example :
    decode {} (.sequence (.leaf .text)) brokenTexts none { narrow with maxSequenceLength := 1 } =
        .error (.serialization (.limitExceeded .sequence 1 2)) ∧
      decode {} (.sequence (.leaf .text)) brokenTexts none narrow =
        .error (.serialization (.invalidData (.notUtf8 (.invalid 1 0)))) :=
  ⟨rfl, rfl⟩

end ValueBus
