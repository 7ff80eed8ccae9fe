import Mathlib.Data.Nat.ModEq
import Mathlib.Data.Nat.Prime.Basic
import Mathlib.Order.Bounds.Basic
import ValueBus.Proofs.Writing

/-!
# Writing at another position

What is written for a value depends on where it starts only through the padding, and padding goes to
the least multiple of an alignment. Every alignment of the format divides 8. So the padding of every
chunk is the same wherever the offset leaves the same remainder modulo 8, and since a chunk and its
padding move the offset by the same amount, this carries over to the next chunk.

What a writer held before is kept in any case, and whether it accepts a value depends on its limits
and on the number of its open frames alone.
-/

namespace ValueBus

/-- For a power of two, an offset is rounded up to the least multiple that is not below it. -/
theorem isLeast_alignUp (offset : Nat) {power : Nat} (fits : 2 ^ power ≤ greatestAlignment) :
    IsLeast {position | offset ≤ position ∧ 2 ^ power ∣ position} (alignUp offset (2 ^ power)) := by
  refine ⟨⟨le_alignUp fits, ?_⟩, ?_⟩
  · rw [alignUp_eq fits, Nat.and_two_pow_sub_one_eq_mod]
    exact Nat.dvd_sub_mod _
  · rintro position ⟨behind, factor, rfl⟩
    have positive : 0 < 2 ^ power := Nat.two_pow_pos power
    have below : offset + (2 ^ power - 1) < 2 ^ power * (factor + 1) := by
      rw [Nat.mul_succ]
      omega
    have quotientLe := Nat.le_of_lt_succ (Nat.div_lt_of_lt_mul below)
    rw [alignUp_eq fits, Nat.and_two_pow_sub_one_eq_mod, ← Nat.mul_div_self_eq_mod_sub_self]
    exact Nat.mul_le_mul_left _ quotientLe

namespace Chunk

/-- The alignments of the format are the powers of two up to 8. -/
def Natural (chunk : Chunk) : Prop :=
  chunk.alignment ∣ 8

namespace Natural

variable {chunk : Chunk}

theorem isLeast_start (natural : chunk.Natural) (offset : Nat) :
    IsLeast {position | offset ≤ position ∧ chunk.alignment ∣ position} (chunk.start offset) := by
  rcases (Nat.dvd_prime_pow (i := chunk.alignment) (m := 3) Nat.prime_two).1 natural with
    ⟨power, _, alignmentEq⟩
  have fits := chunk.fits
  rw [alignmentEq] at fits
  rw [start, alignmentEq]
  exact isLeast_alignUp offset fits

theorem padding_le (natural : chunk.Natural) {first second : Nat}
    (congruent : first ≡ second [MOD 8]) :
    chunk.start second - second ≤ chunk.start first - first := by
  rcases natural.isLeast_start first with ⟨⟨behind, multiple⟩, _⟩
  have same := (congruent.of_dvd natural).add_right (chunk.start first - first)
  rw [Nat.add_sub_of_le behind] at same
  have alsoMultiple : chunk.alignment ∣ second + (chunk.start first - first) :=
    (same.dvd_iff (Nat.dvd_refl _)).1 multiple
  have least := (natural.isLeast_start second).2 ⟨Nat.le_add_right _ _, alsoMultiple⟩
  exact Nat.sub_le_of_le_add (Nat.add_comm _ _ ▸ least)

/-- The padding before a chunk depends on the remainder of the offset modulo 8. -/
theorem padding_congr (natural : chunk.Natural) {first second : Nat}
    (congruent : first ≡ second [MOD 8]) :
    chunk.start first - first = chunk.start second - second :=
  Nat.le_antisymm (natural.padding_le congruent.symm) (natural.padding_le congruent)

theorem cells_congr (natural : chunk.Natural) {first second : Nat}
    (congruent : first ≡ second [MOD 8]) : chunk.cells first = chunk.cells second := by
  rw [cells, cells, natural.padding_congr congruent]

end Natural

theorem cellsAll_congr {chunks : List Chunk} (natural : ∀ chunk ∈ chunks, chunk.Natural)
    {first second : Nat} (congruent : first ≡ second [MOD 8]) :
    cellsAll chunks first = cellsAll chunks second := by
  induction chunks generalizing first second with
  | nil => rfl
  | cons chunk rest ih =>
      rcases List.forall_mem_cons.1 natural with ⟨chunkNatural, restNatural⟩
      have cellsEq := chunkNatural.cells_congr congruent
      have moved := congruent.add_right (chunk.cells first).length
      rw [chunk.length_cells, cellsEq, chunk.length_cells] at moved
      rw [cellsAll, cellsAll, cellsEq, ih restNatural moved]

end Chunk

namespace Chunk

theorem natural_plain (run : List UInt8) : (plain run).Natural :=
  Nat.one_dvd 8

theorem natural_number (value : Number) : (number value).Natural := by
  have natural (kind : NumberKind) : kind.size ∣ 8 := by cases kind <;> decide
  exact natural value.kind

theorem natural_of_length? {length : Nat} {deployment : Option Deployment} {chunk : Chunk}
    (described : length? length deployment = some chunk) : chunk.Natural := by
  have natural (width : LengthWidth) : width.size ∣ 8 := by cases width <;> decide
  unfold length? at described
  cases selected : LengthWidth.ofDeployment deployment with
  | error fault => simp [selected] at described
  | ok width =>
      simp only [selected, Option.ite_none_right_eq_some, Option.some.injEq] at described
      rw [← described.2]
      exact natural width

end Chunk

theorem WriteCall.natural_of_chunks? {call : WriteCall} {chunks : List Chunk}
    (described : call.chunks? = some chunks) : ∀ chunk ∈ chunks, chunk.Natural := by
  have boundary : Chunk.boundary.Natural := Nat.dvd_refl 8
  cases call with
  | leaf value deployment =>
      cases value with
      | bool value =>
          cases described
          exact List.forall_mem_singleton.2 (Chunk.natural_plain _)
      | number value =>
          cases described
          exact List.forall_mem_singleton.2 (Chunk.natural_number value)
      | text value =>
          rcases Option.map_eq_some_iff.1 described with ⟨chunk, lengthDescribed, rfl⟩
          rw [List.forall_mem_cons, List.forall_mem_singleton]
          exact ⟨Chunk.natural_of_length? lengthDescribed, Chunk.natural_plain _⟩
      | bytes value =>
          rcases Option.map_eq_some_iff.1 described with ⟨chunk, lengthDescribed, rfl⟩
          rw [List.forall_mem_cons, List.forall_mem_singleton]
          exact ⟨Chunk.natural_of_length? lengthDescribed, Chunk.natural_plain _⟩
  | enter opening deployment =>
      cases opening with
      | struct =>
          cases described
          exact List.forall_mem_singleton.2 boundary
      | polymorphic serial =>
          cases described
          rw [List.forall_mem_cons, List.forall_mem_singleton]
          exact ⟨Chunk.natural_number _, boundary⟩
      | variant tag =>
          simp only [chunks?, Option.ite_none_right_eq_some, Option.some.injEq] at described
          rw [← described.2]
          exact List.forall_mem_singleton.2 (Chunk.natural_plain _)
      | sequence length =>
          rcases Option.map_eq_some_iff.1 described with ⟨chunk, lengthDescribed, rfl⟩
          exact List.forall_mem_singleton.2 (Chunk.natural_of_length? lengthDescribed)
      | map length =>
          rcases Option.map_eq_some_iff.1 described with ⟨chunk, lengthDescribed, rfl⟩
          exact List.forall_mem_singleton.2 (Chunk.natural_of_length? lengthDescribed)
      | mapEntry =>
          cases described
          simp
  | leave kind =>
      cases described
      simp

open WriteStep

theorem WriteStep.natural_of_chunksAll? {steps : List WriteStep} {chunks : List Chunk}
    (described : chunksAll? steps = some chunks) : ∀ chunk ∈ chunks, chunk.Natural := by
  induction steps generalizing chunks with
  | nil =>
      cases described
      simp
  | cons step rest ih =>
      rcases chunksAll?_cons_eq_some_iff.1 described with
        ⟨first, later, firstDescribed, restDescribed, rfl⟩
      cases step with
      | raise error => cases firstDescribed
      | call call =>
          rw [List.forall_mem_append]
          exact ⟨WriteCall.natural_of_chunks? firstDescribed, ih restDescribed⟩

/-- Balanced steps are taken alike by writers that differ in what they hold and which frames are
open, and add the same bytes to either. -/
theorem MemoryWriter.runAll_displaced {steps : List WriteStep} (balanced : Balanced steps)
    {first second : MemoryWriter} (firstUnlatched : first.error = none)
    (secondUnlatched : second.error = none) (limitsEq : first.limits = second.limits)
    (depthEq : first.frames.length = second.frames.length)
    (congruent : first.length ≡ second.length [MOD 8]) :
    ((∃ after, runAll steps first = .ok () after) ↔ ∃ after, runAll steps second = .ok () after) ∧
    ∀ firstAfter secondAfter, runAll steps first = .ok () firstAfter →
      runAll steps second = .ok () secondAfter →
      ∃ run, firstAfter.bytes = first.bytes ++ run ∧ secondAfter.bytes = second.bytes ++ run := by
  have firstIff {after} := @runAll_eq_ok_iff first steps balanced firstUnlatched after
  have secondIff {after} := @runAll_eq_ok_iff second steps balanced secondUnlatched after
  rw [← limitsEq, ← depthEq] at secondIff
  refine ⟨⟨?_, ?_⟩, ?_⟩
  · rintro ⟨after, taken⟩
    rcases firstIff.1 taken with ⟨chunks, described, within, _⟩
    exact ⟨_, secondIff.2 ⟨chunks, described, within, rfl⟩⟩
  · rintro ⟨after, taken⟩
    rcases secondIff.1 taken with ⟨chunks, described, within, _⟩
    exact ⟨_, firstIff.2 ⟨chunks, described, within, rfl⟩⟩
  · intro firstAfter secondAfter firstTaken secondTaken
    rcases firstIff.1 firstTaken with ⟨chunks, described, _, rfl⟩
    rcases secondIff.1 secondTaken with ⟨others, alsoDescribed, _, rfl⟩
    cases described.symm.trans alsoDescribed
    refine ⟨(Chunk.cellsAll chunks first.length).map (·.getD 0), ?_, ?_⟩
    · exact WriteCursor.putChunks_bytes first.cursor chunks
    · rw [Chunk.cellsAll_congr (natural_of_chunksAll? described) congruent]
      exact WriteCursor.putChunks_bytes second.cursor chunks

/-- Writers that have latched nothing, enforce the same limits, have equally many frames open and
hold as many bytes up to a multiple of 8 accept the same values. Both keep the bytes that they hold,
whatever these are, and append the same. -/
theorem write_displaced (value : Value) (deployment : Option Deployment)
    (first second : MemoryWriter) (firstUnlatched : first.error = none)
    (secondUnlatched : second.error = none) (limitsEq : first.limits = second.limits)
    (depthEq : first.frames.length = second.frames.length)
    (congruent : first.length ≡ second.length [MOD 8]) :
    ((∃ after, value.write deployment first = .ok () after) ↔
      ∃ after, value.write deployment second = .ok () after) ∧
    ∀ firstAfter secondAfter, value.write deployment first = .ok () firstAfter →
      value.write deployment second = .ok () secondAfter →
      ∃ run, firstAfter.bytes = first.bytes ++ run ∧ secondAfter.bytes = second.bytes ++ run :=
  MemoryWriter.runAll_displaced (value.balanced_steps deployment) firstUnlatched secondUnlatched
    limitsEq depthEq congruent

/-- A number and a sequence of wider ones, behind 3 bytes in a sequence and behind 11 others in a
map. -/
theorem write_displaced_record :
    let value : Value := .record [.number (.uint8 1), .sequence [.number (.uint64 2)]]
    let first : MemoryWriter := { cursor := ⟨[1, 2, 3]⟩, frames := [.sequence] }
    let second : MemoryWriter := { cursor := ⟨List.replicate 11 9⟩, frames := [.map] }
    first.length ≡ second.length [MOD 8] ∧
      ∃ firstAfter secondAfter run, value.write none first = .ok () firstAfter ∧
        value.write none second = .ok () secondAfter ∧
          firstAfter.bytes = first.bytes ++ run ∧ secondAfter.bytes = second.bytes ++ run := by
  intro value first second
  have congruent : first.length ≡ second.length [MOD 8] := by decide
  rcases write_displaced value none first second rfl rfl rfl rfl congruent with
    ⟨acceptedIff, appended⟩
  have written : ∃ after, value.write none first = .ok () after := ⟨_, rfl⟩
  rcases written with ⟨firstAfter, firstWritten⟩
  rcases acceptedIff.1 ⟨firstAfter, firstWritten⟩ with ⟨secondAfter, secondWritten⟩
  rcases appended firstAfter secondAfter firstWritten secondWritten with ⟨run, kept⟩
  exact ⟨congruent, firstAfter, secondAfter, run, firstWritten, secondWritten, kept⟩

end ValueBus
