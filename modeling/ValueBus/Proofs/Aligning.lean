import ValueBus.Proofs.Displacement
import ValueBus.Proofs.Ranges
import ValueBus.Proofs.Reading

/-!
# Aligning cursors

An offset is rounded up by adding a mask, the alignment less one, and by clearing the bits of the
mask from the sum. For a power of two the mask is all the bits below it, and clearing them leaves
the least multiple that is not below the offset. For any other alignment the mask has a gap, so that
the offset 1 is rounded to a proper divisor of the alignment. Cursors that are aligned to powers of
two are aligned exactly, and the cursor that holds one byte shows that no other alignment is.

What is left has no bit in common with the mask. So the mask can be added again without a carry, and
what it adds is cleared at once: aligning a second time changes nothing, whatever the alignment.
-/

namespace ValueBus

namespace Machine

/-- Adds a mask to a word and clears the bits of the mask. -/
def roundUp (word mask : BitVec 64) : BitVec 64 :=
  (word + mask) &&& ~~~mask

theorem cleared_and_mask (word mask : BitVec 64) : (word &&& ~~~mask) &&& mask = 0#64 := by
  simp [BitVec.and_assoc]

/-- A word is made up of the bits outside a mask and those inside. -/
theorem toNat_cleared (word mask : BitVec 64) :
    (word &&& ~~~mask).toNat = word.toNat - (word.toNat &&& mask.toNat) := by
  have disjoint : (word &&& ~~~mask) &&& (word &&& mask) = 0#64 := by
    rw [BitVec.and_comm word mask, ← BitVec.and_assoc, cleared_and_mask]
    exact BitVec.zero_and
  have parts : (word &&& ~~~mask) ||| (word &&& mask) = word := by
    rw [← BitVec.and_or_distrib_left, BitVec.not_or_self, BitVec.and_allOnes]
  have total := BitVec.toNat_add_of_and_eq_zero disjoint
  rw [BitVec.add_eq_or_of_and_eq_zero _ _ disjoint, parts, BitVec.toNat_and word mask] at total
  omega

/-- The mask is added to what was rounded without a carry. -/
theorem toNat_roundUp_add (word mask : BitVec 64) :
    (roundUp word mask).toNat + mask.toNat < LittleEndian.span 8 := by
  have total := BitVec.toNat_add_of_and_eq_zero (cleared_and_mask (word + mask) mask)
  exact lt_of_eq_of_lt total.symm (BitVec.isLt _)

theorem roundUp_roundUp (word mask : BitVec 64) :
    roundUp (roundUp word mask) mask = roundUp word mask := by
  have joined := BitVec.add_eq_or_of_and_eq_zero _ _ (cleared_and_mask (word + mask) mask)
  unfold roundUp
  rw [joined, BitVec.and_or_distrib_right, BitVec.and_not_self, BitVec.and_assoc, BitVec.and_self]
  exact BitVec.or_zero

end Machine

variable {offset alignment : Nat}

/-- An offset is rounded up as a word of 64 bits, which wraps for great alignments alone. -/
theorem alignUp_eq_toNat (addressable : offset < LittleEndian.span 8)
    (word : alignment < LittleEndian.span 8)
    (fits : alignment ≤ greatestAlignment → offset + (alignment - 1) < LittleEndian.span 8) :
    alignUp offset alignment =
      (Machine.roundUp (.ofNat 64 offset) (.ofNat 64 (alignment - 1))).toNat := by
  have spanEq : LittleEndian.span 8 = 2 ^ 64 := rfl
  have sumEq : (if alignment ≤ greatestAlignment then offset + (alignment - 1)
      else (offset + (alignment - 1)) % LittleEndian.span 8) =
        (offset + (alignment - 1)) % 2 ^ 64 := by
    split_ifs with small
    · exact (Nat.mod_eq_of_lt (fits small)).symm
    · rfl
  have maskEq : (alignment - 1) % 2 ^ 64 = alignment - 1 := Nat.mod_eq_of_lt (by omega)
  simp only [alignUp, Machine.roundUp, Machine.toNat_cleared, BitVec.toNat_add, BitVec.toNat_ofNat,
    sumEq, maskEq, Nat.mod_eq_of_lt (spanEq ▸ addressable)]

/-- Rounding up a second time changes nothing. -/
theorem alignUp_alignUp (addressable : offset < Machine.memorySize)
    (word : alignment < LittleEndian.span 8) :
    alignUp (alignUp offset alignment) alignment = alignUp offset alignment := by
  have held : offset < LittleEndian.span 8 := Nat.lt_trans addressable (by decide)
  have first := alignUp_eq_toNat held word fun fits => by
    have within := Machine.sum_le_span fits addressable
    omega
  have carried := Machine.toNat_roundUp_add (.ofNat 64 offset) (.ofNat 64 (alignment - 1))
  have maskLt : alignment - 1 < 2 ^ 64 := Nat.lt_of_le_of_lt (Nat.sub_le ..) word
  rw [BitVec.toNat_ofNat, Nat.mod_eq_of_lt maskLt] at carried
  have rounded : (Machine.roundUp (.ofNat 64 offset) (.ofNat 64 (alignment - 1))).toNat <
      LittleEndian.span 8 := BitVec.isLt _
  have second := alignUp_eq_toNat rounded word fun _ => carried
  rw [BitVec.ofNat_toNat, BitVec.setWidth_eq, Machine.roundUp_roundUp] at second
  rw [first, second]

/-- Where the sum stays within 64 bits, an offset is not rounded down. -/
theorem alignUp_bounds (positive : 0 < alignment)
    (within : offset + alignment ≤ LittleEndian.span 8) :
    offset ≤ alignUp offset alignment ∧ alignUp offset alignment < offset + alignment := by
  have masked : (offset + (alignment - 1)) &&& (alignment - 1) ≤ alignment - 1 := Nat.and_le_right
  rw [Machine.alignUp_eq_of_sum (by omega)]
  omega

/-- Only for a power of two is the offset 1 rounded up to a multiple. -/
theorem exists_power_of_dvd (positive : 0 < alignment) (word : alignment < LittleEndian.span 8)
    {target : Nat} (computed : Machine.alignUp? 1 alignment = some target)
    (multiple : alignment ∣ target) : ∃ power, alignment = 2 ^ power := by
  rw [Machine.alignUp?_eq positive, Option.ite_none_right_eq_some] at computed
  rcases computed with ⟨within, rounded⟩
  rw [← Option.some.inj rounded] at multiple
  have sumEq : 1 + (alignment - 1) = alignment := Nat.add_sub_of_le positive
  have least := Nat.le_of_dvd (alignUp_bounds positive within).1 multiple
  rw [Machine.alignUp_eq_of_sum (by omega), sumEq] at least
  have masked : alignment &&& (alignment - 1) ≤ alignment := Nat.and_le_left
  have disjoint : alignment &&& (alignment - 1) = 0 := by omega
  exact (Nat.and_sub_one_eq_zero_iff_isPowerOfTwo positive.ne').1 disjoint

/-- A power of two that is a word is an alignment for every offset into memory. -/
theorem power_le_greatestAlignment {power : Nat} (word : 2 ^ power < LittleEndian.span 8) :
    2 ^ power ≤ greatestAlignment := by
  have small : power < 64 := (Nat.pow_lt_pow_iff_right (by decide : 1 < 2)).1 word
  exact Nat.pow_le_pow_right (by decide) (Nat.le_of_lt_succ small)

namespace WriteCursor

variable {writer : WriteCursor}

/-- Aligning keeps the bytes and appends zeros up to the least multiple that is not below the
offset, which is computed within 64 bits. -/
def AlignsExactly (writer : WriteCursor) (alignment : Nat) : Prop :=
  ∃ target, IsLeast {position | writer.offset ≤ position ∧ alignment ∣ position} target ∧
    Machine.alignUp? writer.offset alignment = some target ∧
      (writer.align alignment).bytes =
        writer.bytes ++ List.replicate (target - writer.offset) 0

theorem offset_align (writer : WriteCursor) (alignment : Nat) :
    (writer.align alignment).offset = alignUp writer.offset alignment := by
  simp only [offset, align, List.length_append, List.length_take, List.length_replicate]
  omega

theorem align_bytes (grows : writer.offset ≤ alignUp writer.offset alignment) :
    (writer.align alignment).bytes =
      writer.bytes ++ List.replicate (alignUp writer.offset alignment - writer.offset) 0 := by
  simp only [align]
  rw [List.take_of_length_le grows]

theorem align_align (addressable : writer.offset < Machine.memorySize)
    (word : alignment < LittleEndian.span 8) :
    (writer.align alignment).align alignment = writer.align alignment := by
  have same := alignUp_alignUp addressable word
  rw [← offset_align] at same
  have kept := align_bytes (Nat.le_of_eq same.symm)
  rw [same, Nat.sub_self, List.replicate_zero, List.append_nil] at kept
  exact congrArg WriteCursor.mk kept

theorem alignsExactly_power {power : Nat} (word : 2 ^ power < LittleEndian.span 8)
    (addressable : writer.offset < Machine.memorySize) : writer.AlignsExactly (2 ^ power) := by
  have fits := power_le_greatestAlignment word
  refine ⟨_, isLeast_alignUp writer.offset fits, ?_, align_bytes (le_alignUp fits)⟩
  rw [Machine.alignUp?_eq (Nat.two_pow_pos power), if_pos (Machine.sum_le_span fits addressable)]

end WriteCursor

namespace ReadCursor

variable {reader : ReadCursor}

/-- Aligning moves to the least multiple that is not below the offset, which is computed within 64
bits; where that lies behind the end, it fails and the offset stays. -/
def AlignsExactly (reader : ReadCursor) (alignment : Nat) : Prop :=
  ∃ target, IsLeast {position | reader.offset ≤ position ∧ alignment ∣ position} target ∧
    Machine.alignUp? reader.offset alignment = some target ∧
      reader.align alignment =
        if target ≤ reader.bytes.length then .ok () { reader with offset := target }
        else .error (.readFailed target .endOfBuffer) reader

theorem align_align {after : ReadCursor} (kept : reader.InRange)
    (word : alignment < LittleEndian.span 8) (moved : reader.align alignment = .ok () after) :
    after.align alignment = .ok () after := by
  have addressable := Nat.lt_of_le_of_lt kept.inside kept.addressable
  rcases align_eq_ok_iff.1 moved with ⟨inside, rfl⟩
  have same := alignUp_alignUp addressable word
  rw [align_eq_ok_iff]
  dsimp only
  rw [same]
  exact ⟨inside, rfl⟩

theorem alignsExactly_power {power : Nat} (word : 2 ^ power < LittleEndian.span 8)
    (kept : reader.InRange) : reader.AlignsExactly (2 ^ power) := by
  have fits := power_le_greatestAlignment word
  have addressable := Nat.lt_of_le_of_lt kept.inside kept.addressable
  refine ⟨_, isLeast_alignUp reader.offset fits, ?_, rfl⟩
  rw [Machine.alignUp?_eq (Nat.two_pow_pos power), if_pos (Machine.sum_le_span fits addressable)]

end ReadCursor

/-- A cursor that holds one byte is not aligned to 3: the mask has a gap, and the byte stays
alone. -/
theorem alignment_inexact :
    ¬ ∀ (writer : WriteCursor) (alignment : Nat), writer.offset < Machine.memorySize →
      0 < alignment → alignment < LittleEndian.span 8 → writer.AlignsExactly alignment := by
  intro exactEverywhere
  rcases exactEverywhere ⟨[17]⟩ 3 (by decide) (by decide) (by decide) with
    ⟨target, ⟨⟨_, multiple⟩, _⟩, computed, _⟩
  have rounded : Machine.alignUp? 1 3 = some 1 := rfl
  cases rounded.symm.trans computed
  exact absurd multiple (by decide)

/-- Both cursors are aligned exactly to the powers of two and to no other number. To any number, an
offset is not moved back where the sum stays within 64 bits, and what was aligned once stays as it
is. -/
theorem alignment_exact_iff (alignment : Nat) (positive : 0 < alignment)
    (word : alignment < LittleEndian.span 8) :
    ((∀ writer : WriteCursor, writer.offset < Machine.memorySize →
        writer.AlignsExactly alignment) ↔ ∃ power, alignment = 2 ^ power) ∧
    ((∀ reader : ReadCursor, reader.InRange → reader.AlignsExactly alignment) ↔
      ∃ power, alignment = 2 ^ power) ∧
    (∀ writer : WriteCursor, writer.offset < Machine.memorySize →
      (writer.align alignment).align alignment = writer.align alignment ∧
      (writer.offset + alignment ≤ LittleEndian.span 8 →
        ∃ zeros < alignment, (writer.align alignment).bytes =
          writer.bytes ++ List.replicate zeros 0)) ∧
    ∀ reader after : ReadCursor, reader.InRange → reader.align alignment = .ok () after →
      after.align alignment = .ok () after ∧
      (reader.offset + alignment ≤ LittleEndian.span 8 → reader.offset ≤ after.offset) := by
  refine ⟨⟨?_, ?_⟩, ⟨?_, ?_⟩, ?_, ?_⟩
  · intro exactEverywhere
    rcases exactEverywhere ⟨[0]⟩ (by decide) with ⟨target, ⟨⟨_, multiple⟩, _⟩, computed, _⟩
    exact exists_power_of_dvd positive word computed multiple
  · rintro ⟨power, rfl⟩ writer addressable
    exact WriteCursor.alignsExactly_power word addressable
  · intro exactEverywhere
    rcases exactEverywhere ⟨[0], 1⟩ ⟨by decide, by decide⟩ with
      ⟨target, ⟨⟨_, multiple⟩, _⟩, computed, _⟩
    exact exists_power_of_dvd positive word computed multiple
  · rintro ⟨power, rfl⟩ reader kept
    exact ReadCursor.alignsExactly_power word kept
  · intro writer addressable
    refine ⟨WriteCursor.align_align addressable word, fun within => ?_⟩
    rcases alignUp_bounds positive within with ⟨grows, short⟩
    exact ⟨_, by omega, WriteCursor.align_bytes grows⟩
  · intro reader after kept moved
    refine ⟨ReadCursor.align_align kept word moved, fun within => ?_⟩
    rcases ReadCursor.align_eq_ok_iff.1 moved with ⟨_, rfl⟩
    exact (alignUp_bounds positive within).1

/-- The greatest power of two that is a word, for a cursor that has read one byte of two. -/
theorem alignment_exact_iff_greatest :
    (0 < greatestAlignment ∧ greatestAlignment < LittleEndian.span 8) ∧
      ReadCursor.AlignsExactly ⟨[17, 0], 1⟩ greatestAlignment := by
  have positive : 0 < greatestAlignment := by decide
  have word : greatestAlignment < LittleEndian.span 8 := by decide
  have power : ∃ power, greatestAlignment = 2 ^ power := ⟨63, rfl⟩
  rcases alignment_exact_iff greatestAlignment positive word with ⟨_, reads, _, _⟩
  exact ⟨⟨positive, word⟩, reads.2 power ⟨[17, 0], 1⟩ ⟨by decide, by decide⟩⟩

end ValueBus
