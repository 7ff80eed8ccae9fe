import ValueBus.Bytes.LittleEndian

/-!
# Alignment

Offsets are rounded up by clearing the low bits that the alignment names. For a power of two this is
the least multiple that is not below the offset; for any other number it is whatever the bit mask
leaves, which is still not below the offset.

Offsets and alignments are 64-bit numbers. An offset into memory is below 2^63, so the sum that is
masked leaves the 64 bits only for an alignment above 2^63; it is then taken modulo 2^64, and the
result may be below the offset.
-/

namespace ValueBus

/-- The greatest alignment for which no offset into memory overflows. -/
def greatestAlignment : Nat :=
  0x8000000000000000

/-- Adds one less than the alignment to the offset and clears the bits set in that number. -/
def alignUp (offset alignment : Nat) : Nat :=
  let mask := alignment - 1
  let sum :=
    if alignment ≤ greatestAlignment then offset + mask
    else (offset + mask) % LittleEndian.span 8
  sum - (sum &&& mask)

theorem alignUp_eq {offset alignment : Nat} (fits : alignment ≤ greatestAlignment) :
    alignUp offset alignment =
      (offset + (alignment - 1)) - ((offset + (alignment - 1)) &&& (alignment - 1)) := by
  simp [alignUp, fits]

theorem le_alignUp {offset alignment : Nat} (fits : alignment ≤ greatestAlignment) :
    offset ≤ alignUp offset alignment := by
  have masked : (offset + (alignment - 1)) &&& (alignment - 1) ≤ alignment - 1 := Nat.and_le_right
  rw [alignUp_eq fits]
  omega

theorem alignUp_lt {offset alignment : Nat} (positive : 0 < alignment)
    (fits : alignment ≤ greatestAlignment) : alignUp offset alignment < offset + alignment := by
  rw [alignUp_eq fits]
  omega

end ValueBus
