/-!
# Little-endian numbers

The bytes of a natural number, least significant byte first, and the number that a run of bytes
spells. `value_bytes` and `bytes_value` say that the two are inverse on numbers that fit the width.
-/

namespace ValueBus.LittleEndian

/-- The number of numbers that `width` bytes can spell. -/
def span : Nat → Nat
  | 0 => 1
  | width + 1 => 256 * span width

/-- The `width` lowest bytes of a number, least significant first. -/
def bytes : Nat → Nat → List UInt8
  | 0, _ => []
  | width + 1, number => UInt8.ofNat number :: bytes width (number / 256)

/-- The number that a run of bytes spells, least significant byte first. -/
def value : List UInt8 → Nat
  | [] => 0
  | byte :: rest => byte.toNat + 256 * value rest

@[simp]
theorem length_bytes (width number : Nat) : (bytes width number).length = width := by
  induction width generalizing number with
  | zero => rfl
  | succ width ih => simp [bytes, ih]

theorem value_bytes (width number : Nat) : value (bytes width number) = number % span width := by
  induction width generalizing number with
  | zero => simp [bytes, value, span, Nat.mod_one]
  | succ width ih =>
      have low : (UInt8.ofNat number).toNat = number % 256 := by simp
      rw [bytes, value, ih, low, span, Nat.mod_mul]

theorem value_lt (run : List UInt8) : value run < span run.length := by
  induction run with
  | nil => simp [value, span]
  | cons byte rest ih =>
      have byteLt : byte.toNat < 256 := byte.toBitVec.isLt
      simp only [value, List.length_cons, span]
      omega

theorem bytes_value (run : List UInt8) : bytes run.length (value run) = run := by
  induction run with
  | nil => rfl
  | cons byte rest ih =>
      have byteLt : byte.toNat < 256 := byte.toBitVec.isLt
      have quotient : (byte.toNat + 256 * value rest) / 256 = value rest := by omega
      have low : UInt8.ofNat (byte.toNat + 256 * value rest) = byte := by
        apply UInt8.toNat_inj.1
        rw [UInt8.toNat_ofNat']
        omega
      simp [bytes, value, quotient, low, ih]

end ValueBus.LittleEndian
