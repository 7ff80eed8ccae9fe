import ValueBus.Bytes.LittleEndian

/-!
# Numbers of fixed width

The ten number kinds of the value model: eight integers and two floating-point formats. A float is
held as its bit pattern, so that values read back are the same value whatever pattern they carry;
`Number.ieeeEq` is the comparison under which a not-a-number differs from itself and the two zeros
agree.
-/

namespace ValueBus

/-- The kind of a number: its width and how its bits are read. -/
inductive NumberKind where
  | int8 | int16 | int32 | int64
  | uint8 | uint16 | uint32 | uint64
  | float32 | float64
  deriving DecidableEq, Repr

/-- A number of one of the ten kinds; floats are bit patterns. -/
inductive Number where
  | int8 (value : Int8)
  | int16 (value : Int16)
  | int32 (value : Int32)
  | int64 (value : Int64)
  | uint8 (value : UInt8)
  | uint16 (value : UInt16)
  | uint32 (value : UInt32)
  | uint64 (value : UInt64)
  | float32 (pattern : UInt32)
  | float64 (pattern : UInt64)
  deriving DecidableEq, Repr

namespace NumberKind

/-- The width in bytes, which is also the natural alignment. -/
def size : NumberKind → Nat
  | .int8 | .uint8 => 1
  | .int16 | .uint16 => 2
  | .int32 | .uint32 | .float32 => 4
  | .int64 | .uint64 | .float64 => 8

/-- How many bit patterns there are. -/
def span (kind : NumberKind) : Nat :=
  LittleEndian.span kind.size

/-- The number of a kind with the given low bits. -/
def ofBits : NumberKind → Nat → Number
  | .int8, bits => .int8 (.ofBitVec (.ofNat 8 bits))
  | .int16, bits => .int16 (.ofBitVec (.ofNat 16 bits))
  | .int32, bits => .int32 (.ofBitVec (.ofNat 32 bits))
  | .int64, bits => .int64 (.ofBitVec (.ofNat 64 bits))
  | .uint8, bits => .uint8 (.ofNat bits)
  | .uint16, bits => .uint16 (.ofNat bits)
  | .uint32, bits => .uint32 (.ofNat bits)
  | .uint64, bits => .uint64 (.ofNat bits)
  | .float32, bits => .float32 (.ofNat bits)
  | .float64, bits => .float64 (.ofNat bits)

/-- The number of a kind that a little-endian run of bytes spells. -/
def ofBytes (kind : NumberKind) (run : List UInt8) : Number :=
  kind.ofBits (LittleEndian.value run)

def isInteger : NumberKind → Bool
  | .float32 | .float64 => false
  | _ => true

/-- The least integer of a kind; 0 for the bit patterns of floats. -/
def least : NumberKind → Int
  | .int8 => -0x80
  | .int16 => -0x8000
  | .int32 => -0x80000000
  | .int64 => -0x8000000000000000
  | _ => 0

/-- The number of a kind with the given integer value, or none when it does not fit. Floats are
given by their bit pattern. -/
def ofInt? (kind : NumberKind) (value : Int) : Option Number :=
  if kind.least ≤ value ∧ value < kind.least + kind.span then
    some (kind.ofBits (value % kind.span).toNat)
  else
    none

end NumberKind

namespace Number

def kind : Number → NumberKind
  | .int8 _ => .int8
  | .int16 _ => .int16
  | .int32 _ => .int32
  | .int64 _ => .int64
  | .uint8 _ => .uint8
  | .uint16 _ => .uint16
  | .uint32 _ => .uint32
  | .uint64 _ => .uint64
  | .float32 _ => .float32
  | .float64 _ => .float64

/-- The bits of a number, read as a natural number. -/
def bits : Number → Nat
  | .int8 value => value.toBitVec.toNat
  | .int16 value => value.toBitVec.toNat
  | .int32 value => value.toBitVec.toNat
  | .int64 value => value.toBitVec.toNat
  | .uint8 value => value.toNat
  | .uint16 value => value.toNat
  | .uint32 value => value.toNat
  | .uint64 value => value.toNat
  | .float32 pattern => pattern.toNat
  | .float64 pattern => pattern.toNat

/-- The integer that a number stands for; for a float, its bit pattern. -/
def toInt : Number → Int
  | .int8 value => value.toInt
  | .int16 value => value.toInt
  | .int32 value => value.toInt
  | .int64 value => value.toInt
  | number => number.bits

def bytes (number : Number) : List UInt8 :=
  LittleEndian.bytes number.kind.size number.bits

/-- Whether the pattern of a float is a not-a-number, given how many exponents and how many
fractions its format has. -/
def isNanPattern (exponents fractions pattern : Nat) : Bool :=
  pattern / fractions % exponents = exponents - 1 ∧ pattern % fractions ≠ 0

/-- Equality of two floats given by their patterns: a not-a-number equals nothing, and zero equals
zero whatever its sign. -/
def patternEq (exponents fractions left right : Nat) : Bool :=
  !isNanPattern exponents fractions left && !isNanPattern exponents fractions right &&
    (left == right ||
      (left % (exponents * fractions) == 0 && right % (exponents * fractions) == 0))

/-- The equality of values: integers by value, floats by the floating-point comparison. -/
def ieeeEq : Number → Number → Bool
  | .float32 left, .float32 right => patternEq 0x100 0x800000 left.toNat right.toNat
  | .float64 left, .float64 right => patternEq 0x800 0x10000000000000 left.toNat right.toNat
  | left, right => left == right

/-- The total order of numbers: by kind, then by value. -/
def order (left right : Number) : Ordering :=
  (compare left.kind.ctorIdx right.kind.ctorIdx).then (compare left.toInt right.toInt)

theorem bits_lt (number : Number) : number.bits < number.kind.span := by
  cases number with
  | int8 value => exact value.toBitVec.isLt
  | int16 value => exact value.toBitVec.isLt
  | int32 value => exact value.toBitVec.isLt
  | int64 value => exact value.toBitVec.isLt
  | uint8 value => exact value.toBitVec.isLt
  | uint16 value => exact value.toBitVec.isLt
  | uint32 value => exact value.toBitVec.isLt
  | uint64 value => exact value.toBitVec.isLt
  | float32 pattern => exact pattern.toBitVec.isLt
  | float64 pattern => exact pattern.toBitVec.isLt

@[simp]
theorem length_bytes (number : Number) : number.bytes.length = number.kind.size := by
  simp [bytes]

theorem ofBits_bits (number : Number) : number.kind.ofBits number.bits = number := by
  cases number <;> simp [kind, bits, NumberKind.ofBits]

theorem ofBytes_bytes (number : Number) : number.kind.ofBytes number.bytes = number := by
  have fits := Nat.mod_eq_of_lt number.bits_lt
  rw [NumberKind.ofBytes, bytes, LittleEndian.value_bytes, ← NumberKind.span, fits, ofBits_bits]

end Number

@[simp]
theorem NumberKind.kind_ofBits (kind : NumberKind) (bits : Nat) :
    (kind.ofBits bits).kind = kind := by
  cases kind <;> rfl

theorem NumberKind.kind_of_ofInt? {kind : NumberKind} {value : Int} {number : Number}
    (found : kind.ofInt? value = some number) : number.kind = kind := by
  unfold NumberKind.ofInt? at found
  split at found
  · simp only [Option.some.injEq] at found
    rw [← found, kind_ofBits]
  · contradiction

theorem NumberKind.bits_ofBits (kind : NumberKind) (bits : Nat) :
    (kind.ofBits bits).bits = bits % kind.span := by
  cases kind <;>
    simp [NumberKind.ofBits, Number.bits, NumberKind.span, NumberKind.size, LittleEndian.span]

/-- Reading a run of the right width and writing the number gives the run back. -/
theorem NumberKind.bytes_ofBytes (kind : NumberKind) (run : List UInt8)
    (width : run.length = kind.size) : (kind.ofBytes run).bytes = run := by
  have fits : LittleEndian.value run % kind.span = LittleEndian.value run := by
    apply Nat.mod_eq_of_lt
    rw [NumberKind.span, ← width]
    exact LittleEndian.value_lt run
  simp only [Number.bytes, NumberKind.ofBytes, kind_ofBits, bits_ofBits, fits]
  rw [← width, LittleEndian.bytes_value]

end ValueBus
