import ValueBus.Bytes.Alignment
import ValueBus.Number
import ValueBus.Stream.Action

/-!
# Cursors

Little-endian access to a run of bytes. A `WriteCursor` grows a run at its end; a `ReadCursor` walks
over a run and refuses every step that would pass the end. Offsets count from the start of the run,
which is also the origin of alignment.
-/

namespace ValueBus

/-- A run of bytes that grows at its end. -/
structure WriteCursor where
  bytes : List UInt8 := []
  deriving DecidableEq, Repr, Inhabited

namespace WriteCursor

def offset (cursor : WriteCursor) : Nat :=
  cursor.bytes.length

def put (cursor : WriteCursor) (run : List UInt8) : WriteCursor :=
  ⟨cursor.bytes ++ run⟩

def putNumber (cursor : WriteCursor) (number : Number) : WriteCursor :=
  cursor.put number.bytes

/-- Moves the end to the aligned offset: pads with zeros, or drops the bytes that lie past it. -/
def align (cursor : WriteCursor) (alignment : Nat) : WriteCursor :=
  let aligned := alignUp cursor.offset alignment
  ⟨cursor.bytes.take aligned ++ List.replicate (aligned - cursor.offset) 0⟩

/-- Aligning keeps the bytes and pads with zeros. -/
theorem align_eq_put (cursor : WriteCursor) {alignment : Nat}
    (fits : alignment ≤ greatestAlignment) :
    cursor.align alignment =
      cursor.put (List.replicate (alignUp cursor.offset alignment - cursor.offset) 0) := by
  have grows : cursor.bytes.length ≤ alignUp cursor.offset alignment := le_alignUp fits
  simp [align, put, List.take_of_length_le grows]

end WriteCursor

/-- A run of bytes and the offset of the next byte to read. -/
structure ReadCursor where
  bytes : List UInt8
  offset : Nat := 0
  deriving DecidableEq, Repr, Inhabited

namespace ReadCursor

def remaining (cursor : ReadCursor) : Nat :=
  cursor.bytes.length - cursor.offset

def atEnd (cursor : ReadCursor) : Bool :=
  cursor.bytes.length ≤ cursor.offset

/-- Reads the next `count` bytes; the offset stays where it is when there are fewer. -/
def take (count : Nat) : Action ReadCursor (List UInt8) := fun cursor =>
  if cursor.offset + count ≤ cursor.bytes.length then
    .ok ((cursor.bytes.drop cursor.offset).take count)
      { cursor with offset := cursor.offset + count }
  else
    .error (.readFailed cursor.offset .endOfBuffer) cursor

def takeNumber (kind : NumberKind) : Action ReadCursor Number := do
  return kind.ofBytes (← take kind.size)

/-- Moves to the aligned offset; the offset stays where it is when that lies past the end. -/
def align (alignment : Nat) : Action ReadCursor Unit := fun cursor =>
  let aligned := alignUp cursor.offset alignment
  if aligned ≤ cursor.bytes.length then
    .ok () { cursor with offset := aligned }
  else
    .error (.readFailed aligned .endOfBuffer) cursor

end ReadCursor

end ValueBus
