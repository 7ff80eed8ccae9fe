import ValueBus.Bytes.Utf8
import ValueBus.Cursor
import ValueBus.Stream.LengthField
import ValueBus.Stream.Output

/-!
# The memory writer

The reference output stream: a growing run of bytes. Numbers are little-endian at their natural
alignment, a boolean is one byte, a string is a length field, its UTF-8 bytes and a NUL that the
length counts, a byte buffer is a length field and the bytes, a sequence or map is a length field
and its items. A struct starts at a multiple of 8; a polymorphic struct puts its four-byte serial
before that; a variant starts with the index of its alternative in one byte.

Every call first checks the latch. The limits and the width of the length field are checked before a
byte is written.
-/

namespace ValueBus

/-- The state of the memory writer; the innermost open frame is the first. -/
structure MemoryWriter where
  cursor : WriteCursor := {}
  frames : List FrameKind := []
  limits : Limits := {}
  error : Option StreamError := none
  deriving Repr, Inhabited

namespace MemoryWriter

instance : Latch MemoryWriter where
  error writer := writer.error
  setError newError writer := { writer with error := writer.error <|> some newError }

/-- A writer that enforces the given limits. -/
def withLimits (limits : Limits) : MemoryWriter :=
  { limits }

def length (writer : MemoryWriter) : Nat :=
  writer.cursor.offset

def bytes (writer : MemoryWriter) : List UInt8 :=
  writer.cursor.bytes

def isEmpty (writer : MemoryWriter) : Bool :=
  writer.length = 0

/-- Pads with zeros to a multiple of the alignment. -/
def align (alignment : Nat) : Action MemoryWriter Unit :=
  modify fun writer => { writer with cursor := writer.cursor.align alignment }

def put (run : List UInt8) : Action MemoryWriter Unit :=
  modify fun writer => { writer with cursor := writer.cursor.put run }

def putNumber (number : Number) : Action MemoryWriter Unit := do
  align number.kind.size
  put number.bytes

/-- Fails if a length is over a limit. -/
def checkLength (what : LimitKind) (limit actual : Nat) : Action MemoryWriter Unit :=
  if actual > limit then Latch.raise (.limitExceeded what limit actual) else pure ()

/-- Opens a frame, unless as many as the limits allow are open. -/
def openFrame (kind : FrameKind) : Action MemoryWriter Unit := do
  let writer ← get
  checkLength .depth writer.limits.maxDepth (writer.frames.length + 1)
  set { writer with frames := kind :: writer.frames }

/-- Closes the innermost frame, which must be of the given kind. -/
def closeFrame (kind : FrameKind) : Action MemoryWriter Unit := do
  let writer ← get
  set { writer with frames := writer.frames.tail }
  if writer.frames.head? = some kind then
    pure ()
  else
    Latch.raise (.unbalanced (.endedWriting kind writer.frames.head?))

def putLength (length : Nat) (deployment : Option Deployment) : Action MemoryWriter Unit := do
  match LengthWidth.ofDeployment deployment with
  | .error fault => Latch.raise (.invalidData fault)
  | .ok width =>
      if length > width.greatest then
        Latch.raise (.writeFailed (← get).length (.lengthTooLong length width.size))
      else
        align width.size
        put (LittleEndian.bytes width.size length)

def putLeaf (value : Leaf) (deployment : Option Deployment) : Action MemoryWriter Unit := do
  let limits := (← get).limits
  match value with
  | .bool value => put [if value then 1 else 0]
  | .number value => putNumber value
  | .text value =>
      let encoded := Utf8.encode value
      checkLength .string limits.maxStringLength encoded.length
      putLength (encoded.length + 1) deployment
      put (encoded ++ [0])
  | .bytes value =>
      checkLength .byteBuffer limits.maxStringLength value.length
      putLength value.length deployment
      put value

/-- Opens a repeating frame and writes the number of its items. -/
def enterRepeated (kind : Repetition) (length : Nat) (deployment : Option Deployment) :
    Action MemoryWriter Unit := do
  checkLength .sequence (← get).limits.maxSequenceLength length
  openFrame kind.frame
  putLength length deployment

/-- Opens a frame and writes what announces it. -/
def enter (opening : Opening) (deployment : Option Deployment) : Action MemoryWriter Unit := do
  match opening with
  | .struct =>
      openFrame .struct
      align 8
  | .polymorphic serial =>
      openFrame .polymorphic
      putNumber (.uint32 serial)
      align 8
  | .variant tag =>
      if tag > 255 then
        Latch.raise (.writeFailed (← get).length (.tagTooLarge tag))
      else
        openFrame .variant
        put [UInt8.ofNat tag]
  | .sequence length => enterRepeated .sequence length deployment
  | .map length => enterRepeated .map length deployment
  | .mapEntry => openFrame .mapEntry

/-- Takes a call, the latch being checked. -/
def takeCall : WriteCall → Action MemoryWriter Unit
  | .leaf value deployment => putLeaf value deployment
  | .enter opening deployment => enter opening deployment
  | .leave kind => closeFrame kind

instance : OutputStream MemoryWriter where
  perform call := do
    Latch.check
    takeCall call

/-- The bytes of a finished stream: no error is latched and no frame is open. -/
def finish (writer : MemoryWriter) : Except StreamError (List UInt8) :=
  match writer.error, writer.frames with
  | some first, _ => .error first
  | none, frame :: _ => .error (.unbalanced (.stillWriting frame))
  | none, [] => .ok writer.bytes

end MemoryWriter

end ValueBus
