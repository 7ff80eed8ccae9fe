import ValueBus.Bytes.Utf8
import ValueBus.Cursor
import ValueBus.Stream.Input
import ValueBus.Stream.LengthField

/-!
# The memory reader

The input stream over the format of the memory writer. A sequence or map that is read keeps count of
the items still to come, and can be left only when none is. What the bytes announce is checked
against the limits before it is acted upon.
-/

namespace ValueBus

/-- The state of the memory reader; the innermost open frame is the first. -/
structure MemoryReader where
  cursor : ReadCursor
  frames : List ReadFrame := []
  limits : Limits := {}
  error : Option StreamError := none
  deriving Repr, Inhabited

namespace MemoryReader

instance : Latch MemoryReader where
  error reader := reader.error
  setError newError reader := { reader with error := reader.error <|> some newError }

/-- A reader over bytes that enforces the given limits. -/
def ofBytes (bytes : List UInt8) (limits : Limits) : MemoryReader :=
  { cursor := { bytes }, limits }

def remaining (reader : MemoryReader) : Nat :=
  reader.cursor.remaining

/-- Takes a step of the cursor, latching its error. -/
def onCursor {α : Type} (step : Action ReadCursor α) : Action MemoryReader α := fun reader =>
  match step reader.cursor with
  | .ok value cursor => .ok value { reader with cursor }
  | .error fault cursor => Latch.raise fault { reader with cursor }

/-- Fails if a length is over a limit. -/
def checkLength (what : LimitKind) (limit actual : Nat) : Action MemoryReader Unit :=
  if actual > limit then Latch.raise (.limitExceeded what limit actual) else pure ()

def takeNumber (kind : NumberKind) : Action MemoryReader Number :=
  onCursor do
    ReadCursor.align kind.size
    ReadCursor.takeNumber kind

def takeLength (deployment : Option Deployment) : Action MemoryReader Nat :=
  match LengthWidth.ofDeployment deployment with
  | .error fault => Latch.raise (.invalidData fault)
  | .ok width =>
      onCursor do
        ReadCursor.align width.size
        return LittleEndian.value (← ReadCursor.take width.size)

/-- Opens a frame, unless as many as the limits allow are open. -/
def openFrame (frame : ReadFrame) : Action MemoryReader Unit := do
  let reader ← get
  checkLength .depth reader.limits.maxDepth (reader.frames.length + 1)
  set { reader with frames := frame :: reader.frames }

/-- Closes the innermost frame, which must be of the given kind and have no items left. -/
def closeFrame (kind : FrameKind) : Action MemoryReader Unit := do
  let reader ← get
  set { reader with frames := reader.frames.tail }
  match reader.frames.head? with
  | some (.plain found) =>
      if found = kind then pure ()
      else Latch.raise (.unbalanced (.endedReading kind (some (.plain found))))
  | some (.counted found remaining) =>
      if found.frame = kind then
        if remaining = 0 then pure ()
        else Latch.raise (.unbalanced (.itemsLeft found remaining))
      else Latch.raise (.unbalanced (.endedReading kind (some (.counted found remaining))))
  | none => Latch.raise (.unbalanced (.endedReading kind none))

/-- Reads the payload of a text with its terminator. -/
def takeText (deployment : Option Deployment) : Action MemoryReader String := do
  let limits := (← get).limits
  match ← takeLength deployment with
  | 0 => Latch.raise (.invalidData .missingTerminator)
  | length + 1 =>
      checkLength .string limits.maxStringLength length
      let run ← onCursor (ReadCursor.take (length + 1))
      if run.drop length = [0] then
        match Utf8.decode (run.take length) with
        | .ok text => pure text
        | .error fault => Latch.raise (.invalidData (.notUtf8 fault))
      else
        Latch.raise (.invalidData .unterminated)

def takeLeaf (kind : LeafKind) (deployment : Option Deployment) : Action MemoryReader Leaf := do
  match kind with
  | .bool =>
      let byte ← onCursor (ReadCursor.take 1)
      if byte = [0] then pure (.bool false)
      else if byte = [1] then pure (.bool true)
      else Latch.raise (.invalidData (.booleanByte (byte.headD 0)))
  | .number kind => .number <$> takeNumber kind
  | .text => .text <$> takeText deployment
  | .bytes =>
      let limits := (← get).limits
      let length ← takeLength deployment
      checkLength .byteBuffer limits.maxStringLength length
      .bytes <$> onCursor (ReadCursor.take length)

/-- Reads the number of items of a repeating frame and opens it. -/
def enterRepeated (kind : Repetition) (deployment : Option Deployment) :
    Action MemoryReader Nat := do
  let length ← takeLength deployment
  checkLength .sequence (← get).limits.maxSequenceLength length
  openFrame (.counted kind length)
  return length

/-- Reads what announces a frame and opens it. -/
def enter (kind : FrameKind) (deployment : Option Deployment) : Action MemoryReader Opening := do
  match kind with
  | .struct =>
      onCursor (ReadCursor.align 8)
      openFrame (.plain .struct)
      return .struct
  | .polymorphic =>
      let serial ← onCursor do
        ReadCursor.align 4
        let run ← ReadCursor.take 4
        ReadCursor.align 8
        return UInt32.ofNat (LittleEndian.value run)
      openFrame (.plain .polymorphic)
      return .polymorphic serial
  | .variant =>
      let run ← onCursor (ReadCursor.take 1)
      openFrame (.plain .variant)
      return .variant (LittleEndian.value run)
  | .sequence => .sequence <$> enterRepeated .sequence deployment
  | .map => .map <$> enterRepeated .map deployment
  | .mapEntry =>
      openFrame (.plain .mapEntry)
      return .mapEntry

/-- Answers whether another item follows, and counts it. -/
def hasMore (kind : Repetition) (reader : MemoryReader) : Bool × MemoryReader :=
  match reader.error, reader.frames with
  | some _, _ => (false, reader)
  | none, .counted found remaining :: outer =>
      if found = kind then
        match remaining with
        | 0 => (false, reader)
        | remaining + 1 => (true, { reader with frames := .counted found remaining :: outer })
      else
        (false, Latch.setError
          (.unbalanced (.itemRequested kind (some (.counted found remaining)))) reader)
  | none, frames =>
      (false, Latch.setError (.unbalanced (.itemRequested kind frames.head?)) reader)

instance : InputStream MemoryReader where
  nesting reader := reader.limits.maxDepth
  leaf kind deployment := do
    Latch.check
    takeLeaf kind deployment
  enter kind deployment := do
    Latch.check
    enter kind deployment
  leave kind := do
    Latch.check
    closeFrame kind
  hasMore := hasMore

/-- Accepts a finished stream: no error is latched, no frame is open, every byte was read. -/
def finish (reader : MemoryReader) : Except StreamError Unit :=
  match reader.error, reader.frames with
  | some first, _ => .error first
  | none, frame :: _ => .error (.unbalanced (.stillReading frame))
  | none, [] =>
      if reader.cursor.atEnd then .ok ()
      else .error (.invalidData (.trailingBytes reader.remaining))

end MemoryReader

end ValueBus
