import ValueBus.Bytes.Utf8
import ValueBus.Event.Token
import ValueBus.Limits
import ValueBus.Stream.Frame

/-!
# Errors

A `StreamError` is what a stream latches: its kind and the cause within the kind. An `Error` is
what the library reports to its callers. Each type of cause has one function that gives its words;
a cause that a caller raises itself is `described` in the caller's words.
-/

namespace ValueBus

/-- Why a value could not be written at its offset. -/
inductive WriteFault where
  /-- A length that does not fit its length field of `width` bytes. -/
  | lengthTooLong (length width : Nat)
  /-- The index of an alternative that does not fit its byte. -/
  | tagTooLarge (tag : Nat)
  | described (reason : String)
  deriving DecidableEq, Repr

/-- Why nothing could be read at an offset. -/
inductive ReadFault where
  | endOfBuffer
  | described (reason : String)
  deriving DecidableEq, Repr

/-- Why data that could be read is no value. -/
inductive DataFault where
  | booleanByte (byte : UInt8)
  | unsupportedLengthWidth (width : Int)
  | missingTerminator
  | unterminated
  | notUtf8 (fault : Utf8.Fault)
  | repeatedKey
  | outOfRange (value least greatest : Int)
  | trailingBytes (count : Nat)
  /-- A stream delivered more items than it announced. -/
  | surplusItem
  | described (reason : String)
  deriving DecidableEq, Repr

/-- Why brackets do not pair up. -/
inductive BracketFault where
  /-- A written frame was ended while another one, or none, was innermost. -/
  | endedWriting (expected : FrameKind) (found : Option FrameKind)
  /-- A frame that is read was ended while another one, or none, was innermost. -/
  | endedReading (expected : FrameKind) (found : Option ReadFrame)
  /-- A repeating frame was ended before its last item. -/
  | itemsLeft (kind : Repetition) (remaining : Nat)
  /-- An item was asked for while no frame of its kind was innermost. -/
  | itemRequested (kind : Repetition) (found : Option ReadFrame)
  | stillWriting (frame : FrameKind)
  | stillReading (frame : ReadFrame)
  | described (reason : String)
  deriving DecidableEq, Repr

/-- What a limit bounds. -/
inductive LimitKind where
  | depth
  | string
  | byteBuffer
  | sequence
  /-- Declared types entered inside one another; the bound of a reader and not of a stream. -/
  | nesting
  | described (what : String)
  deriving DecidableEq, Repr

/-- The error of a stream. -/
inductive StreamError where
  | writeFailed (offset : Nat) (fault : WriteFault)
  | readFailed (offset : Nat) (fault : ReadFault)
  | invalidData (fault : DataFault)
  /-- A variant tag or polymorphic serial that nothing is declared for. -/
  | unknownDiscriminator (discriminator : Nat)
  /-- An empty variant cannot be written. -/
  | emptyVariant
  | limitExceeded (what : LimitKind) (limit actual : Nat)
  | invalidEnumerator (value : Int)
  | unbalanced (fault : BracketFault)
  deriving DecidableEq, Repr

def WriteFault.message : WriteFault → String
  | .lengthTooLong length width => s!"length {length} does not fit a {width}-byte prefix"
  | .tagTooLarge tag => s!"variant tag {tag} does not fit one byte"
  | .described reason => reason

def ReadFault.message : ReadFault → String
  | .endOfBuffer => "unexpected end of buffer"
  | .described reason => reason

def DataFault.message : DataFault → String
  | .booleanByte byte => s!"boolean byte {byte.toNat}"
  | .unsupportedLengthWidth width => s!"unsupported length width {width}"
  | .missingTerminator => "string length must include the terminator"
  | .unterminated => "string is not NUL-terminated"
  | .notUtf8 fault => s!"string is not UTF-8: {fault.message}"
  | .repeatedKey => "duplicate map key"
  | .outOfRange value least greatest => s!"{value} outside {least}..={greatest}"
  | .trailingBytes count => s!"{count} trailing bytes"
  | .surplusItem => "more items than announced"
  | .described reason => reason

def BracketFault.message : BracketFault → String
  | .endedWriting expected found =>
      let innermost := describeInnermost (found.map FrameKind.name)
      s!"end of {expected.name} while {innermost} is open"
  | .endedReading expected found =>
      let innermost := describeInnermost (found.map ReadFrame.name)
      s!"end of {expected.name} while {innermost} is open"
  | .itemsLeft kind remaining => s!"{remaining} {kind.frame.name} elements left unread"
  | .itemRequested kind found =>
      let innermost := describeInnermost (found.map ReadFrame.name)
      s!"{kind.frame.name} element requested while {innermost} is open"
  | .stillWriting frame => s!"{frame.name} still open"
  | .stillReading frame => s!"{frame.name} still open"
  | .described reason => reason

def LimitKind.name : LimitKind → String
  | .depth => "depth"
  | .string => "string"
  | .byteBuffer => "byte buffer"
  | .sequence => "sequence"
  | .nesting => "nesting"
  | .described what => what

def StreamError.kindName : StreamError → String
  | .writeFailed .. => "WriteFailed"
  | .readFailed .. => "ReadFailed"
  | .invalidData .. => "InvalidData"
  | .unknownDiscriminator .. => "UnknownDiscriminator"
  | .emptyVariant => "EmptyVariant"
  | .limitExceeded .. => "LimitExceeded"
  | .invalidEnumerator .. => "InvalidEnumValue"
  | .unbalanced .. => "Unbalanced"

def StreamError.message : StreamError → String
  | .writeFailed offset fault => s!"write failed at offset {offset}: {fault.message}"
  | .readFailed offset fault => s!"read failed at offset {offset}: {fault.message}"
  | .invalidData fault => s!"invalid data: {fault.message}"
  | .unknownDiscriminator discriminator => s!"unknown discriminator {discriminator}"
  | .emptyVariant => "cannot serialize an empty variant"
  | .limitExceeded what limit actual => s!"{what.name} limit exceeded: {actual} > {limit}"
  | .invalidEnumerator value => s!"value {value} is not a declared enumerator"
  | .unbalanced fault => s!"unbalanced stream: {fault.message}"

/-- The error of a call into the library. -/
inductive Error where
  /-- A variant was asked for an alternative that it does not hold; `found` is the name of the one
  it holds, if any. -/
  | typeMismatch (expected : String) (found : Option String)
  | unknownDiscriminator (discriminator : Nat)
  | serialization (error : StreamError)
  | invalidSubscription (token : Event.Token)
  | config (fault : ConfigFault)
  deriving DecidableEq, Repr

namespace Error

/-- What a stream error is to a caller: an unknown discriminator keeps its own kind. -/
def ofStream : StreamError → Error
  | .unknownDiscriminator discriminator => .unknownDiscriminator discriminator
  | error => .serialization error

/-- The stream error behind an error. -/
def source : Error → Option StreamError
  | .serialization error => some error
  | _ => none

def kindName : Error → String
  | .typeMismatch .. => "TypeMismatch"
  | .unknownDiscriminator .. => "UnknownDiscriminator"
  | .serialization .. => "SerializationError"
  | .invalidSubscription .. => "InvalidSubscription"
  | .config .. => "Config"

def message : Error → String
  | .typeMismatch expected (some found) =>
      s!"type mismatch: expected {expected}, variant holds {found}"
  | .typeMismatch expected none => s!"type mismatch: expected {expected}, variant is empty"
  | .unknownDiscriminator discriminator => s!"unknown discriminator: {discriminator}"
  | .serialization error => s!"serialization error: {error.message}"
  | .invalidSubscription token => s!"invalid subscription: {token.text}"
  | .config fault => s!"configuration error: {fault.message}"

end Error

end ValueBus
