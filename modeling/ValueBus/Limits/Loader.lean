import ValueBus.Bytes.Utf8
import ValueBus.Limits

/-!
# Loading limits

Limits come from a document with one entry for each bound; a bound without an entry keeps its
default, and entries with other keys are ignored. A bound must be a number, and none may be given
twice. The limits must pass validation.

How a document is written is not decided here. A loader is given the reader of documents.
-/

namespace ValueBus

/-- Reads the entries of a document, each with its key and the number that its value is, if it is
one. There are none if the text holds no document with entries. -/
abbrev EntryReader := String → Option (List (String × Option Nat))

namespace Limits

def field? (key : String) : Option LimitField :=
  fields.find? (·.key = key)

/-- The entries for bounds, in order. -/
def bounds (entries : List (String × Option Nat)) : List (LimitField × Option Nat) :=
  entries.filterMap fun (key, number) => (field? key).map fun field => (field, number)

/-- Sets bounds, each of them once. -/
def setBounds : List (LimitField × Option Nat) → Limits → Option Limits
  | [], limits => some limits
  | (field, number) :: rest, limits =>
      if field ∈ rest.map (·.1) then none
      else number.bind fun bound => setBounds rest (limits.set field bound)

/-- The limits of a document. -/
def ofDocument (entries? : EntryReader) (text : String) : Except ConfigFault Limits :=
  match (entries? text).bind fun entries => setBounds (bounds entries) {} with
  | none => .error .malformed
  | some limits => do
      limits.validate
      return limits

/-- The limits of the file at a path, given its bytes; none if there is no such file. -/
def ofFile (entries? : EntryReader) (path : String) : Option (List UInt8) → Except ConfigFault Limits
  | none => .error (.unreadable path "No such file or directory (os error 2)")
  | some bytes =>
      match Utf8.decode bytes with
      | .ok text => ofDocument entries? text
      | .error _ => .error (.unreadable path "stream did not contain valid UTF-8")

end Limits

end ValueBus
