import ValueBus.Bytes.LittleEndian
import ValueBus.Document

/-!
# Entries of a document

A document of settings is a mapping of keys to numbers. A number is an unsigned integer of 64 bits,
decimal or with a base mark, and is written without quotes.
-/

namespace ValueBus.Document

/-- The number that digits spell in a base, if there is a digit and the number fits 64 bits. -/
def wordIn? (base : Nat) (symbols : List Char) : Option Nat :=
  if symbols.isEmpty then none else (digits? base symbols).filter (· < LittleEndian.span 8)

/-- The number that a text spells. One plus sign may stand before it. After a zero, `x`, `o` and `b`
mark the bases 16, 8 and 2; otherwise a zero stands alone. -/
def word? (text : String) : Option Nat :=
  let unsigned := match text.toList with
    | '+' :: rest => rest
    | symbols => symbols
  match unsigned with
  | '0' :: 'x' :: rest => wordIn? 16 rest
  | '0' :: 'o' :: rest => wordIn? 8 rest
  | '0' :: 'b' :: rest => wordIn? 2 rest
  | '0' :: _ :: _ => none
  | symbols => wordIn? 10 symbols

/-- The number of a scalar: plain, or a literal block that carries the tag of integers. -/
def number? (scalar : Scalar) : Option Nat :=
  let isNumeric := match scalar.style with
    | .plain => true
    | .literal => scalar.tag = some (Tag.ofText "tag:yaml.org,2002:int")
    | .quoted | .folded => false
  if isNumeric then word? scalar.text else none

/-- The entries of a text with a mapping, whose keys must be scalars. An absent root has none. -/
def entries? (text : String) : Option (List (String × Option Nat)) := do
  let document ← parse? text
  match document.root with
  | .mapping entries =>
      entries.mapM fun (key, value) =>
        return ((← document.scalar? key).text, (document.scalar? value).bind number?)
  | .scalar scalar => if scalar.style = .plain && scalar.text.isEmpty then some [] else none
  | _ => none

end ValueBus.Document
