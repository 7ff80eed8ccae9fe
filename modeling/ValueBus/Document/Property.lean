import ValueBus.Digits
import ValueBus.Document.Cell

/-!
# Properties and directives

A node may carry properties: an anchor, by which references name it, and a tag, which says what it
is. A tag is a run of octets; it is written in full, or as the handle of a stem and a suffix.
Directives stand before a document and give the version of the language and the stems of handles.
-/

namespace ValueBus.Document

/-- A tag: octets, since escapes in it need not spell characters. -/
abbrev Tag := List UInt8

def Tag.ofText (text : String) : Tag :=
  text.toList.map (·.toNat.toUInt8)

def isNameSymbol (symbol : Char) : Bool :=
  symbol.isAlphanum || symbol = '_' || symbol = '-'

/-- Reads a name of one character at least. -/
def name? (cells : List Cell) : Option (String × List Cell) :=
  match takeRun isNameSymbol cells with
  | ([], _) => none
  | (symbols, rest) => some (String.ofList symbols, rest)

/-- Reads the name of an anchor or reference after its mark; a blank, a line end or a mark that no
name contains must follow. -/
def anchorName? (cells : List Cell) : Option (String × List Cell) := do
  let (name, rest) ← name? cells
  if endsWord rest || startsWith ['?', ':', ',', ']', '}', '%', '@', '\u0060'] rest then
    return (name, rest)
  else
    none

/-! ### Tags -/

def isTagSymbol (symbol : Char) : Bool :=
  isNameSymbol symbol || ";/?:@&=+$.%!~*'()".toList.contains symbol

/-- Whether a character may be part of a tag in full or of a stem. -/
def isStemSymbol (symbol : Char) : Bool :=
  isTagSymbol symbol || [',', '[', ']'].contains symbol

/-- The number of octets of a character, by its first octet. -/
def octetCount? (octet : Nat) : Option Nat :=
  if octet < 0x80 then some 1
  else if octet / 0x20 = 0x6 then some 2
  else if octet / 0x10 = 0xe then some 3
  else if octet / 0x8 = 0x1e then some 4
  else none

/-- The octets that characters of a tag spell. A percent sign and two digits are one octet; an octet
that starts a character is followed by the escapes of `further` more. -/
def octets? : (further : Nat) → List Char → Option Tag
  | 0, [] => some []
  | _ + 1, [] => none
  | further, '%' :: high :: low :: rest => do
      let octet ← digits? 16 [high, low]
      let further ← match further with
        | 0 => (· - 1) <$> octetCount? octet
        | further + 1 => if octet / 0x40 = 0x2 then some further else none
      return octet.toUInt8 :: (← octets? further rest)
  | 0, symbol :: rest =>
      if symbol = '%' then none else (symbol.toNat.toUInt8 :: ·) <$> octets? 0 rest
  | _ + 1, _ :: _ => none

/-- Reads the octets of a run of characters of a class. -/
def takeOctets? (inClass : Char → Bool) (cells : List Cell) : Option (Tag × List Cell) := do
  let (symbols, rest) := takeRun inClass cells
  return (← octets? 0 symbols, rest)

/-- Reads a tag in full, after its opening bracket. -/
def fullTag? (cells : List Cell) : Option (Tag × List Cell) := do
  let (tag, rest) ← takeOctets? isStemSymbol cells
  if tag.isEmpty || !startsWith ['>'] rest then none else return (tag, rest.drop 1)

/-- Reads a handle and a suffix after the exclamation mark of a tag. A name between two marks is a
handle, and so are two marks; otherwise the mark itself is the handle. A single mark is a tag in
full, whose handle is empty. -/
def shortTag? (cells : List Cell) : Option (String × Tag × List Cell) := do
  let (name, rest) := takeRun isNameSymbol cells
  if startsWith ['!'] rest then
    let (suffix, rest) ← takeOctets? isTagSymbol (rest.drop 1)
    if suffix.isEmpty then none else return (String.ofList ('!' :: name ++ ['!']), suffix, rest)
  else
    let (suffix, rest) ← takeOctets? isTagSymbol cells
    if suffix.isEmpty then return ("", Tag.ofText "!", rest) else return ("!", suffix, rest)

/-- Reads a tag after its exclamation mark. In a flow collection a comma may follow it. -/
def tag? (inFlow : Bool) (cells : List Cell) : Option (String × Tag × List Cell) := do
  let (handle, suffix, rest) ←
    if startsWith ['<'] cells then do
      let (tag, rest) ← fullTag? (cells.drop 1)
      pure ("", tag, rest)
    else
      shortTag? cells
  if endsWord rest || (inFlow && startsWith [','] rest) then
    return (handle, suffix, rest)
  else
    none

/-! ### Directives -/

inductive Directive where
  | version (major minor : Nat)
  | stem (handle : String) (stem : Tag)
  deriving DecidableEq, Repr

/-- Reads a number of nine digits at most. -/
def versionNumber? (cells : List Cell) : Option (Nat × List Cell) := do
  let (symbols, rest) := takeRun Char.isDigit cells
  if symbols.isEmpty || 9 < symbols.length then none else return (← digits? 10 symbols, rest)

/-- Reads the handle of a stem: an exclamation mark, or two with a name between them or without. -/
def stemHandle? (cells : List Cell) : Option (String × List Cell) :=
  if startsWith ['!'] cells then
    let (name, rest) := takeRun isNameSymbol (cells.drop 1)
    if startsWith ['!'] rest then some (String.ofList ('!' :: name ++ ['!']), rest.drop 1)
    else if name.isEmpty then some ("!", rest)
    else none
  else
    none

/-- Reads a directive after its percent sign, and the rest of its line. -/
def directive? (cells : List Cell) : Option (Directive × List Cell) := do
  let (name, rest) ← name? cells
  if !endsWord rest then none
  else
    let value := rest.dropWhile (isBlank ·.symbol)
    if name = "YAML" then
      let (major, rest) ← versionNumber? value
      if !startsWith ['.'] rest then none
      else
        let (minor, rest) ← versionNumber? (rest.drop 1)
        return (.version major minor, ← nextLine? rest)
    else if name = "TAG" then
      let (handle, rest) ← stemHandle? value
      if !startsWith [' ', '\t'] rest then none
      else
        let (stem, rest) ← takeOctets? isStemSymbol (rest.dropWhile (isBlank ·.symbol))
        if stem.isEmpty || !endsWord rest then none
        else return (.stem handle stem, ← nextLine? rest)
    else
      none

end ValueBus.Document
