import ValueBus.Digits
import ValueBus.Document.Cell

/-!
# Scalars of a document

A scalar is written plainly, in quotes, or as a block of lines below a header. The readers here take
the cells of one scalar and return its text and the cells after it; `none` means that no scalar is
written so. They walk over the cells one by one and keep the text that they have read in reverse.
-/

namespace ValueBus.Document

inductive Style where
  | plain
  | quoted
  | literal
  | folded
  deriving DecidableEq, Repr

/-! ### Gaps between words -/

/-- What stands since the last word of a plain or quoted scalar: blanks on its line, or line ends,
whose blanks do not count. The latest character is first. An escaped line end does not count either,
and then no line end of the gap is folded. -/
inductive Gap where
  | blanks (run : List Char)
  | lineEnds (folds : Bool) (run : List Char)

namespace Gap

def blank (symbol : Char) : Gap → Gap
  | blanks run => blanks (symbol :: run)
  | gap => gap

def lineEnd (symbol : Char) : Gap → Gap
  | blanks _ => lineEnds true [symbol]
  | lineEnds folds run => lineEnds folds (symbol :: run)

def isBroken : Gap → Bool
  | blanks _ => false
  | lineEnds _ _ => true

def isNone : Gap → Bool
  | blanks run => run.isEmpty
  | lineEnds _ _ => false

/-- What is left of line ends that are folded: the first is dropped, and is a blank if it is alone.
Separators are not folded. -/
def fold : List Char → List Char
  | ['\n'] => [' ']
  | '\n' :: more => more
  | separators => separators

def text : Gap → List Char
  | blanks run => run
  | lineEnds true run => (fold run.reverse).reverse
  | lineEnds false run => run

end Gap

/-! ### Plain scalars -/

def flowMarks : List Char :=
  [',', '[', ']', '{', '}']

/-- Whether a plain scalar ends before these cells: at a line that is indented too little, at a mark
of the document, at a comment, at the colon of an entry, or at a mark of the flow collection around
it. -/
def endsPlain (inFlow : Bool) (indent : Nat) (gap : Gap) (cell : Cell) (rest : List Cell) : Bool :=
  (gap.isBroken && !inFlow && cell.column < indent) ||
    startsMark (cell :: rest) ||
    (!gap.isNone && cell.symbol = '#') ||
    (cell.symbol = ':' && endsWord rest) ||
    (inFlow && flowMarks.contains cell.symbol)

/-- Reads a plain scalar whose lines after the first are indented by `indent` at least; says too
whether the cells after it are on a later line. In a flow collection no colon may touch a mark. -/
def plainFrom (inFlow : Bool) (indent : Nat) (text : List Char) (gap : Gap) :
    List Cell → Option (String × Bool × List Cell)
  | [] => some (String.ofList text.reverse, gap.isBroken, [])
  | cell :: rest =>
      if isBlank cell.symbol then
        if cell.symbol = '\t' && gap.isBroken && cell.column < indent then none
        else plainFrom inFlow indent text (gap.blank cell.symbol) rest
      else if isLineEnd cell.symbol then
        plainFrom inFlow indent text (gap.lineEnd cell.symbol) rest
      else if endsPlain inFlow indent gap cell rest then
        some (String.ofList text.reverse, gap.isBroken, cell :: rest)
      else if inFlow && cell.symbol = ':' && startsWith ('?' :: flowMarks) rest then
        none
      else
        plainFrom inFlow indent (cell.symbol :: (gap.text ++ text)) (.blanks []) rest

/-- The characters that start something else than a plain scalar. -/
def reserved : List Char :=
  ['-', '?', ':', '#', '&', '*', '!', '|', '>', '\'', '"', '%', '@', '\u0060'] ++ flowMarks

/-- Whether a plain scalar starts here. A dash starts one before a character of a word, and so do a
question mark and a colon outside of flow collections. -/
def startsPlain (inFlow : Bool) (cell : Cell) (rest : List Cell) : Bool :=
  if cell.symbol = '-' then !endsWord rest
  else if cell.symbol = '?' || cell.symbol = ':' then !inFlow && !endsWord rest
  else !isBlank cell.symbol && !reserved.contains cell.symbol

/-! ### Quoted scalars -/

/-- Reads a scalar in single quotes after its opening quote; a doubled quote is one. No line of it
starts with a mark of the document. -/
def singleQuotedFrom (text : List Char) (gap : Gap) : List Cell → Option (String × List Cell)
  | [] => none
  | cell :: rest =>
      if isBlank cell.symbol then
        singleQuotedFrom text (gap.blank cell.symbol) rest
      else if isLineEnd cell.symbol then
        singleQuotedFrom text (gap.lineEnd cell.symbol) rest
      else if startsMark (cell :: rest) then
        none
      else if cell.symbol = '\'' then
        match rest with
        | [] => some (String.ofList (gap.text ++ text).reverse, [])
        | next :: after =>
            if next.symbol = '\'' then
              singleQuotedFrom ('\'' :: (gap.text ++ text)) (.blanks []) after
            else
              some (String.ofList (gap.text ++ text).reverse, next :: after)
      else
        singleQuotedFrom (cell.symbol :: (gap.text ++ text)) (.blanks []) rest

/-- The characters that escapes of one character stand for in double quotes. -/
def escapes : List (Char × Char) :=
  [('0', '\x00'), ('a', '\x07'), ('b', '\x08'), ('t', '\t'), ('\t', '\t'), ('n', '\n'),
   ('v', '\x0b'), ('f', '\x0c'), ('r', '\r'), ('e', '\x1b'), (' ', ' '), ('"', '"'), ('/', '/'),
   ('\\', '\\'), ('N', '\u0085'), ('_', '\u00a0'), ('L', '\u2028'), ('P', '\u2029')]

/-- The number of hexadecimal digits of the escapes that name a code point. -/
def codeEscapes : List (Char × Nat) :=
  [('x', 2), ('u', 4), ('U', 8)]

/-- What a reader of a scalar in double quotes has before it: text after a gap, the character of an
escape, or `further + 1` digits of a code point whose digits so far spell `value`. -/
inductive Expected where
  | text (gap : Gap)
  | escape
  | digits (further value : Nat)

/-- Reads a scalar in double quotes after its opening quote. No line of it starts with a mark of the
document. -/
def doubleQuotedFrom (text : List Char) : Expected → List Cell → Option (String × List Cell)
  | _, [] => none
  | .text gap, cell :: rest =>
      if isBlank cell.symbol then
        doubleQuotedFrom text (.text (gap.blank cell.symbol)) rest
      else if isLineEnd cell.symbol then
        doubleQuotedFrom text (.text (gap.lineEnd cell.symbol)) rest
      else if startsMark (cell :: rest) then
        none
      else if cell.symbol = '"' then
        some (String.ofList (gap.text ++ text).reverse, rest)
      else if cell.symbol = '\\' then
        doubleQuotedFrom (gap.text ++ text) .escape rest
      else
        doubleQuotedFrom (cell.symbol :: (gap.text ++ text)) (.text (.blanks [])) rest
  | .escape, cell :: rest =>
      if isLineEnd cell.symbol then
        doubleQuotedFrom text (.text (.lineEnds false [])) rest
      else
        match codeEscapes.lookup cell.symbol, escapes.lookup cell.symbol with
        | some count, _ => doubleQuotedFrom text (.digits (count - 1) 0) rest
        | none, some symbol => doubleQuotedFrom (symbol :: text) (.text (.blanks [])) rest
        | none, none => none
  | .digits further value, cell :: rest =>
      match digit? 16 cell.symbol, further with
      | none, _ => none
      | some digit, further + 1 => doubleQuotedFrom text (.digits further (value * 16 + digit)) rest
      | some digit, 0 =>
          if (value * 16 + digit).isValidChar then
            let symbol := Char.ofNat (value * 16 + digit)
            doubleQuotedFrom (symbol :: text) (.text (.blanks [])) rest
          else
            none

/-! ### Block scalars -/

/-- What becomes of the line ends after the last line of a block scalar. -/
inductive Chomping where
  | strip
  | clip
  | keep

/-- The sign for a chomping, if one is next. -/
def takeSign : List Cell → Option Chomping × List Cell
  | [] => (none, [])
  | cell :: rest =>
      if cell.symbol = '-' then (some .strip, rest)
      else if cell.symbol = '+' then (some .keep, rest)
      else (none, cell :: rest)

/-- The digit for an indentation, if one is next; zero is refused. -/
def takeDigit : List Cell → Option (Option Nat × List Cell)
  | [] => some (none, [])
  | cell :: rest =>
      match digit? 10 cell.symbol with
      | none => some (none, cell :: rest)
      | some 0 => none
      | some digit => some (some digit, rest)

/-- Reads the header of a block scalar after its mark: a sign and a digit at most, in any order. -/
def blockHeader? (cells : List Cell) : Option (Chomping × Option Nat × List Cell) := do
  let (before, cells) := takeSign cells
  let (digit, cells) ← takeDigit cells
  let (after, cells) := if before.isSome then (none, cells) else takeSign cells
  return ((before <|> after).getD .clip, digit, ← nextLine? cells)

/-- The indentation of a block whose header does not give it: that of its first line with text, or
of an empty line before it that is longer, but `least` at least. A tab does not indent. -/
def blockIndent? (least : Nat) : List Cell → Option Nat
  | [] => some least
  | cell :: rest =>
      if cell.symbol = ' ' then blockIndent? (max least (cell.column + 1)) rest
      else if isLineEnd cell.symbol then blockIndent? least rest
      else if cell.symbol = '\t' then none
      else some least

/-- What was read of a block scalar: its text, the end of its last line, the ends of the empty lines
after it, whether that line starts with a blank, and whether it is still being read. The latest
character is first. -/
structure Block where
  text : List Char := []
  lastEnd : List Char := []
  emptyEnds : List Char := []
  startsBlank : Bool := false
  inLine : Bool := false

namespace Block

/-- Starts a line with a character. Between two lines that start with text, a folded scalar has a
blank in place of a line end, or only the ends of the empty lines. -/
def startLine (block : Block) (style : Style) (symbol : Char) : Block :=
  let folds := style = .folded && block.lastEnd = ['\n'] && !block.startsBlank && !isBlank symbol
  let lastEnd :=
    if !folds then block.lastEnd else if block.emptyEnds.isEmpty then [' '] else []
  { text := symbol :: (block.emptyEnds ++ lastEnd ++ block.text)
    startsBlank := isBlank symbol
    inLine := true }

/-- The text of a block that ends here. -/
def result (block : Block) : Chomping → String
  | .strip => String.ofList block.text.reverse
  | .clip => String.ofList (block.lastEnd ++ block.text).reverse
  | .keep => String.ofList (block.emptyEnds ++ block.lastEnd ++ block.text).reverse

/-- Reads the lines of a block at an indentation. It ends before a text that is indented less. -/
def readFrom (style : Style) (chomping : Chomping) (indent : Nat) (block : Block) :
    List Cell → Option (String × List Cell)
  | [] => some (block.result chomping, [])
  | cell :: rest =>
      if block.inLine then
        if isLineEnd cell.symbol then
          let block := { block with lastEnd := [cell.symbol], inLine := false }
          readFrom style chomping indent block rest
        else
          readFrom style chomping indent { block with text := cell.symbol :: block.text } rest
      else if isLineEnd cell.symbol then
        let block := { block with emptyEnds := cell.symbol :: block.emptyEnds }
        readFrom style chomping indent block rest
      else if indent ≤ cell.column then
        readFrom style chomping indent (block.startLine style cell.symbol) rest
      else if cell.symbol = ' ' then
        readFrom style chomping indent block rest
      else if cell.symbol = '\t' then
        none
      else
        some (block.result chomping, cell :: rest)

end Block

/-- Reads a block scalar after its mark; `parent` is the indentation of the collection around it. -/
def blockScalar? (style : Style) (parent : Option Nat) (cells : List Cell) :
    Option (String × List Cell) := do
  let (chomping, digit, cells) ← blockHeader? cells
  let indent ← match digit with
    | some digit => some (parent.getD 0 + digit)
    | none => blockIndent? (parent.elim 1 (· + 1)) cells
  Block.readFrom style chomping indent {} cells

end ValueBus.Document
