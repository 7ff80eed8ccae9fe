/-!
# Cells of a document

A document is read as a run of cells: characters, each with the line and the column at which it
stands, both counted from zero. Columns decide what is nested in what, and lines decide how far the
key of an entry may reach, so both are fixed here, once, before anything is read.
-/

namespace ValueBus.Document

/-- A character and its place. -/
structure Cell where
  symbol : Char
  line : Nat
  column : Nat
  deriving DecidableEq, Repr

def isBlank (symbol : Char) : Bool :=
  symbol = ' ' || symbol = '\t'

def isLineEnd (symbol : Char) : Bool :=
  symbol = '\n' || symbol = '\u2028' || symbol = '\u2029'

/-- Whether a character may occur in a document: control characters and the two code points that
are no characters may not. -/
def isAllowed (symbol : Char) : Bool :=
  ['\t', '\n', '\r', '\u0085'].contains symbol || (' ' ≤ symbol && symbol ≤ '~') ||
    ('\u00a0' ≤ symbol && symbol ≠ '\ufffe' && symbol ≠ '\uffff')

/-- The cells of characters from a place on. A carriage return, a line feed, both in this order, and
the next-line character are one line end; the line and paragraph separators keep their identity. -/
def cellsFrom (line column : Nat) : List Char → List Cell
  | [] => []
  | '\r' :: '\n' :: rest => ⟨'\n', line, column⟩ :: cellsFrom (line + 1) 0 rest
  | symbol :: rest =>
      if symbol = '\r' || symbol = '\u0085' then ⟨'\n', line, column⟩ :: cellsFrom (line + 1) 0 rest
      else if isLineEnd symbol then ⟨symbol, line, column⟩ :: cellsFrom (line + 1) 0 rest
      else ⟨symbol, line, column⟩ :: cellsFrom line (column + 1) rest

/-- The cells of a text whose characters may all occur. A byte order mark at its start is skipped,
but keeps its column. -/
def cells? (text : String) : Option (List Cell) :=
  if text.toList.all isAllowed then
    some <| match text.toList with
      | '\ufeff' :: rest => cellsFrom 0 1 rest
      | symbols => cellsFrom 0 0 symbols
  else
    none

/-- Whether a word cannot go on: what follows is a blank, a line end or nothing. -/
def endsWord : List Cell → Bool
  | [] => true
  | cell :: _ => isBlank cell.symbol || isLineEnd cell.symbol

def startsWith (symbols : List Char) : List Cell → Bool
  | [] => false
  | cell :: _ => symbols.contains cell.symbol

/-- Whether a line starts with a character three times, as a word of its own. -/
def startsRule (symbol : Char) : List Cell → Bool
  | first :: second :: third :: rest =>
      first.column = 0 && [first, second, third].all (·.symbol = symbol) && endsWord rest
  | _ => false

/-- Whether a line starts with a mark at which a document starts or ends. -/
def startsMark (cells : List Cell) : Bool :=
  startsRule '-' cells || startsRule '.' cells

/-- The longest run of characters of a class, and the cells after it. -/
def takeRun (inClass : Char → Bool) (cells : List Cell) : List Char × List Cell :=
  ((cells.takeWhile (inClass ·.symbol)).map Cell.symbol, cells.dropWhile (inClass ·.symbol))

/-- The cells after this line, on which only blanks and a comment may be left. -/
def nextLine? (cells : List Cell) : Option (List Cell) :=
  let cells := cells.dropWhile (isBlank ·.symbol)
  let cells := if startsWith ['#'] cells then cells.dropWhile (!isLineEnd ·.symbol) else cells
  match cells with
  | [] => some []
  | cell :: rest => if isLineEnd cell.symbol then some rest else none

end ValueBus.Document
