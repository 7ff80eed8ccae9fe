import ValueBus.Document.Property
import ValueBus.Document.Scalar

/-!
# Tokens of a document

The cells of a document are grouped into tokens: its marks, properties and scalars. Block
collections have no marks of their own; tokens for where they start and end are derived from the
indentation. The colon of an entry comes after its key, so a token for the key is put back to where
the key started; `Lexer` remembers one such place for each open flow collection.
-/

namespace ValueBus.Document

/-- A piece of a document. -/
inductive Token where
  | directive (directive : Directive)
  | documentStart
  | documentEnd
  /-- The start of a sequence in block form. -/
  | sequence
  /-- The start of a mapping in block form. -/
  | mapping
  /-- The end of a collection in block form. -/
  | dedent
  | openBracket
  | closeBracket
  | openBrace
  | closeBrace
  | comma
  | item
  | key
  | value
  | reference (name : String)
  | anchor (name : String)
  | tag (handle : String) (suffix : Tag)
  | scalar (style : Style) (text : String)
  deriving DecidableEq, Repr

/-- A place where the key of an entry may have started: the number of tokens before it, its line and
column, and whether nothing else than a key can start there. -/
structure KeyPlace where
  before : Nat
  line : Nat
  column : Nat
  isRequired : Bool

/-- Whether a key that started at a place cannot reach to a cell: it is on one line and no longer
than 1024 characters. -/
def KeyPlace.isOutOfReach (place : KeyPlace) (cell : Cell) : Bool :=
  place.line < cell.line || place.column + 1024 < cell.column

/-- What is left of a place that is given up; a required key cannot be. -/
def KeyPlace.giveUp? : Option KeyPlace → Option (Option KeyPlace)
  | none => some none
  | some place => if place.isRequired then none else some none

/-- The state of grouping cells into tokens. -/
structure Lexer where
  cells : List Cell
  tokens : List Token := []
  /-- The indentations of the open block collections, the innermost first. -/
  indents : List Nat := []
  /-- Where a key may have started in the innermost collection. -/
  keyPlace : Option KeyPlace := none
  /-- Where a key may have started around each open flow collection, the innermost first. -/
  outerPlaces : List (Option KeyPlace) := []
  /-- Whether a key may start at the next token. -/
  keyAllowed : Bool := true

namespace Lexer

def inFlow (lexer : Lexer) : Bool :=
  !lexer.outerPlaces.isEmpty

def indent? (lexer : Lexer) : Option Nat :=
  lexer.indents.head?

def emit (lexer : Lexer) (token : Token) (rest : List Cell) : Lexer :=
  { lexer with tokens := token :: lexer.tokens, cells := rest }

/-- Puts a token behind the first `before` tokens. -/
def insert (lexer : Lexer) (before : Nat) (token : Token) : Lexer :=
  { lexer with tokens := lexer.tokens.insertIdx (lexer.tokens.length - before) token }

/-! ### Keys -/

/-- Gives up the place where a key may have started. -/
def dropKey (lexer : Lexer) : Option Lexer := do
  return { lexer with keyPlace := ← KeyPlace.giveUp? lexer.keyPlace }

/-- Notes a cell as the place where a key may start, if one may. In a block collection only a key
can start at the column of the collection. -/
def noteKey (lexer : Lexer) (cell : Cell) : Option Lexer := do
  if lexer.keyAllowed then
    let lexer ← lexer.dropKey
    let isRequired := !lexer.inFlow && lexer.indent? = some cell.column
    let place := ⟨lexer.tokens.length, cell.line, cell.column, isRequired⟩
    return { lexer with keyPlace := some place }
  else
    return lexer

/-- Gives up the places from which a key cannot reach to a cell. -/
def expireKeys (lexer : Lexer) (cell : Cell) : Option Lexer := do
  let expire (place : Option KeyPlace) : Option (Option KeyPlace) :=
    if place.any (·.isOutOfReach cell) then KeyPlace.giveUp? place else some place
  return { lexer with
    keyPlace := ← expire lexer.keyPlace
    outerPlaces := ← lexer.outerPlaces.mapM expire }

/-! ### Indentation -/

/-- Closes the block collections that a test on their indentation selects. A flow collection keeps
those around it open. -/
def close (lexer : Lexer) (ends : Nat → Bool) : Lexer :=
  if lexer.inFlow then lexer
  else
    let closed := (lexer.indents.takeWhile ends).map fun _ => Token.dedent
    { lexer with indents := lexer.indents.dropWhile ends, tokens := closed ++ lexer.tokens }

/-- Opens a block collection at a column behind the first `before` tokens, unless one is open at
that column. -/
def openBlock (lexer : Lexer) (column before : Nat) (token : Token) : Lexer :=
  if !lexer.inFlow && lexer.indent?.all (· < column) then
    { lexer.insert before token with indents := column :: lexer.indents }
  else
    lexer

/-- Opens a block collection at a cell, where an item or entry of it starts; none may start behind
other tokens of a line. -/
def startBlock (lexer : Lexer) (cell : Cell) (token : Token) : Option Lexer :=
  if lexer.inFlow then some lexer
  else if lexer.keyAllowed then some (lexer.openBlock cell.column lexer.tokens.length token)
  else none

/-! ### Blanks -/

/-- Skips blanks, line ends and comments; says whether a key may start then. A tab counts as a blank
where no key may start, and a line end outside of flow collections allows one. -/
def skipFrom (inFlow keyAllowed inComment : Bool) : List Cell → Bool × List Cell
  | [] => (keyAllowed, [])
  | cell :: rest =>
      if isLineEnd cell.symbol then
        skipFrom inFlow (keyAllowed || !inFlow) false rest
      else if inComment || cell.symbol = ' ' || (cell.symbol = '\t' && (inFlow || !keyAllowed)) then
        skipFrom inFlow keyAllowed inComment rest
      else if cell.symbol = '#' then
        skipFrom inFlow keyAllowed true rest
      else
        (keyAllowed, cell :: rest)

/-- Skips what stands before the next token. -/
def skip (lexer : Lexer) : Lexer :=
  let (keyAllowed, cells) := skipFrom lexer.inFlow lexer.keyAllowed false lexer.cells
  { lexer with keyAllowed, cells }

/-! ### Steps

Each step takes one token, whose first cell is `cell` and is followed by `rest`. -/

/-- A mark between documents, or a directive; all block collections end before it. -/
def boundary (lexer : Lexer) (token : Token) (rest : List Cell) : Option Lexer := do
  let lexer ← (lexer.close fun _ => true).dropKey
  return { lexer.emit token rest with keyAllowed := false }

/-- A bracket that opens a flow collection, which may be the key of an entry. -/
def openFlow (lexer : Lexer) (token : Token) (cell : Cell) (rest : List Cell) : Option Lexer := do
  let lexer ← lexer.noteKey cell
  return { lexer.emit token rest with
    keyPlace := none
    outerPlaces := lexer.keyPlace :: lexer.outerPlaces
    keyAllowed := true }

def closeFlow (lexer : Lexer) (token : Token) (rest : List Cell) : Option Lexer := do
  let lexer ← lexer.dropKey
  let lexer := { lexer.emit token rest with keyAllowed := false }
  match lexer.outerPlaces with
  | [] => return lexer
  | place :: places => return { lexer with keyPlace := place, outerPlaces := places }

def comma (lexer : Lexer) (rest : List Cell) : Option Lexer := do
  return { (← lexer.dropKey).emit .comma rest with keyAllowed := true }

def item (lexer : Lexer) (cell : Cell) (rest : List Cell) : Option Lexer := do
  let lexer ← (← lexer.startBlock cell .sequence).dropKey
  return { lexer.emit .item rest with keyAllowed := true }

def markedKey (lexer : Lexer) (cell : Cell) (rest : List Cell) : Option Lexer := do
  let lexer ← (← lexer.startBlock cell .mapping).dropKey
  return { lexer.emit .key rest with keyAllowed := !lexer.inFlow }

/-- The colon of a value. Where a key may have started, it did; otherwise the key was marked, or
there is none. -/
def value (lexer : Lexer) (cell : Cell) (rest : List Cell) : Option Lexer := do
  match lexer.keyPlace with
  | some place =>
      let lexer := lexer.insert place.before .key
      let lexer := lexer.openBlock place.column place.before .mapping
      return { lexer.emit .value rest with keyPlace := none, keyAllowed := false }
  | none =>
      let lexer ← lexer.startBlock cell .mapping
      return { lexer.emit .value rest with keyAllowed := !lexer.inFlow }

/-- A property or a scalar that may be a key or start one. -/
def nodePart (lexer : Lexer) (cell : Cell) (token : Token) (rest : List Cell) : Option Lexer := do
  return { (← lexer.noteKey cell).emit token rest with keyAllowed := false }

/-- A scalar in block form; a line follows it. -/
def blockScalar (lexer : Lexer) (style : Style) (rest : List Cell) : Option Lexer := do
  let lexer ← lexer.dropKey
  let (text, rest) ← blockScalar? style lexer.indent? rest
  return { lexer.emit (.scalar style text) rest with keyAllowed := true }

/-- A plain scalar; a key may start after it on a later line. -/
def plainScalar (lexer : Lexer) (cell : Cell) (rest : List Cell) : Option Lexer := do
  let lexer ← lexer.noteKey cell
  let indent := lexer.indent?.elim 0 (· + 1)
  let (text, isBroken, rest) ← plainFrom lexer.inFlow indent [] (.blanks []) (cell :: rest)
  return { lexer.emit (.scalar .plain text) rest with keyAllowed := isBroken }

def step (lexer : Lexer) (cell : Cell) (rest : List Cell) : Option Lexer := do
  if cell.column = 0 && cell.symbol = '%' then
    let (directive, rest) ← directive? rest
    lexer.boundary (.directive directive) rest
  else if startsRule '-' (cell :: rest) then lexer.boundary .documentStart (rest.drop 2)
  else if startsRule '.' (cell :: rest) then lexer.boundary .documentEnd (rest.drop 2)
  else if cell.symbol = '[' then lexer.openFlow .openBracket cell rest
  else if cell.symbol = '{' then lexer.openFlow .openBrace cell rest
  else if cell.symbol = ']' then lexer.closeFlow .closeBracket rest
  else if cell.symbol = '}' then lexer.closeFlow .closeBrace rest
  else if cell.symbol = ',' then lexer.comma rest
  else if cell.symbol = '-' && endsWord rest then lexer.item cell rest
  else if cell.symbol = '?' && (lexer.inFlow || endsWord rest) then lexer.markedKey cell rest
  else if cell.symbol = ':' && (lexer.inFlow || endsWord rest) then lexer.value cell rest
  else if cell.symbol = '*' then
    let (name, rest) ← anchorName? rest
    lexer.nodePart cell (.reference name) rest
  else if cell.symbol = '&' then
    let (name, rest) ← anchorName? rest
    lexer.nodePart cell (.anchor name) rest
  else if cell.symbol = '!' then
    let (handle, suffix, rest) ← tag? lexer.inFlow rest
    lexer.nodePart cell (.tag handle suffix) rest
  else if cell.symbol = '|' && !lexer.inFlow then lexer.blockScalar .literal rest
  else if cell.symbol = '>' && !lexer.inFlow then lexer.blockScalar .folded rest
  else if cell.symbol = '\'' then
    let (text, rest) ← singleQuotedFrom [] (.blanks []) rest
    lexer.nodePart cell (.scalar .quoted text) rest
  else if cell.symbol = '"' then
    let (text, rest) ← doubleQuotedFrom [] (.text (.blanks [])) rest
    lexer.nodePart cell (.scalar .quoted text) rest
  else if startsPlain lexer.inFlow cell rest then lexer.plainScalar cell rest
  else none

/-- The tokens of the cells that are left, behind those that were found. Every step takes a cell, so
the number of cells bounds the steps. -/
def run : (steps : Nat) → Lexer → Option (List Token)
  | 0, _ => none
  | steps + 1, lexer => do
      let lexer := lexer.skip
      match lexer.cells with
      | [] => return (← (lexer.close fun _ => true).dropKey).tokens.reverse
      | cell :: rest =>
          let lexer := (← lexer.expireKeys cell).close (cell.column < ·)
          run steps (← lexer.step cell rest)

end Lexer

def tokens? (cells : List Cell) : Option (List Token) :=
  Lexer.run (cells.length + 1) { cells }

end ValueBus.Document
