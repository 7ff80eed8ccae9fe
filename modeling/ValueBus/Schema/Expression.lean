import ValueBus.DataType
import ValueBus.Digits

/-!
# Type expressions

Types by name: a name, a name applied to arguments in angle brackets, a tuple in parentheses, a run
in square brackets, a reference marked by an ampersand. What the names mean is up to a `Vocabulary`.
-/

namespace ValueBus

inductive TypeExpr where
  | apply (name : String) (arguments : List TypeExpr)
  | literal (value : Int)
  | tuple (items : List TypeExpr)
  | slice (item : TypeExpr)
  | reference (target : TypeExpr)
  deriving Repr, Inhabited

namespace TypeExpr

inductive Part where
  | word (text : String)
  | mark (symbol : Char)
  deriving DecidableEq, Repr

/-- Whether a character belongs to a name or a number. -/
def isWordChar (symbol : Char) : Bool :=
  symbol.isAlphanum || symbol = '_' || symbol = '-'

/-- Splits a text into words and marks; blanks separate and are dropped. `word` holds the characters
of the word that is being read, last one first. -/
def split (word : List Char) : List Char → List Part
  | [] => close word []
  | symbol :: rest =>
      if isWordChar symbol then split (symbol :: word) rest
      else if symbol = ' ' then close word (split [] rest)
      else close word (.mark symbol :: split [] rest)
where
  /-- Puts the word that was read, if any, in front of the parts after it. -/
  close (word : List Char) (parts : List Part) : List Part :=
    if word.isEmpty then parts else .word (String.ofList word.reverse) :: parts

mutual

/-- Parses one expression; the result comes with the parts after it. Every call takes a part, so the
number of parts bounds the calls. -/
def parseOne : Nat → List Part → Option (TypeExpr × List Part)
  | 0, _ => none
  | fuel + 1, .mark '&' :: rest => do
      let (target, rest) ← parseOne fuel rest
      return (.reference target, rest)
  | fuel + 1, .mark '[' :: rest => do
      let (item, rest) ← parseOne fuel rest
      match rest with
      | .mark ']' :: rest => return (.slice item, rest)
      | _ => none
  | fuel + 1, .mark '(' :: rest => do
      let (items, rest) ← parseMany fuel ')' rest
      return (.tuple items, rest)
  | fuel + 1, .word text :: rest =>
      match integer? text with
      | some value => some (.literal value, rest)
      | none =>
          match rest with
          | .mark '<' :: rest => do
              let (arguments, rest) ← parseMany fuel '>' rest
              return (.apply text arguments, rest)
          | rest => some (.apply text [], rest)
  | _ + 1, _ => none

/-- Parses expressions separated by commas up to a closing mark; a comma may stand before it. -/
def parseMany : Nat → Char → List Part → Option (List TypeExpr × List Part)
  | 0, _, _ => none
  | fuel + 1, closing, parts =>
      match parts with
      | .mark symbol :: rest =>
          if symbol = closing then some ([], rest) else parseItems fuel closing parts
      | _ => parseItems fuel closing parts

/-- Parses at least one expression and what follows it up to the closing mark. -/
def parseItems : Nat → Char → List Part → Option (List TypeExpr × List Part)
  | 0, _, _ => none
  | fuel + 1, closing, parts => do
      let (item, rest) ← parseOne fuel parts
      match rest with
      | .mark symbol :: rest =>
          if symbol = ',' then
            let (items, rest) ← parseMany fuel closing rest
            return (item :: items, rest)
          else if symbol = closing then
            return ([item], rest)
          else
            none
      | _ => none

end

/-- The expression that a text spells. -/
def parse (text : String) : Option TypeExpr :=
  let parts := split [] text.toList
  match parseOne (3 * parts.length + 3) parts with
  | some (expression, []) => some expression
  | _ => none

end TypeExpr

/-- What a name means that is applied to arguments. -/
inductive TypeFormer where
  | boxed
  | sequence
  | map (mapOrder : MapOrder)
  /-- A variant over the set named by the argument. -/
  | variant
  /-- A ranged integer; the arguments are its bounds. -/
  | ranged
  deriving DecidableEq, Repr

/-- The meaning of names in type expressions. -/
structure Vocabulary where
  types : List (String × DataType)
  formers : List (String × TypeFormer)

namespace Vocabulary

mutual

/-- The type that an expression denotes. -/
def resolve (vocabulary : Vocabulary) : TypeExpr → Option DataType
  | .apply name [] => vocabulary.types.lookup name
  | .apply name [argument] =>
      match vocabulary.formers.lookup name, argument with
      | some .boxed, _ => .boxed <$> vocabulary.resolve argument
      | some .sequence, _ => .sequence <$> vocabulary.resolve argument
      | some .variant, .apply set [] => some (.declared (.variant set))
      | _, _ => none
  | .apply name [first, second] =>
      match vocabulary.formers.lookup name, first, second with
      | some (.map mapOrder), _, _ => do
          return .map mapOrder (← vocabulary.resolve first) (← vocabulary.resolve second)
      | some .ranged, .literal least, .literal greatest =>
          some (.ranged ⟨Int32.ofInt least, Int32.ofInt greatest⟩)
      | _, _, _ => none
  | .apply _ _ => none
  | .literal _ => none
  | .tuple items => .tuple <$> vocabulary.resolveAll items
  | .slice item => .sequence <$> vocabulary.resolve item
  | .reference target => .boxed <$> vocabulary.resolve target

/-- The types that expressions denote. -/
def resolveAll (vocabulary : Vocabulary) : List TypeExpr → Option (List DataType)
  | [] => some []
  | expression :: rest => do
      return (← vocabulary.resolve expression) :: (← vocabulary.resolveAll rest)

end

/-- The type that a text denotes. -/
def typeOf? (vocabulary : Vocabulary) (text : String) : Option DataType := do
  vocabulary.resolve (← TypeExpr.parse text)

end Vocabulary

end ValueBus
