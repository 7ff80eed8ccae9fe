import ValueBus.Document.Node

/-!
# Configuration documents

Documents of nested mappings, sequences and scalars, in block form (one entry a line, nesting by
indentation) or in flow form (brackets and commas). `Document.parse?` reads a text that holds one
document, or none, which counts as a document of an absent node.
-/

namespace ValueBus

/-- A document: its root and, by the numbers of references, the scalars with an anchor; `none`
stands for a collection. -/
structure Document where
  root : Document.Node
  anchored : List (Nat × Option Document.Scalar)
  deriving Repr

namespace Document

/-- The scalar that a node is or stands for. -/
def scalar? (document : Document) : Node → Option Scalar
  | .scalar scalar => some scalar
  | .reference number => (document.anchored.lookup number).join
  | _ => none

/-- The stems of handles that need no directive. -/
def standardStems : List (String × Tag) :=
  [("!", Tag.ofText "!"), ("!!", Tag.ofText "tag:yaml.org,2002:")]

/-- The stems of handles that directives give, and the tokens after the directives. A version may be
given once, and must be 1.1 or 1.2; a handle may be given one stem. -/
def readDirectives (hasVersion : Bool) (stems : List (String × Tag)) :
    List Token → Option (List (String × Tag) × List Token)
  | .directive (.version major minor) :: rest =>
      if hasVersion || major ≠ 1 || (minor ≠ 1 && minor ≠ 2) then none
      else readDirectives true stems rest
  | .directive (.stem handle stem) :: rest =>
      if (stems.lookup handle).isSome then none
      else readDirectives hasVersion ((handle, stem) :: stems) rest
  | rest => some (stems, rest)

def lacksRoot : List Token → Bool
  | [] => true
  | .directive _ :: _ | .documentStart :: _ | .documentEnd :: _ => true
  | _ => false

/-- The document of tokens whose directives were read. Only marks for its end may follow it. -/
def ofTokens? (stems : List (String × Tag)) (tokens : List Token) : Option Document := do
  let (root, progress) ← Reader.root { tokens, stems := stems ++ standardStems }
  if progress.tokens.all (· = .documentEnd) then return ⟨root, progress.anchored⟩ else none

/-- The document that a text holds. Directives call for the mark that starts a document; after that
mark its root may be absent. -/
def parse? (text : String) : Option Document := do
  let tokens ← tokens? (← cells? text)
  let absent : Document := ⟨.scalar .absent, []⟩
  match tokens, ← readDirectives false [] tokens with
  | [], _ => return absent
  | _, (stems, .documentStart :: rest) =>
      if lacksRoot rest then
        if rest.all (· = .documentEnd) then return absent else none
      else
        ofTokens? stems rest
  | .directive _ :: _, _ => none
  | _, _ => ofTokens? [] tokens

end Document

end ValueBus
