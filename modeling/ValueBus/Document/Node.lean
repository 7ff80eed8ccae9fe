import ValueBus.Document.Token

/-!
# Nodes of a document

The tokens of a document form a tree of scalars, sequences and mappings. A node may be a reference:
a number that stands for the node of an anchor. Numbers are given in the order of the document, each
the count of names that anchors had before it, so an anchor whose name was taken may share its
number with the next one; the last node with a number is the one that references mean.
-/

namespace ValueBus.Document

/-- A scalar with the tag that it carries, if it has one. -/
structure Scalar where
  style : Style
  tag : Option Tag
  text : String
  deriving DecidableEq, Repr

/-- A node of a document. -/
inductive Node where
  | scalar (scalar : Scalar)
  | reference (number : Nat)
  | sequence (items : List Node)
  | mapping (entries : List (Node × Node))
  deriving Repr, Inhabited

/-- The scalar that stands where nothing is written. -/
def Scalar.absent : Scalar :=
  ⟨.plain, none, ""⟩

/-- The state of reading nodes from tokens. -/
structure Progress where
  tokens : List Token
  stems : List (String × Tag)
  anchors : List (String × Nat) := []
  /-- The scalars with an anchor by its number, `none` for a collection, the latest first. -/
  anchored : List (Nat × Option Scalar) := []

abbrev Reader := StateT Progress Option

namespace Reader

def next? : Reader (Option Token) :=
  return (← get).tokens.head?

def advance : Reader Unit :=
  modify fun progress => { progress with tokens := progress.tokens.tail }

/-- Skips the next token if it is the given one, and says whether it was. -/
def takes (token : Token) : Reader Bool := do
  if (← next?) = some token then
    advance
    return true
  else
    return false

/-- Whether the next token is one of the given ones. -/
def isNext (tokens : List Token) : Reader Bool :=
  return (← next?).any tokens.contains

/-- Reads an anchor, if one is next. -/
def anchor : Reader (Option String) := do
  match ← next? with
  | some (.anchor name) => do
      advance
      return some name
  | _ => return none

/-- Reads a tag, if one is next; its handle must have a stem. -/
def tag : Reader (Option Tag) := do
  match ← next? with
  | some (.tag handle suffix) => do
      advance
      if handle = "" then return some suffix
      else
        match (← get).stems.lookup handle with
        | some stem => return some (stem ++ suffix)
        | none => failure
  | _ => return none

/-- Reads an anchor and a tag, in any order and each at most once. -/
def properties : Reader (Option String × Option Tag) := do
  match ← anchor with
  | some name => return (some name, ← tag)
  | none => do
      let tag ← tag
      if tag.isSome then return (← anchor, tag) else return (none, none)

/-- Gives an anchor its number, which stands for the node that starts here: a scalar, or `none` for
a collection. -/
def setAnchor (name : Option String) (target : Option Scalar) : Reader Unit :=
  match name with
  | none => return ()
  | some name =>
      modify fun progress =>
        let number := progress.anchors.length
        { progress with
          anchors := (name, number) :: progress.anchors.filter (·.1 ≠ name)
          anchored := (number, target) :: progress.anchored }

/-- Reads a reference; its anchor must stand before it. -/
def reference (name : String) : Reader Node := do
  advance
  match (← get).anchors.lookup name with
  | some number => return .reference number
  | none => failure

mutual

/-- Reads a node. `inBlock` says whether it may be a collection in block form, which is so outside
of flow collections; `inEntry` says whether it belongs to an entry in block form, where the items of
a sequence need no indentation of their own. Of three calls in a row one takes a token, so the
number of tokens bounds the calls. -/
def node : (fuel : Nat) → (inBlock inEntry : Bool) → Reader Node
  | 0, _, _ => failure
  | fuel + 1, inBlock, inEntry => do
      match ← next? with
      | some (.reference name) => reference name
      | _ => do
          let (name, tag) ← properties
          match ← next?, inBlock, inEntry with
          | some (.scalar style text), _, _ => do
              let scalar := ⟨style, tag, text⟩
              setAnchor name (some scalar)
              advance
              return .scalar scalar
          | some .openBracket, _, _ => do
              setAnchor name none
              advance
              return .sequence (← flowItems fuel true)
          | some .openBrace, _, _ => do
              setAnchor name none
              advance
              return .mapping (← flowEntries fuel true)
          | some .sequence, true, _ => do
              setAnchor name none
              advance
              return .sequence (← blockItems fuel)
          | some .mapping, true, _ => do
              setAnchor name none
              advance
              return .mapping (← blockEntries fuel)
          | some .item, _, true => do
              setAnchor name none
              return .sequence (← flushItems fuel)
          | _, _, _ => do
              if name.isNone && tag.isNone then failure
              else do
                let scalar := { Scalar.absent with tag }
                setAnchor name (some scalar)
                return .scalar scalar

/-- Reads a node that is absent if one of some tokens is next. -/
def nodeUnless : (fuel : Nat) → (stops : List Token) → (inBlock inEntry : Bool) → Reader Node
  | 0, _, _, _ => failure
  | fuel + 1, stops, inBlock, inEntry => do
      if ← isNext stops then return .scalar .absent else node fuel inBlock inEntry

def blockItems : (fuel : Nat) → Reader (List Node)
  | 0 => failure
  | fuel + 1 => do
      if ← takes .item then
        let item ← nodeUnless fuel [.item, .dedent] true false
        return item :: (← blockItems fuel)
      else if ← takes .dedent then return []
      else failure

/-- Reads the items of a sequence in block form that is indented like the entry around it. -/
def flushItems : (fuel : Nat) → Reader (List Node)
  | 0 => failure
  | fuel + 1 => do
      if ← takes .item then
        let item ← nodeUnless fuel [.item, .key, .value, .dedent] true false
        return item :: (← flushItems fuel)
      else return []

def blockEntries : (fuel : Nat) → Reader (List (Node × Node))
  | 0 => failure
  | fuel + 1 => do
      if ← takes .key then
        let key ← nodeUnless fuel [.key, .value, .dedent] true true
        let value ←
          if ← takes .value then nodeUnless fuel [.key, .value, .dedent] true true
          else pure (.scalar .absent)
        return (key, value) :: (← blockEntries fuel)
      else if ← takes .dedent then return []
      else failure

/-- Reads the items of a sequence in brackets. An item may be a mapping of one entry; where its key
is absent, the token that shows so is part of the entry. -/
def flowItems : (fuel : Nat) → (isFirst : Bool) → Reader (List Node)
  | 0, _ => failure
  | fuel + 1, isFirst => do
      if ← takes .closeBracket then return []
      else if ← (if isFirst then pure false else not <$> takes .comma) then failure
      else if ← takes .key then
        let key ←
          if ← isNext [.value, .comma, .closeBracket] then do
            advance
            pure (.scalar .absent)
          else
            node fuel false false
        let value ←
          if ← takes .value then nodeUnless fuel [.comma, .closeBracket] false false
          else pure (.scalar .absent)
        return .mapping [(key, value)] :: (← flowItems fuel false)
      else if ← takes .closeBracket then return []
      else
        let item ← node fuel false false
        return item :: (← flowItems fuel false)

/-- Reads the entries of a mapping in braces. -/
def flowEntries : (fuel : Nat) → (isFirst : Bool) → Reader (List (Node × Node))
  | 0, _ => failure
  | fuel + 1, isFirst => do
      if ← takes .closeBrace then return []
      else if ← (if isFirst then pure false else not <$> takes .comma) then failure
      else if ← takes .key then
        let key ← nodeUnless fuel [.value, .comma, .closeBrace] false false
        let value ←
          if ← takes .value then nodeUnless fuel [.comma, .closeBrace] false false
          else pure (.scalar .absent)
        return (key, value) :: (← flowEntries fuel false)
      else if ← takes .closeBrace then return []
      else
        let key ← node fuel false false
        return (key, .scalar .absent) :: (← flowEntries fuel false)

end

def root : Reader Node := do
  node (3 * (← get).tokens.length + 3) true false

end Reader

end ValueBus.Document
