/-!
# Deployments

A deployment is a tree of hints that travels beside a value and tunes how a binding represents it.
It never becomes part of the value. Composite values hand child `i` to their `i`-th member: record
fields and tuple items by position, sequence elements child 0, maps child 0 for keys and child 1
for values, variants the child at the index of the alternative. A missing hint or child means the
default representation, so most functions here take an optional deployment.
-/

namespace ValueBus

/-- A hint: a flag, an integer or a text. -/
inductive Hint where
  | flag (value : Bool)
  | integer (value : Int64)
  | text (value : String)
  deriving DecidableEq, Repr

/-- A tree of named hints. `hints` is sorted by name and holds each name once; `children` is
sparse: a member without a deployment of its own has none. -/
inductive Deployment where
  | node (hints : List (String × Hint)) (children : List (Option Deployment))
  deriving Repr

namespace Deployment

def empty : Deployment :=
  .node [] []

instance : Inhabited Deployment :=
  ⟨empty⟩

def hints : Deployment → List (String × Hint)
  | .node hints _ => hints

def children : Deployment → List (Option Deployment)
  | .node _ children => children

/-- Puts a hint into a list sorted by name, replacing a hint of the same name. -/
def insertHint (name : String) (hint : Hint) : List (String × Hint) → List (String × Hint)
  | [] => [(name, hint)]
  | (other, old) :: rest =>
      if name < other then (name, hint) :: (other, old) :: rest
      else if name = other then (name, hint) :: rest
      else (other, old) :: insertHint name hint rest

/-- The deployment with a hint added or replaced. -/
def withHint (deployment : Deployment) (name : String) (hint : Hint) : Deployment :=
  .node (insertHint name hint deployment.hints) deployment.children

/-- The slots with the one at `index` filled; missing slots before it stay empty. -/
def fillSlot (child : Deployment) : Nat → List (Option Deployment) → List (Option Deployment)
  | 0, [] => [some child]
  | 0, _ :: rest => some child :: rest
  | index + 1, [] => none :: fillSlot child index []
  | index + 1, slot :: rest => slot :: fillSlot child index rest

/-- The deployment with the deployment of member `index` attached, earlier slots left unset. -/
def withChild (deployment : Deployment) (index : Nat) (child : Deployment) : Deployment :=
  .node deployment.hints (fillSlot child index deployment.children)

/-- The hint of a name at the root. -/
def hint? (deployment : Deployment) (name : String) : Option Hint :=
  deployment.hints.lookup name

def integerHint? (deployment : Deployment) (name : String) : Option Int64 :=
  match deployment.hint? name with
  | some (.integer value) => some value
  | _ => none

def flagHint? (deployment : Deployment) (name : String) : Option Bool :=
  match deployment.hint? name with
  | some (.flag value) => some value
  | _ => none

def textHint? (deployment : Deployment) (name : String) : Option String :=
  match deployment.hint? name with
  | some (.text value) => some value
  | _ => none

def child? (deployment : Deployment) (index : Nat) : Option Deployment :=
  deployment.children[index]?.join

/-- The deployment of member `index` of an optional deployment. -/
def childOf (deployment : Option Deployment) (index : Nat) : Option Deployment :=
  deployment.bind (·.child? index)

/-- The node reached along a path of member indices. -/
def nodeAt (deployment : Option Deployment) (path : List Nat) : Option Deployment :=
  path.foldl childOf deployment

mutual

/-- Two deployments are equal when their hints and their slots are, trailing empty slots
included. -/
def beq : Deployment → Deployment → Bool
  | .node hints children, .node otherHints otherChildren =>
      hints == otherHints && slotsBeq children otherChildren

def slotsBeq : List (Option Deployment) → List (Option Deployment) → Bool
  | [], [] => true
  | none :: rest, none :: others => slotsBeq rest others
  | some child :: rest, some other :: others => beq child other && slotsBeq rest others
  | _, _ => false

end

instance : BEq Deployment :=
  ⟨beq⟩

/-- The name of the hint that sets the width of length fields. -/
def lengthWidthHint : String :=
  "length_width"

end Deployment

end ValueBus
