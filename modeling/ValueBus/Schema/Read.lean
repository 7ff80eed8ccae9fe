import ValueBus.DataType
import ValueBus.Deployment
import ValueBus.Stream.Input

/-!
# Reading values

A type is read by a program that follows the steps by which its values are written: the same frames
and the same deployments. The program of a declared type would be infinite if the type refers to
itself, so it is given an allowance, the number of declared types that may be entered inside one
another. Every one of them opens a frame, so a stream that bounds what can be entered never lets a
program run out of an allowance above that bound.
-/

namespace ValueBus

open ReadProgram
open Deployment (childOf)

mutual

/-- The program that reads a value of a type, given the programs of declared types. -/
def DataType.readWith (declared : Declared → Option Deployment → ReadProgram Value) :
    DataType → Option Deployment → ReadProgram Value
  | .leaf kind, deployment => .leaf <$> readLeaf kind deployment
  | .enumeration choices, deployment => do
      let leaf ← readLeaf (.number choices.base) deployment
      if choices.declares leaf then pure (.leaf leaf)
      else raise (.invalidEnumerator leaf.toInt)
  | .ranged range, deployment => do
      let leaf ← readLeaf (.number .int32) deployment
      if range.admits leaf then pure (.leaf leaf)
      else
        raise (.invalidData
          (.outOfRange leaf.toInt range.least.toInt range.greatest.toInt))
  | .boxed content, deployment => content.readWith declared deployment
  | .sequence item, deployment => do
      let opening ← enterFrame .sequence deployment
      let items ← repeatWhile .sequence
        (fun read => (· :: read) <$> item.readWith declared (childOf deployment 0))
        opening.length []
      checkLatch
      leaveFrame .sequence
      pure (.sequence items.reverse)
  | .map mapOrder key value, deployment => do
      let opening ← enterFrame .map deployment
      let entries ← repeatWhile .map
        (fun read => do
          let _ ← enterFrame .mapEntry none
          let key ← key.readWith declared (childOf deployment 0)
          let value ← value.readWith declared (childOf deployment 1)
          leaveFrame .mapEntry
          if Value.hasKey key read then raise (.invalidData .repeatedKey)
          else pure (Value.addEntry mapOrder key value read))
        opening.length []
      checkLatch
      leaveFrame .map
      pure (.map entries)
  | .tuple items, deployment => do
      let _ ← enterFrame .struct deployment
      let members ← DataType.readMembersWith declared items deployment 0
      leaveFrame .struct
      pure (.record members)
  | .declared name, deployment => declared name deployment

/-- The program that reads members in order, the first of which has the given position. -/
def DataType.readMembersWith (declared : Declared → Option Deployment → ReadProgram Value) :
    List DataType → Option Deployment → Nat → ReadProgram (List Value)
  | [], _, _ => pure []
  | type :: rest, deployment, position => do
      let member ← type.readWith declared (childOf deployment position)
      let members ← DataType.readMembersWith declared rest deployment (position + 1)
      pure (member :: members)

end

namespace Schema

/-- The program that reads the alternative of a set with the given index, its tag being known. -/
def readAlternative (declared : Declared → Option Deployment → ReadProgram Value)
    (alternatives : List Member) (tag : Nat) (deployment : Option Deployment) :
    ReadProgram Value :=
  match alternatives[tag]? with
  | some alternative =>
      .holding tag <$> alternative.type.readWith declared (childOf deployment tag)
  | none => raise (.unknownDiscriminator tag)

/-- The program that reads a declared type, at most `allowance` of which may be entered inside one
another. -/
def readDeclared (schema : Schema) :
    Nat → Declared → Option Deployment → ReadProgram Value
  | 0, _, _ => raise (.limitExceeded .nesting 0 1)
  | allowance + 1, .record name, deployment => do
      let _ ← enterFrame .struct deployment
      let members ← DataType.readMembersWith (schema.readDeclared allowance)
        ((schema.fields name).map Member.type) deployment 0
      leaveFrame .struct
      pure (.record members)
  | allowance + 1, .variant set, deployment => do
      let opening ← enterFrame .variant deployment
      let value ← readAlternative (schema.readDeclared allowance) (schema.alternatives set)
        opening.tag deployment
      leaveFrame .variant
      pure value

/-- The program that reads a value of a type. -/
def program (schema : Schema) (allowance : Nat) (type : DataType)
    (deployment : Option Deployment) : ReadProgram Value :=
  type.readWith (schema.readDeclared allowance) deployment

/-- The program that reads the value of a variant whose tag came out of band. -/
def taggedProgram (schema : Schema) (allowance : Nat) (set : String) (tag : Nat)
    (deployment : Option Deployment) : ReadProgram Value :=
  readAlternative (schema.readDeclared allowance) (schema.alternatives set) tag deployment

variable {σ : Type} [InputStream σ]

/-- The allowance of a stream. Between two variants that are entered inside one another there are at
most as many records as are declared, unless a record contains itself without a variant between. -/
def allowance (schema : Schema) (state : σ) : Nat :=
  (InputStream.nesting state + 1) * (schema.records.length + 2)

def read (schema : Schema) (type : DataType) (deployment : Option Deployment) :
    Action σ Value := fun state =>
  (schema.program (schema.allowance state) type deployment).run state

/-- Reads the value of a variant whose tag came out of band. -/
def readTagged (schema : Schema) (set : String) (tag : Nat) (deployment : Option Deployment) :
    Action σ Value := fun state =>
  (schema.taggedProgram (schema.allowance state) set tag deployment).run state

end Schema

end ValueBus
