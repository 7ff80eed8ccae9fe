import ValueBus.Stream.Output
import ValueBus.Value

/-!
# Writing values

A value is written by a list of steps that depends on the value and on its deployment alone. Record
members get the child of their position, items of a sequence child 0, keys child 0 and values
child 1, the value of a variant the child at the index of its alternative. A vacant variant cannot
be written: its only step raises an error.
-/

namespace ValueBus.Value

open Deployment (childOf)

def entering (opening : Opening) (deployment : Option Deployment) : WriteStep :=
  .call (.enter opening deployment)

def leaving (kind : FrameKind) : WriteStep :=
  .call (.leave kind)

mutual

/-- The steps that write a value. -/
def steps : Value → Option Deployment → List WriteStep
  | .leaf value, deployment => [.call (.leaf value deployment)]
  | .sequence items, deployment =>
      entering (.sequence items.length) deployment ::
        itemSteps items (childOf deployment 0) ++ [leaving .sequence]
  | .map entries, deployment =>
      entering (.map entries.length) deployment ::
        entrySteps entries (childOf deployment 0) (childOf deployment 1) ++ [leaving .map]
  | .record members, deployment =>
      entering .struct deployment :: memberSteps members deployment 0 ++ [leaving .struct]
  | .vacant, _ => [.raise .emptyVariant]
  | .holding index value, deployment =>
      entering (.variant index) deployment ::
        steps value (childOf deployment index) ++ [leaving .variant]

/-- The steps that write the items of a sequence, all with the same deployment. -/
def itemSteps : List Value → Option Deployment → List WriteStep
  | [], _ => []
  | item :: rest, deployment => steps item deployment ++ itemSteps rest deployment

/-- The steps that write the entries of a map, each between its own brackets. -/
def entrySteps :
    List (Value × Value) → Option Deployment → Option Deployment → List WriteStep
  | [], _, _ => []
  | (key, value) :: rest, keyDeployment, valueDeployment =>
      entering .mapEntry none :: steps key keyDeployment ++ steps value valueDeployment ++
        leaving .mapEntry :: entrySteps rest keyDeployment valueDeployment

/-- The steps that write members, the first of which has the given position. -/
def memberSteps : List Value → Option Deployment → Nat → List WriteStep
  | [], _, _ => []
  | member :: rest, deployment, position =>
      steps member (childOf deployment position) ++ memberSteps rest deployment (position + 1)

end

/-- Writes a value to a stream. -/
def write {σ : Type} [OutputStream σ] (value : Value) (deployment : Option Deployment) :
    Action σ Unit :=
  WriteStep.runAll (value.steps deployment)

end ValueBus.Value

namespace ValueBus

/-- A value with a deployment of its own, which wins over the one it is written with. -/
structure Deployed where
  value : Value
  deployment : Deployment

/-- The steps that write a deployed value. -/
def Deployed.steps (deployed : Deployed) (_ : Option Deployment) : List WriteStep :=
  deployed.value.steps (some deployed.deployment)

end ValueBus
