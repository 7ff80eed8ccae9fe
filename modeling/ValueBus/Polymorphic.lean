import ValueBus.Schema.Read
import ValueBus.Value.Write

/-!
# Polymorphic structs

A polymorphic struct is written with the serial of its kind, and the reader finds the kind by that
serial in a `Registry`. A kind writes its fields in order, each with a share of the deployment of
the whole, and may put one struct bracket around them.

A registry keeps its kinds in a map that it does not implement itself. The map is a parameter, a
`KindMap`, and `LawfulKindMap` says what is relied on.
-/

namespace ValueBus

/-- What a field gets of the deployment of a polymorphic struct: nothing, or the part at a path. -/
inductive Share where
  | nothing
  | part (path : List Nat)
  deriving DecidableEq, Repr

namespace Share

def whole : Share :=
  .part []

def child (index : Nat) : Share :=
  .part [index]

def of : Share → Option Deployment → Option Deployment
  | .nothing, _ => none
  | .part path, deployment => Deployment.nodeAt deployment path

end Share

/-- A field of a kind; `initial` is its value in a new instance. -/
structure KindField where
  type : DataType
  share : Share
  initial : Value
  deriving Repr

/-- A concrete type of a polymorphic hierarchy. -/
structure Kind where
  name : String
  serial : UInt32
  /-- Whether the fields stand in a struct bracket. -/
  bracketed : Bool
  fields : List KindField
  deriving Repr

/-- An instance of a kind. -/
structure Instance where
  kind : Kind
  values : List Value
  deriving Repr

namespace Kind

/-- The instance whose fields have their initial values. -/
def create (kind : Kind) : Instance :=
  ⟨kind, kind.fields.map KindField.initial⟩

/-- The steps that write field values, each with its share of the deployment. -/
def fieldSteps (fields : List KindField) (values : List Value)
    (deployment : Option Deployment) : List WriteStep :=
  (fields.zip values).flatMap fun (field, value) => value.steps (field.share.of deployment)

/-- The steps that write the fields of an instance of the kind. -/
def steps (kind : Kind) (values : List Value) (deployment : Option Deployment) :
    List WriteStep :=
  if kind.bracketed then
    Value.entering .struct deployment ::
      fieldSteps kind.fields values deployment ++ [Value.leaving .struct]
  else
    fieldSteps kind.fields values deployment

/-- The program that reads field values, each with its share of the deployment. -/
def readFields (schema : Schema) (allowance : Nat) :
    List KindField → Option Deployment → ReadProgram (List Value)
  | [], _ => pure []
  | field :: rest, deployment => do
      let value ← schema.program allowance field.type (field.share.of deployment)
      let values ← readFields schema allowance rest deployment
      pure (value :: values)

/-- The program that reads the fields of an instance of the kind. -/
def program (kind : Kind) (schema : Schema) (allowance : Nat) (deployment : Option Deployment) :
    ReadProgram Instance := do
  if kind.bracketed then
    let _ ← ReadProgram.enterFrame .struct deployment
    let values ← readFields schema allowance kind.fields deployment
    ReadProgram.leaveFrame .struct
    pure ⟨kind, values⟩
  else
    let values ← readFields schema allowance kind.fields deployment
    pure ⟨kind, values⟩

end Kind

/-- The steps that write an instance: its serial, its fields, and the end of the struct. -/
def Instance.steps (written : Instance) (deployment : Option Deployment) : List WriteStep :=
  Value.entering (.polymorphic written.kind.serial) deployment ::
    written.kind.steps written.values deployment ++ [Value.leaving .polymorphic]

/-- A map from serials to kinds. What changes the map answers what was in it under the serial. -/
class KindMap (μ : Type) where
  empty : μ
  insert : μ → UInt32 → Kind → Option Kind × μ
  remove : μ → UInt32 → Option (UInt32 × Kind) × μ
  get? : μ → UInt32 → Option Kind
  containsKey : μ → UInt32 → Bool
  length : μ → Nat
  isEmpty : μ → Bool
  /-- The entries in the order in which the map runs through them. -/
  entries : μ → List (UInt32 × Kind)

/-- The operations of a map fit together. The order of the entries is left open. -/
class LawfulKindMap (μ : Type) [KindMap μ] : Prop where
  get?_empty (serial : UInt32) : KindMap.get? (KindMap.empty : μ) serial = none
  get?_insert (map : μ) (serial asked : UInt32) (kind : Kind) :
    KindMap.get? (KindMap.insert map serial kind).2 asked =
      if asked = serial then some kind else KindMap.get? map asked
  insert_answer (map : μ) (serial : UInt32) (kind : Kind) :
    (KindMap.insert map serial kind).1 = KindMap.get? map serial
  get?_remove (map : μ) (serial asked : UInt32) :
    KindMap.get? (KindMap.remove map serial).2 asked =
      if asked = serial then none else KindMap.get? map asked
  remove_answer (map : μ) (serial : UInt32) :
    (KindMap.remove map serial).1 = (KindMap.get? map serial).map fun kind => (serial, kind)
  containsKey_eq (map : μ) (serial : UInt32) :
    KindMap.containsKey map serial = (KindMap.get? map serial).isSome
  mem_entries_iff (map : μ) (serial : UInt32) (kind : Kind) :
    (serial, kind) ∈ KindMap.entries map ↔ KindMap.get? map serial = some kind
  serials_nodup (map : μ) : ((KindMap.entries map).map (·.1)).Nodup
  length_eq (map : μ) : KindMap.length map = (KindMap.entries map).length
  isEmpty_eq (map : μ) : KindMap.isEmpty map = (KindMap.entries map).isEmpty

/-- The kinds known under a serial. A kind may be known under a serial that is not its own. -/
structure Registry (μ : Type) where
  kinds : μ

namespace Registry

variable {μ : Type} [KindMap μ]

def empty : Registry μ :=
  ⟨KindMap.empty⟩

/-- The kind known under a serial. -/
def find? (registry : Registry μ) (serial : UInt32) : Option Kind :=
  KindMap.get? registry.kinds serial

def contains (registry : Registry μ) (serial : UInt32) : Bool :=
  KindMap.containsKey registry.kinds serial

def size (registry : Registry μ) : Nat :=
  KindMap.length registry.kinds

def isEmpty (registry : Registry μ) : Bool :=
  KindMap.isEmpty registry.kinds

/-- Makes a kind known under a serial; the answer is whether another one was. -/
def register (registry : Registry μ) (serial : UInt32) (kind : Kind) : Bool × Registry μ :=
  let (replaced, kinds) := KindMap.insert registry.kinds serial kind
  (replaced.isSome, ⟨kinds⟩)

/-- Forgets the kind under a serial; the answer is whether one was known. -/
def unregister (registry : Registry μ) (serial : UInt32) : Bool × Registry μ :=
  let (removed, kinds) := KindMap.remove registry.kinds serial
  (removed.isSome, ⟨kinds⟩)

/-- A new instance of the kind known under a serial. -/
def create (registry : Registry μ) (serial : UInt32) : Option Instance :=
  (registry.find? serial).map Kind.create

/-- The serials under which kinds are known, in order. -/
def serials (registry : Registry μ) : List UInt32 :=
  ((KindMap.entries registry.kinds).map (·.1)).mergeSort fun first second => first ≤ second

/-- The description of a registry: its serials in order. -/
def describe (registry : Registry μ) : String :=
  let serials := ", ".intercalate (registry.serials.map fun serial => toString serial.toNat)
  s!"PolymorphicRegistry \x7b serials: [{serials}] \x7d"

/-- The program that reads an instance of the kind that the registry knows under the serial. -/
def program (registry : Registry μ) (schema : Schema) (allowance : Nat)
    (deployment : Option Deployment) : ReadProgram Instance := do
  let opening ← ReadProgram.enterFrame .polymorphic deployment
  match registry.find? opening.serial with
  | none => .raise (.unknownDiscriminator opening.serial.toNat)
  | some kind =>
      let found ← kind.program schema allowance deployment
      ReadProgram.leaveFrame .polymorphic
      pure found

/-- Reads an instance of the kind that the registry knows under the serial. -/
def read {σ : Type} [InputStream σ] (registry : Registry μ) (schema : Schema)
    (deployment : Option Deployment) : Action σ Instance := fun state =>
  (registry.program schema (schema.allowance state) deployment).run state

end Registry

end ValueBus
