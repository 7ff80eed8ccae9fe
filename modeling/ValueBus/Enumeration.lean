import ValueBus.Leaf

/-!
# Enumerations

An enumeration names some numbers of an integer kind; an enumerator is stored as its number. The
first one declared is the default. Numbers without a name are refused where they are read.
-/

namespace ValueBus

/-- The enumerators of an enumeration, in order of declaration, over its integer kind. -/
structure Enumeration where
  base : NumberKind
  enumerators : List (String × Number)
  kind_eq : ∀ enumerator ∈ enumerators, enumerator.2.kind = base
  deriving DecidableEq, Repr

namespace Enumeration

/-- The enumeration of the given names and integers; integers that do not fit are dropped. -/
def ofInts (base : NumberKind) (enumerators : List (String × Int)) : Enumeration where
  base
  enumerators := enumerators.filterMap fun (name, value) =>
    (base.ofInt? value).map fun number => (name, number)
  kind_eq := by
    intro enumerator enumeratorMem
    rcases List.mem_filterMap.1 enumeratorMem with ⟨⟨name, value⟩, _, made⟩
    rcases Option.map_eq_some_iff.1 made with ⟨number, found, rfl⟩
    exact NumberKind.kind_of_ofInt? found

def nameOf? (enumeration : Enumeration) (value : Number) : Option String :=
  (enumeration.enumerators.find? (·.2 = value)).map (·.1)

def valueOf? (enumeration : Enumeration) (name : String) : Option Number :=
  enumeration.enumerators.lookup name

/-- Whether a leaf is an enumerator. -/
def declares (enumeration : Enumeration) (leaf : Leaf) : Bool :=
  enumeration.enumerators.any fun enumerator => Leaf.number enumerator.2 = leaf

def default? (enumeration : Enumeration) : Option (String × Number) :=
  enumeration.enumerators.head?

end Enumeration

end ValueBus
