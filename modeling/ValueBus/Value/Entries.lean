import ValueBus.Value

/-!
# Map entries

Maps are lists of entries with distinct keys. An ordered map keeps its entries sorted by key, an
unordered one in the order in which they came. Adding an entry for a key that is present fails;
putting one replaces the value.
-/

namespace ValueBus

/-- How a map orders its entries. -/
inductive MapOrder where
  | sorted
  | unsorted
  deriving DecidableEq, Repr

namespace Value

/-- Whether two keys are the same. -/
def sameKey (left right : Value) : Bool :=
  (order left right).isEq

def hasKey (key : Value) (entries : List (Value × Value)) : Bool :=
  entries.any (sameKey key ·.1)

/-- Inserts an entry before the first greater key. -/
def insertSorted (key value : Value) : List (Value × Value) → List (Value × Value)
  | [] => [(key, value)]
  | entry :: rest =>
      if (order key entry.1).isLT then (key, value) :: entry :: rest
      else entry :: insertSorted key value rest

/-- Adds an entry whose key is not present. -/
def addEntry (mapOrder : MapOrder) (key value : Value) (entries : List (Value × Value)) :
    List (Value × Value) :=
  match mapOrder with
  | .sorted => insertSorted key value entries
  | .unsorted => entries ++ [(key, value)]

/-- Adds an entry, or replaces the value of the entry that has the key. -/
def putEntry (mapOrder : MapOrder) (key value : Value) (entries : List (Value × Value)) :
    List (Value × Value) :=
  if hasKey key entries then
    entries.map fun entry => if sameKey key entry.1 then (entry.1, value) else entry
  else
    addEntry mapOrder key value entries

/-- The map with the given entries, a later entry replacing an earlier one with its key. -/
def mapOf (mapOrder : MapOrder) (entries : List (Value × Value)) : Value :=
  .map (entries.foldl (fun present entry => putEntry mapOrder entry.1 entry.2 present) [])

end Value

end ValueBus
