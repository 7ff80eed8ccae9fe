/-!
# Interface versions

A major and a minor number, ordered by the major one first.
-/

namespace ValueBus

/-- The version of an interface. -/
structure Version where
  major : UInt32 := 0
  minor : UInt32 := 0
  deriving DecidableEq, Repr, Inhabited

namespace Version

def text (version : Version) : String :=
  s!"v{version.major.toNat}.{version.minor.toNat}"

def order (left right : Version) : Ordering :=
  (compare left.major right.major).then (compare left.minor right.minor)

end Version

end ValueBus
