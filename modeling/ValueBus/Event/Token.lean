/-!
# Subscription tokens

A token names one listener of one event. Tokens are handed out in increasing order, starting at 1,
and are never used again.
-/

namespace ValueBus.Event

/-- The name of one subscription. -/
structure Token where
  id : Nat
  deriving DecidableEq, Repr, Inhabited

namespace Token

def text (token : Token) : String :=
  s!"#{token.id}"

/-- Order of issue. -/
instance : LT Token :=
  ⟨fun left right => left.id < right.id⟩

instance (left right : Token) : Decidable (left < right) :=
  inferInstanceAs (Decidable (left.id < right.id))

end Token

end ValueBus.Event
