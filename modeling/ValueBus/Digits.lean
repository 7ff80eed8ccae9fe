/-!
# Digits

Digits up to base 16 and the numbers that they spell, most significant digit first. Letters stand
for the digits from ten on; both cases are read and the lower one is written.
-/

namespace ValueBus

def digit? (base : Nat) (symbol : Char) : Option Nat :=
  let value? : Option Nat :=
    if '0' ≤ symbol ∧ symbol ≤ '9' then some (symbol.toNat - '0'.toNat)
    else if 'a' ≤ symbol ∧ symbol ≤ 'f' then some (symbol.toNat - 'a'.toNat + 10)
    else if 'A' ≤ symbol ∧ symbol ≤ 'F' then some (symbol.toNat - 'A'.toNat + 10)
    else none
  value?.filter (· < base)

/-- The number that digits spell in a base; 0 if there are none. -/
def digits? (base : Nat) (symbols : List Char) : Option Nat :=
  symbols.foldlM (fun value symbol => do
    return value * base + (← digit? base symbol)) 0

/-- The integer that a text spells: decimal digits after an optional sign. -/
def integer? (text : String) : Option Int :=
  let magnitude (symbols : List Char) : Option Int :=
    if symbols.isEmpty then none else Int.ofNat <$> digits? 10 symbols
  match text.toList with
  | '-' :: symbols => (fun value => -value) <$> magnitude symbols
  | '+' :: symbols => magnitude symbols
  | symbols => magnitude symbols

/-- The `width` last hexadecimal digits of a number. -/
def hexDigits : Nat → Nat → List Char
  | 0, _ => []
  | width + 1, number => hexDigits width (number / 16) ++ [Nat.digitChar (number % 16)]

end ValueBus
