import ValueBus.Digits

/-!
# Bytes as text

A run of bytes as a text of two hexadecimal digits for each byte, the high half first.
-/

namespace ValueBus.Hex

def encode (run : List UInt8) : String :=
  String.ofList (run.flatMap fun byte => hexDigits 2 byte.toNat)

/-- The bytes that digits spell; none if a digit is missing or is no digit. -/
def decodeDigits : List Char → Option (List UInt8)
  | [] => some []
  | high :: low :: rest => do
      let byte ← digits? 16 [high, low]
      return UInt8.ofNat byte :: (← decodeDigits rest)
  | [_] => none

/-- The bytes that a text spells. -/
def decode? (text : String) : Option (List UInt8) :=
  decodeDigits text.toList

end ValueBus.Hex
