/-!
# UTF-8 text

Text is stored as the UTF-8 bytes of its characters. Decoding is an automaton that reads one byte
at a time: after a lead byte it knows how many continuation bytes must follow and, for the first of
them, the range that excludes overlong forms, surrogates and numbers past the last code point.
Every refusal is a `Fault` that says where the text went wrong.
-/

namespace ValueBus.Utf8

def encode (text : String) : List UInt8 :=
  text.toList.flatMap String.utf8EncodeChar

/-- Why a run of bytes is no text; `index` is the length of the valid part before the fault. -/
inductive Fault where
  /-- A sequence of `length` bytes that no continuation can make valid. -/
  | invalid (length index : Nat)
  /-- The run ends inside a sequence that is valid so far. -/
  | incomplete (index : Nat)
  deriving DecidableEq, Repr

def Fault.message : Fault → String
  | .invalid length index => s!"invalid utf-8 sequence of {length} bytes from index {index}"
  | .incomplete index => s!"incomplete utf-8 byte sequence from index {index}"

/-- What a lead byte announces: its share of the code point, the range of the byte after it, and
the number of continuation bytes after that one. -/
structure Lead where
  payload : Nat
  low : UInt8
  high : UInt8
  further : Nat
  deriving Repr

/-- The announcement of a lead byte of a sequence of two, three or four bytes. -/
def lead? (byte : UInt8) : Option Lead :=
  if byte < 0xc2 then none
  else if byte < 0xe0 then some ⟨byte.toNat - 0xc0, 0x80, 0xbf, 0⟩
  else if byte = 0xe0 then some ⟨0, 0xa0, 0xbf, 1⟩
  else if byte = 0xed then some ⟨0xd, 0x80, 0x9f, 1⟩
  else if byte < 0xf0 then some ⟨byte.toNat - 0xe0, 0x80, 0xbf, 1⟩
  else if byte = 0xf0 then some ⟨0, 0x90, 0xbf, 2⟩
  else if byte < 0xf4 then some ⟨byte.toNat - 0xf0, 0x80, 0xbf, 2⟩
  else if byte = 0xf4 then some ⟨4, 0x80, 0x8f, 2⟩
  else none

/-- What the decoder expects next. -/
inductive State where
  | start
  /-- A continuation byte between `low` and `high`; `seen` bytes of the character were read, which
  spell `payload`, and `further` more follow the expected one. -/
  | inside (payload : Nat) (low high : UInt8) (further seen : Nat)
  deriving Repr

/-- Decodes the rest of a text whose first `index` bytes were read. -/
def decodeFrom (index : Nat) : State → List UInt8 → Except Fault (List Char)
  | .start, [] => .ok []
  | .inside _ _ _ _ seen, [] => .error (.incomplete (index - seen))
  | .start, byte :: rest =>
      if byte < 0x80 then
        (Char.ofNat byte.toNat :: ·) <$> decodeFrom (index + 1) .start rest
      else
        match lead? byte with
        | none => .error (.invalid 1 index)
        | some lead =>
            decodeFrom (index + 1) (.inside lead.payload lead.low lead.high lead.further 1) rest
  | .inside payload low high further seen, byte :: rest =>
      if low ≤ byte ∧ byte ≤ high then
        let payload := payload * 64 + (byte.toNat - 0x80)
        match further with
        | 0 => (Char.ofNat payload :: ·) <$> decodeFrom (index + 1) .start rest
        | further + 1 =>
            decodeFrom (index + 1) (.inside payload 0x80 0xbf further (seen + 1)) rest
      else
        .error (.invalid seen (index - seen))

/-- The text that a run of bytes spells, or the first fault in it. -/
def decode (bytes : List UInt8) : Except Fault String :=
  String.ofList <$> decodeFrom 0 .start bytes

end ValueBus.Utf8
