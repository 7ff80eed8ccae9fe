import Mathlib.Tactic.SplitIfs
import ValueBus.Bytes.Utf8

/-!
# Decoding inverts encoding

This file proves that `Utf8.decode` accepts exactly the encodings of texts, and answers the text
that was encoded.

The decoder is an automaton and the encoder a formula, so the two are compared through what the
decoder expects after a lead byte: `Completes` says which bytes complete a character and which
code point they spell. The encoder produces such bytes for every character, and bytes of that kind
are what the encoder writes for the code point that they spell.
-/

namespace ValueBus.Utf8

/-- The bytes of `run` complete a character whose bytes so far spell `payload`: the first one lies
between `low` and `high`, `further` continuation bytes follow, and together they spell `code`. -/
inductive Completes : Nat → UInt8 → UInt8 → Nat → List UInt8 → Nat → Prop where
  | last {payload : Nat} {low high byte : UInt8} :
      low ≤ byte → byte ≤ high →
      Completes payload low high 0 [byte] (payload * 64 + (byte.toNat - 0x80))
  | more {payload further code : Nat} {low high byte : UInt8} {run : List UInt8} :
      low ≤ byte → byte ≤ high →
      Completes (payload * 64 + (byte.toNat - 0x80)) 0x80 0xbf further run code →
      Completes payload low high (further + 1) (byte :: run) code

theorem decodeFrom_of_completes {payload further code : Nat} {low high : UInt8}
    {run : List UInt8} (completes : Completes payload low high further run code)
    (index seen : Nat) (rest : List UInt8) :
    ∃ next, decodeFrom index (.inside payload low high further seen) (run ++ rest) =
      (Char.ofNat code :: ·) <$> decodeFrom next .start rest := by
  induction completes generalizing index seen with
  | last above below =>
      exact ⟨index + 1, by simp [decodeFrom, above, below]⟩
  | more above below _ ih =>
      rcases ih (index + 1) (seen + 1) with ⟨next, ended⟩
      exact ⟨next, by simpa [decodeFrom, above, below] using ended⟩

/-- Inside a character the decoder accepts only bytes that complete it. -/
theorem completes_of_decodeFrom {bytes : List UInt8} {symbols : List Char}
    {index payload further seen : Nat} {low high : UInt8}
    (accepted : decodeFrom index (.inside payload low high further seen) bytes = .ok symbols) :
    ∃ run rest code symbolsLeft next,
      bytes = run ++ rest ∧ Completes payload low high further run code ∧
        symbols = Char.ofNat code :: symbolsLeft ∧
        decodeFrom next .start rest = .ok symbolsLeft := by
  induction bytes generalizing index payload further seen low high with
  | nil => simp [decodeFrom] at accepted
  | cons byte rest ih =>
      rw [decodeFrom] at accepted
      split at accepted
      case isFalse => contradiction
      case isTrue inRange =>
        cases further with
        | zero =>
            cases decoded : decodeFrom (index + 1) .start rest with
            | error fault => simp [decoded, Functor.map, Except.map] at accepted
            | ok symbolsLeft =>
                simp only [decoded, Functor.map, Except.map, Except.ok.injEq] at accepted
                exact ⟨[byte], rest, _, symbolsLeft, index + 1, rfl,
                  .last inRange.1 inRange.2, accepted.symm, decoded⟩
        | succ further =>
            rcases ih accepted with
              ⟨run, rest, code, symbolsLeft, next, rfl, completes, spelled, decoded⟩
            exact ⟨byte :: run, rest, code, symbolsLeft, next, rfl,
              .more inRange.1 inRange.2 completes, spelled, decoded⟩

/-- What a lead byte announces, with its bounds as numbers. -/
theorem lead?_ofNat {number : Nat} (small : number < 256) : lead? (UInt8.ofNat number) =
    if number < 0xc2 then none
    else if number < 0xe0 then some ⟨number - 0xc0, 0x80, 0xbf, 0⟩
    else if number = 0xe0 then some ⟨0, 0xa0, 0xbf, 1⟩
    else if number = 0xed then some ⟨0xd, 0x80, 0x9f, 1⟩
    else if number < 0xf0 then some ⟨number - 0xe0, 0x80, 0xbf, 1⟩
    else if number = 0xf0 then some ⟨0, 0x90, 0xbf, 2⟩
    else if number < 0xf4 then some ⟨number - 0xf0, 0x80, 0xbf, 2⟩
    else if number = 0xf4 then some ⟨4, 0x80, 0x8f, 2⟩
    else none := by
  have toNatNumber : (UInt8.ofNat number).toNat = number := UInt8.toNat_ofNat_of_lt' small
  simp [lead?, UInt8.lt_iff_toNat_lt, ← UInt8.toNat_inj, toNatNumber]

/-- The lowest six bits of a code point, in a continuation byte, complete the rest of it. -/
theorem Completes.last_ofNat (code : Nat) :
    Completes (code / 64) 0x80 0xbf 0 [UInt8.ofNat (code % 0x40 + 0x80)] code := by
  have small : (UInt8.ofNat (code % 0x40 + 0x80)).toNat = code % 0x40 + 0x80 :=
    by rw [UInt8.toNat_ofNat', Nat.mod_eq_of_lt (by omega)]
  have completes : Completes (code / 64) 0x80 0xbf 0 [UInt8.ofNat (code % 0x40 + 0x80)]
      (code / 64 * 64 + ((UInt8.ofNat (code % 0x40 + 0x80)).toNat - 0x80)) := by
    apply Completes.last <;> rw [UInt8.le_iff_toNat_le, small]
    · simp
    · simp
      omega
  rwa [small, show code / 64 * 64 + (code % 0x40 + 0x80 - 0x80) = code by omega] at completes

/-- Six bits in the middle of a code point, in a byte that the bytes before it admit. -/
theorem Completes.more_ofNat {payload further code : Nat} {low high : UInt8}
    {run : List UInt8} (above : low.toNat ≤ payload % 0x40 + 0x80)
    (below : payload % 0x40 + 0x80 ≤ high.toNat)
    (completes : Completes payload 0x80 0xbf further run code) :
    Completes (payload / 64) low high (further + 1)
      (UInt8.ofNat (payload % 0x40 + 0x80) :: run) code := by
  have small : (UInt8.ofNat (payload % 0x40 + 0x80)).toNat = payload % 0x40 + 0x80 :=
    by rw [UInt8.toNat_ofNat', Nat.mod_eq_of_lt (by omega)]
  apply Completes.more
  · rwa [UInt8.le_iff_toNat_le, small]
  · rwa [UInt8.le_iff_toNat_le, small]
  · rwa [small, show payload / 64 * 64 + (payload % 0x40 + 0x80 - 0x80) = payload by omega]

theorem utf8EncodeChar_eq (symbol : Char) : String.utf8EncodeChar symbol =
    if symbol.toNat ≤ 0x7f then [UInt8.ofNat symbol.toNat]
    else if symbol.toNat ≤ 0x7ff then
      [UInt8.ofNat (symbol.toNat / 64 % 0x20 + 0xc0), UInt8.ofNat (symbol.toNat % 0x40 + 0x80)]
    else if symbol.toNat ≤ 0xffff then
      [UInt8.ofNat (symbol.toNat / 4096 % 0x10 + 0xe0),
        UInt8.ofNat (symbol.toNat / 64 % 0x40 + 0x80), UInt8.ofNat (symbol.toNat % 0x40 + 0x80)]
    else
      [UInt8.ofNat (symbol.toNat / 262144 % 0x08 + 0xf0),
        UInt8.ofNat (symbol.toNat / 4096 % 0x40 + 0x80),
        UInt8.ofNat (symbol.toNat / 64 % 0x40 + 0x80),
        UInt8.ofNat (symbol.toNat % 0x40 + 0x80)] :=
  rfl

/-- The lead byte of a character of three bytes: its announcement admits the second byte. -/
theorem exists_lead_of_three (code : Nat) (large : 0x800 ≤ code) (small : code ≤ 0xffff)
    (valid : code < 0xd800 ∨ 0xdfff < code) :
    ∃ low high, lead? (UInt8.ofNat (code / 4096 % 0x10 + 0xe0)) =
        some ⟨code / 64 / 64, low, high, 1⟩ ∧
      low.toNat ≤ code / 64 % 0x40 + 0x80 ∧ code / 64 % 0x40 + 0x80 ≤ high.toNat := by
  rw [lead?_ofNat (by omega), if_neg (by omega), if_neg (by omega)]
  by_cases first : code / 64 / 64 = 0
  · refine ⟨0xa0, 0xbf, ?_, by simp; omega, by simp; omega⟩
    rw [if_pos (by omega), first]
  by_cases surrogates : code / 64 / 64 = 0xd
  · refine ⟨0x80, 0x9f, ?_, by simp, by simp; omega⟩
    rw [if_neg (by omega), if_pos (by omega), surrogates]
  · refine ⟨0x80, 0xbf, ?_, by simp, by simp; omega⟩
    rw [if_neg (by omega), if_neg (by omega), if_pos (by omega)]
    simp only [Option.some.injEq, Lead.mk.injEq, and_true]
    omega

/-- The lead byte of a character of four bytes: its announcement admits the second byte. -/
theorem exists_lead_of_four (code : Nat) (large : 0x10000 ≤ code) (small : code < 0x110000) :
    ∃ low high, lead? (UInt8.ofNat (code / 262144 % 0x08 + 0xf0)) =
        some ⟨code / 64 / 64 / 64, low, high, 2⟩ ∧
      low.toNat ≤ code / 64 / 64 % 0x40 + 0x80 ∧ code / 64 / 64 % 0x40 + 0x80 ≤ high.toNat := by
  rw [lead?_ofNat (by omega), if_neg (by omega), if_neg (by omega), if_neg (by omega),
    if_neg (by omega), if_neg (by omega)]
  by_cases first : code / 64 / 64 / 64 = 0
  · refine ⟨0x90, 0xbf, ?_, by simp; omega, by simp; omega⟩
    rw [if_pos (by omega), first]
  by_cases last : code / 64 / 64 / 64 = 4
  · refine ⟨0x80, 0x8f, ?_, by simp, by simp; omega⟩
    rw [if_neg (by omega), if_neg (by omega), if_pos (by omega), last]
  · refine ⟨0x80, 0xbf, ?_, by simp, by simp; omega⟩
    rw [if_neg (by omega), if_pos (by omega)]
    simp only [Option.some.injEq, Lead.mk.injEq, and_true]
    omega

/-- A character that is not a single byte is a lead byte and bytes that complete it. -/
theorem exists_lead_of_le (symbol : Char) (large : 0x80 ≤ symbol.toNat) :
    ∃ number lead run, String.utf8EncodeChar symbol = UInt8.ofNat number :: run ∧
      0x80 ≤ number ∧ number < 256 ∧ lead? (UInt8.ofNat number) = some lead ∧
      Completes lead.payload lead.low lead.high lead.further run symbol.toNat := by
  have valid : symbol.toNat < 0xd800 ∨ 0xdfff < symbol.toNat ∧ symbol.toNat < 0x110000 :=
    symbol.valid
  rw [utf8EncodeChar_eq]
  generalize symbol.toNat = code at *
  by_cases two : code ≤ 0x7ff
  · refine ⟨code / 64 % 0x20 + 0xc0, ⟨code / 64, 0x80, 0xbf, 0⟩, _,
      by rw [if_neg (by omega), if_pos two], by omega, by omega, ?_, .last_ofNat code⟩
    rw [lead?_ofNat (by omega), if_neg (by omega), if_pos (by omega)]
    simp only [Option.some.injEq, Lead.mk.injEq, and_true]
    omega
  by_cases three : code ≤ 0xffff
  · rcases exists_lead_of_three code (by omega) three (by omega) with
      ⟨low, high, found, above, below⟩
    exact ⟨_, _, _, by rw [if_neg (by omega), if_neg two, if_pos three], by omega, by omega,
      found, .more_ofNat above below (.last_ofNat code)⟩
  · rcases exists_lead_of_four code (by omega) (by omega) with ⟨low, high, found, above, below⟩
    have middle : Completes (code / 64 / 64) 0x80 0xbf 1 [UInt8.ofNat (code / 64 % 0x40 + 0x80),
        UInt8.ofNat (code % 0x40 + 0x80)] code :=
      .more_ofNat (by simp) (by simp; omega) (.last_ofNat code)
    refine ⟨_, _, _, ?_, by omega, by omega, found, .more_ofNat above below middle⟩
    rw [if_neg (by omega), if_neg two, if_neg three, Nat.div_div_eq_div_mul code 64 64]

theorem decodeFrom_utf8EncodeChar (symbol : Char) (index : Nat) (rest : List UInt8) :
    ∃ next, decodeFrom index .start (String.utf8EncodeChar symbol ++ rest) =
      (symbol :: ·) <$> decodeFrom next .start rest := by
  by_cases large : 0x80 ≤ symbol.toNat
  · rcases exists_lead_of_le symbol large with
      ⟨number, lead, run, encoded, above, below, found, completes⟩
    rcases decodeFrom_of_completes completes (index + 1) 1 rest with ⟨next, decoded⟩
    have high : ¬ UInt8.ofNat number < 0x80 := by
      rw [UInt8.lt_iff_toNat_lt, UInt8.toNat_ofNat', Nat.mod_eq_of_lt below]
      simpa using above
    refine ⟨next, ?_⟩
    rw [encoded, List.cons_append, decodeFrom, if_neg high, found]
    simpa using decoded
  · have small : (UInt8.ofNat symbol.toNat).toNat = symbol.toNat := by
      rw [UInt8.toNat_ofNat', Nat.mod_eq_of_lt (by omega)]
    have low : UInt8.ofNat symbol.toNat < 0x80 := by
      simp only [UInt8.lt_iff_toNat_lt, small]
      simp
      omega
    refine ⟨index + 1, ?_⟩
    rw [utf8EncodeChar_eq, if_pos (by omega), List.singleton_append, decodeFrom, if_pos low,
      small, Char.ofNat_toNat]

theorem decodeFrom_encode (symbols : List Char) (index : Nat) :
    decodeFrom index .start (symbols.flatMap String.utf8EncodeChar) = .ok symbols := by
  induction symbols generalizing index with
  | nil => rfl
  | cons symbol rest ih =>
      rcases decodeFrom_utf8EncodeChar symbol index (rest.flatMap String.utf8EncodeChar) with
        ⟨next, decoded⟩
      simp only [List.flatMap_cons, decoded, ih]
      rfl

/-- Decoding an encoded text gives the text back. -/
theorem decode_encode (text : String) : decode (encode text) = .ok text := by
  simp only [decode, encode, decodeFrom_encode]
  simp [Functor.map, Except.map]

/-- What the bounds of a lead byte's announcement are, by the number of bytes that follow. -/
theorem lead?_cases {byte : UInt8} {lead : Lead} (found : lead? byte = some lead) :
    (lead.further = 0 ∧ byte.toNat = lead.payload + 0xc0 ∧ 2 ≤ lead.payload ∧
      lead.payload < 0x20 ∧ 0x80 ≤ lead.low.toNat ∧ lead.high.toNat ≤ 0xbf) ∨
    (lead.further = 1 ∧ byte.toNat = lead.payload + 0xe0 ∧ lead.payload < 0x10 ∧
      0x80 ≤ lead.low.toNat ∧ lead.high.toNat ≤ 0xbf ∧
      (lead.payload = 0 → 0xa0 ≤ lead.low.toNat) ∧
      (lead.payload = 0xd → lead.high.toNat ≤ 0x9f)) ∨
    (lead.further = 2 ∧ byte.toNat = lead.payload + 0xf0 ∧ lead.payload ≤ 4 ∧
      0x80 ≤ lead.low.toNat ∧ lead.high.toNat ≤ 0xbf ∧
      (lead.payload = 0 → 0x90 ≤ lead.low.toNat) ∧
      (lead.payload = 4 → lead.high.toNat ≤ 0x8f)) := by
  rw [← @UInt8.ofNat_toNat byte, lead?_ofNat byte.toNat_lt] at found
  split_ifs at found <;> rw [Option.some.injEq] at found <;> subst found <;> simp <;> omega

/-- The byte of a continuation, as six bits over the mark of continuations. -/
theorem ofNat_continuation {payload : Nat} {byte : UInt8} (least : 0x80 ≤ byte.toNat)
    (greatest : byte.toNat ≤ 0xbf) :
    UInt8.ofNat ((payload * 64 + (byte.toNat - 0x80)) % 0x40 + 0x80) = byte := by
  rw [← UInt8.toNat_inj, UInt8.toNat_ofNat']
  omega

/-- The last byte that completes a character holds the lowest six bits of its code point. -/
theorem Completes.eq_last {payload code : Nat} {low high : UInt8} {run : List UInt8}
    (completes : Completes payload low high 0 run code) (least : 0x80 ≤ low.toNat)
    (greatest : high.toNat ≤ 0xbf) :
    payload = code / 64 ∧ run = [UInt8.ofNat (code % 0x40 + 0x80)] ∧
      low.toNat ≤ code % 0x40 + 0x80 ∧ code % 0x40 + 0x80 ≤ high.toNat := by
  cases completes with
  | last above below =>
      simp only [UInt8.le_iff_toNat_le] at above below
      refine ⟨by omega, ?_, by omega, by omega⟩
      rw [ofNat_continuation (by omega) (by omega)]

theorem Completes.eq_more {payload further code : Nat} {low high : UInt8} {run : List UInt8}
    (completes : Completes payload low high (further + 1) run code)
    (least : 0x80 ≤ low.toNat) (greatest : high.toNat ≤ 0xbf) :
    ∃ upper rest, payload = upper / 64 ∧ run = UInt8.ofNat (upper % 0x40 + 0x80) :: rest ∧
      low.toNat ≤ upper % 0x40 + 0x80 ∧ upper % 0x40 + 0x80 ≤ high.toNat ∧
      Completes upper 0x80 0xbf further rest code := by
  cases completes with
  | more above below completes =>
      simp only [UInt8.le_iff_toNat_le] at above below
      refine ⟨_, _, ?_, ?_, ?_, ?_, completes⟩
      · omega
      · rw [ofNat_continuation (by omega) (by omega)]
      · omega
      · omega

theorem toNat_ofNat_of_valid {code : Nat} (valid : code.isValidChar) :
    (Char.ofNat code).toNat = code := by
  rw [Char.ofNat, dif_pos valid]
  rfl

/-- What a lead byte and the bytes that complete it spell is encoded by them. -/
theorem utf8EncodeChar_of_completes {byte : UInt8} {lead : Lead} {run : List UInt8} {code : Nat}
    (found : lead? byte = some lead)
    (completes : Completes lead.payload lead.low lead.high lead.further run code) :
    String.utf8EncodeChar (Char.ofNat code) = byte :: run := by
  rcases lead with ⟨payload, low, high, further⟩
  rcases lead?_cases found with
    ⟨rfl, number, _, _, least, greatest⟩ |
    ⟨rfl, number, _, least, greatest, first, surrogates⟩ |
    ⟨rfl, number, _, least, greatest, first, last⟩ <;> simp only at *
  · rcases completes.eq_last least greatest with ⟨rfl, rfl, _, _⟩
    have valid : code.isValidChar := .inl (by omega)
    have byteEq : UInt8.ofNat (code / 64 % 0x20 + 0xc0) = byte := by
      rw [← UInt8.toNat_inj, UInt8.toNat_ofNat']
      omega
    rw [utf8EncodeChar_eq, toNat_ofNat_of_valid valid, if_neg (by omega), if_pos (by omega),
      byteEq]
  · rcases completes.eq_more least greatest with ⟨upper, rest, rfl, rfl, _, _, completes⟩
    rcases completes.eq_last (by simp) (by simp) with ⟨rfl, rfl, _, _⟩
    have valid : code.isValidChar := by
      by_cases below : code < 0xd800
      · exact .inl below
      · exact .inr ⟨by omega, by omega⟩
    have byteEq : UInt8.ofNat (code / 4096 % 0x10 + 0xe0) = byte := by
      rw [← UInt8.toNat_inj, UInt8.toNat_ofNat']
      omega
    rw [utf8EncodeChar_eq, toNat_ofNat_of_valid valid, if_neg (by omega), if_neg (by omega),
      if_pos (by omega), byteEq]
  · rcases completes.eq_more least greatest with ⟨upper, rest, rfl, rfl, _, _, completes⟩
    rcases completes.eq_more (by simp) (by simp) with ⟨upper, rest, rfl, rfl, _, _, completes⟩
    rcases completes.eq_last (by simp) (by simp) with ⟨rfl, rfl, _, _⟩
    have valid : code.isValidChar := .inr ⟨by omega, by omega⟩
    have byteEq : UInt8.ofNat (code / 262144 % 0x08 + 0xf0) = byte := by
      rw [← UInt8.toNat_inj, UInt8.toNat_ofNat']
      omega
    rw [utf8EncodeChar_eq, toNat_ofNat_of_valid valid, if_neg (by omega), if_neg (by omega),
      if_neg (by omega), byteEq, Nat.div_div_eq_div_mul code 64 64]

theorem encode_of_decodeFrom (bytes : List UInt8) {index : Nat} {symbols : List Char}
    (accepted : decodeFrom index .start bytes = .ok symbols) :
    symbols.flatMap String.utf8EncodeChar = bytes := by
  induction lengthEq : bytes.length using Nat.strongRecOn generalizing bytes index symbols with
  | ind length ih =>
      cases bytes with
      | nil =>
          simp only [decodeFrom, Except.ok.injEq] at accepted
          simp [← accepted]
      | cons byte rest =>
          subst lengthEq
          rw [decodeFrom] at accepted
          split at accepted
          case isTrue low =>
            cases decoded : decodeFrom (index + 1) .start rest with
            | error fault => simp [decoded, Functor.map, Except.map] at accepted
            | ok symbolsLeft =>
                simp only [decoded, Functor.map, Except.map, Except.ok.injEq] at accepted
                have small : byte.toNat < 0x80 := by simpa [UInt8.lt_iff_toNat_lt] using low
                have valid : byte.toNat.isValidChar := .inl (by omega)
                rw [← accepted, List.flatMap_cons, ih rest.length (by simp) rest decoded rfl,
                  utf8EncodeChar_eq, toNat_ofNat_of_valid valid, if_pos (by omega)]
                simp
          case isFalse high =>
            cases found : lead? byte with
            | none => simp [found] at accepted
            | some lead =>
                rw [found] at accepted
                rcases completes_of_decodeFrom accepted with
                  ⟨run, left, code, symbolsLeft, next, rfl, completes, rfl, decoded⟩
                have shorter : left.length < (byte :: (run ++ left)).length := by
                  simp only [List.length_cons, List.length_append]
                  omega
                rw [List.flatMap_cons, ih left.length shorter left decoded rfl,
                  utf8EncodeChar_of_completes found completes]
                simp

/-- Bytes that decode to a text are the encoding of that text. -/
theorem encode_of_decode {bytes : List UInt8} {text : String}
    (accepted : decode bytes = .ok text) : encode text = bytes := by
  simp only [decode] at accepted
  cases decoded : decodeFrom 0 .start bytes with
  | error fault => simp [decoded, Functor.map, Except.map] at accepted
  | ok symbols =>
      simp only [decoded, Functor.map, Except.map, Except.ok.injEq] at accepted
      rw [← accepted, encode, String.toList_ofList, encode_of_decodeFrom bytes decoded]

end ValueBus.Utf8
