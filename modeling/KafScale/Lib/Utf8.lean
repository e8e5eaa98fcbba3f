import Mathlib.Data.List.Basic

/-!
UTF-8 as Go's `unicode/utf8` reads and writes it. Runes are code points as
`Nat`. `decodeRune` accepts only shortest encodings of scalar values; every
other byte it starts at decodes as `RuneError` of width one, which is how a
`for range` loop over a string steps over invalid bytes. `decodeLastRune`
finds the rune that ends a byte string by looking back at most four bytes.
`isSpace` is `unicode.IsSpace`: the ASCII and Latin-1 spaces and the
`White_Space` code points above Latin-1.
-/
namespace Utf8

def runeError : Nat := 0xFFFD

/-- The width a leading byte announces and the range its second byte must lie
    in; `none` for a byte no encoding of two or more bytes starts with. -/
def leading (b : Nat) : Option (Nat × Nat × Nat) :=
  if b < 0xC2 then none
  else if b < 0xE0 then some (2, 0x80, 0xBF)
  else if b = 0xE0 then some (3, 0xA0, 0xBF)
  else if b = 0xED then some (3, 0x80, 0x9F)
  else if b < 0xF0 then some (3, 0x80, 0xBF)
  else if b = 0xF0 then some (4, 0x90, 0xBF)
  else if b < 0xF4 then some (4, 0x80, 0xBF)
  else if b = 0xF4 then some (4, 0x80, 0x8F)
  else none

def continuation (b : UInt8) : Bool := 0x80 ≤ b.toNat ∧ b.toNat ≤ 0xBF

/-- `utf8.RuneStart`: the byte is not a continuation byte. -/
def runeStart (b : UInt8) : Bool := b.toNat / 0x40 ≠ 2

/-- `utf8.DecodeRune`: the first rune and its width; `(RuneError, 0)` on no bytes. -/
def decodeRune : List UInt8 → Nat × Nat
  | [] => (runeError, 0)
  | b0 :: rest =>
    if b0.toNat < 0x80 then (b0.toNat, 1)
    else
      match leading b0.toNat, rest with
      | some (width, lo, hi), b1 :: rest =>
        if b1.toNat < lo ∨ hi < b1.toNat then (runeError, 1)
        else if width = 2 then ((b0.toNat % 0x20) * 0x40 + b1.toNat % 0x40, 2)
        else
          match rest with
          | b2 :: rest =>
            if !continuation b2 then (runeError, 1)
            else if width = 3 then
              ((b0.toNat % 0x10) * 0x1000 + (b1.toNat % 0x40) * 0x40 + b2.toNat % 0x40, 3)
            else
              match rest with
              | b3 :: _ =>
                if !continuation b3 then (runeError, 1)
                else ((b0.toNat % 0x08) * 0x40000 + (b1.toNat % 0x40) * 0x1000 +
                  (b2.toNat % 0x40) * 0x40 + b3.toNat % 0x40, 4)
              | [] => (runeError, 1)
          | [] => (runeError, 1)
      | _, _ => (runeError, 1)

/-- `utf8.DecodeLastRune`. A non-ASCII last byte belongs to the rune starting
    at the nearest rune-start byte among the three before it; when the bytes
    from there are not exactly one encoding, the last byte alone is an error. -/
def decodeLastRune (s : List UInt8) : Nat × Nat :=
  match s.getLast? with
  | none => (runeError, 0)
  | some last =>
    if last.toNat < 0x80 then (last.toNat, 1)
    else
      let starts := fun j => decide (j ≤ s.length) && (s[s.length - j]?.map runeStart).getD false
      match [2, 3, 4].find? starts with
      | none => (runeError, 1)
      | some j =>
        let decoded := decodeRune (s.drop (s.length - j))
        if decoded.2 = j then decoded else (runeError, 1)

/-- `utf8.EncodeRune`; a surrogate or a value past `MaxRune` is written as `RuneError`. -/
def encodeRune (r : Nat) : List UInt8 :=
  if r < 0x80 then [UInt8.ofNat r]
  else if r < 0x800 then [UInt8.ofNat (0xC0 + r / 0x40), UInt8.ofNat (0x80 + r % 0x40)]
  else
    let r := if 0x10FFFF < r ∨ (0xD800 ≤ r ∧ r ≤ 0xDFFF) then runeError else r
    if r < 0x10000 then
      [UInt8.ofNat (0xE0 + r / 0x1000), UInt8.ofNat (0x80 + r / 0x40 % 0x40), UInt8.ofNat (0x80 + r % 0x40)]
    else
      [UInt8.ofNat (0xF0 + r / 0x40000), UInt8.ofNat (0x80 + r / 0x1000 % 0x40),
        UInt8.ofNat (0x80 + r / 0x40 % 0x40), UInt8.ofNat (0x80 + r % 0x40)]

theorem decodeRune_width (b : UInt8) (rest : List UInt8) :
    1 ≤ (decodeRune (b :: rest)).2 ∧ (decodeRune (b :: rest)).2 ≤ rest.length + 1 := by
  simp only [decodeRune]
  repeat' split
  all_goals simp_all

theorem decodeRune_ascii {b : UInt8} (ascii : b.toNat < 0x80) (rest : List UInt8) :
    decodeRune (b :: rest) = (b.toNat, 1) := by
  simp [decodeRune, ascii]

/-- The runes of a byte string, as `for range` yields them; `fuel` bounds the
    steps, and the byte count is enough since each step takes a byte or more. -/
def runesFrom : Nat → List UInt8 → List Nat
  | 0, _ => []
  | _ + 1, [] => []
  | fuel + 1, s => (decodeRune s).1 :: runesFrom fuel (s.drop (decodeRune s).2)

def runes (s : List UInt8) : List Nat := runesFrom s.length s

/-- `unicode.IsSpace`. -/
def isSpace (r : Nat) : Bool :=
  if r ≤ 0xFF then r = 0x09 ∨ r = 0x0A ∨ r = 0x0B ∨ r = 0x0C ∨ r = 0x0D ∨ r = 0x20 ∨ r = 0x85 ∨ r = 0xA0
  else r = 0x1680 ∨ (0x2000 ≤ r ∧ r ≤ 0x200A) ∨ r = 0x2028 ∨ r = 0x2029 ∨ r = 0x202F ∨ r = 0x205F ∨
    r = 0x3000

end Utf8
