import TagLedger.Text.Numeral

/-!
# Percent signs

A percent sign and two hexadecimal digits stand for a byte; bytes in a row are read as UTF-8, and
what is no UTF-8 becomes the replacement character.

    decode s = s           for an `s` without percent signs
-/

namespace TagLedger.Text.Percent

/-! ## Bytes -/

/-- What stands for bytes that are no text. -/
def replacement : Char := Char.ofNat 0xFFFD

/-- How many bytes follow a first byte, and the range of the next one. -/
def following (b : Nat) : Option (Nat × Nat × Nat) :=
  if b < 0x80 then some (0, 0, 0)
  else if b < 0xC2 then none
  else if b < 0xE0 then some (1, 0x80, 0xBF)
  else if b = 0xE0 then some (2, 0xA0, 0xBF)
  else if b = 0xED then some (2, 0x80, 0x9F)
  else if b < 0xF0 then some (2, 0x80, 0xBF)
  else if b = 0xF0 then some (3, 0x90, 0xBF)
  else if b < 0xF4 then some (3, 0x80, 0xBF)
  else if b = 0xF4 then some (3, 0x80, 0x8F)
  else none

/-- The bits of a first byte that count, by the number of bytes that follow. -/
def firstBits (b more : Nat) : Nat :=
  match more with
  | 0 => b
  | 1 => b % 0x20
  | 2 => b % 0x10
  | _ => b % 0x08

/-- Reads bytes after `more` were announced, the next one between `low` and `high`. -/
def readFrom (more low high value : Nat) : List Nat → List Char
  | [] => if more = 0 then [Char.ofNat value] else [replacement]
  | b :: r =>
    if 0 < more && low ≤ b && b ≤ high then
      readFrom (more - 1) 0x80 0xBF (value * 64 + b % 64) r
    else
      (if more = 0 then Char.ofNat value else replacement) ::
        match following b with
        | some (n, l, h) => readFrom n l h (firstBits b n) r
        | none => readFrom 0 0 0 0xFFFD r

/-- Bytes as a text. -/
def ofBytes : List Nat → List Char
  | [] => []
  | b :: r =>
    match following b with
    | some (n, l, h) => readFrom n l h (firstBits b n) r
    | none => readFrom 0 0 0 0xFFFD r

/-! ## Escapes -/

def byte? (a b : Char) : Option Nat :=
  (hexDigit? a).bind fun x => (hexDigit? b).map fun y => 16 * x + y

/-- A text after bytes that were read, the latest first. -/
def decodeFrom (bytes : List Nat) : List Char → List Char
  | '%' :: a :: b :: r =>
    match byte? a b with
    | some n => decodeFrom (n :: bytes) r
    | none => ofBytes bytes.reverse ++ '%' :: decodeFrom [] (a :: b :: r)
  | c :: r => ofBytes bytes.reverse ++ c :: decodeFrom [] r
  | [] => ofBytes bytes.reverse

def decode (s : String) : String := String.ofList (decodeFrom [] s.toList)

end TagLedger.Text.Percent
