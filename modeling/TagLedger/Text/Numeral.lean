import TagLedger.Text.Blank

/-!
# Decimal numerals

A decimal digit is any character of Unicode's class of decimal digits; a numeral may mix scripts.
Numerals of more than `digitLimit` digits are neither read nor written.

    read? (write n) = some n                    within the limit
-/

namespace TagLedger.Text

/-! ## Digits -/

/-- The zeros of the decimal digit sets; the other nine digits of a set follow its zero. -/
def digitZeros : List Nat :=
  [0x30, 0x660, 0x6F0, 0x7C0, 0x966, 0x9E6, 0xA66, 0xAE6, 0xB66,
   0xBE6, 0xC66, 0xCE6, 0xD66, 0xDE6, 0xE50, 0xED0, 0xF20, 0x1040,
   0x1090, 0x17E0, 0x1810, 0x1946, 0x19D0, 0x1A80, 0x1A90, 0x1B50, 0x1BB0,
   0x1C40, 0x1C50, 0xA620, 0xA8D0, 0xA900, 0xA9D0, 0xA9F0, 0xAA50, 0xABF0,
   0xFF10, 0x104A0, 0x10D30, 0x11066, 0x110F0, 0x11136, 0x111D0, 0x112F0, 0x11450,
   0x114D0, 0x11650, 0x116C0, 0x11730, 0x118E0, 0x11950, 0x11C50, 0x11D50, 0x11DA0,
   0x16A60, 0x16AC0, 0x16B50, 0x1D7CE, 0x1D7D8, 0x1D7E2, 0x1D7EC, 0x1D7F6, 0x1E140,
   0x1E2F0, 0x1E950, 0x1FBF0]

/-- The value of a decimal digit of any script. -/
def digitValue? (c : Char) : Option Nat :=
  (digitZeros.find? fun z => z ≤ c.toNat && c.toNat ≤ z + 9).map fun z => c.toNat - z

def isDigit (c : Char) : Bool := (digitValue? c).isSome

/-- The digits `0` to `9` only. -/
def isAsciiDigit (c : Char) : Bool := 48 ≤ c.toNat && c.toNat ≤ 57

/-- The value of a row of digits; a character that is no digit counts as zero. -/
def digitsValue (ds : List Char) : Nat :=
  ds.foldl (fun n c => 10 * n + (digitValue? c).getD 0) 0

/-! ## Numerals -/

/-- Numerals longer than this are refused. -/
def digitLimit : Nat := 4300

/-- A numeral has more digits than `digitLimit`. -/
structure NumeralTooLong where
  deriving DecidableEq

def readDigits (ds : List Char) : Except NumeralTooLong Nat :=
  if ds.length ≤ digitLimit then .ok (digitsValue ds) else .error {}

/-- The value of digits after an optional minus sign. -/
def readSigned : List Char → Except NumeralTooLong Int
  | '-' :: ds => (readDigits ds).map fun n => -(n : Int)
  | ds => (readDigits ds).map Int.ofNat

/-- The shortest row of digits `0` to `9` with this value. -/
def natDigits (n : Nat) : List Char := Nat.toDigits 10 n

def intDigits : Int → List Char
  | .ofNat n => natDigits n
  | .negSucc n => '-' :: natDigits (n + 1)

def natText (n : Nat) : String := String.ofList (natDigits n)

def intText (n : Int) : String := String.ofList (intDigits n)

/-- The numeral of `n`, refused when its digits exceed the limit. -/
def writeInt (n : Int) : Except NumeralTooLong String :=
  if (natDigits n.natAbs).length ≤ digitLimit then .ok (intText n) else .error {}

/-- The number that a text writes with blanks around it, an optional sign, and single low lines
between digits; `none` if the text writes none. -/
def readLoose? (s : String) : Option (Except NumeralTooLong Int) :=
  let body := trim s.toList
  let (negative, ds) := match body with
    | '-' :: r => (true, r)
    | '+' :: r => (false, r)
    | r => (false, r)
  if grouped ds then
    some ((readDigits (ds.filter (· != '_'))).map fun n => if negative then -(n : Int) else n)
  else none
where
  /-- Digits, with single low lines between them only. -/
  grouped : List Char → Bool
    | [] => false
    | [c] => isDigit c
    | c :: '_' :: r => isDigit c && grouped r
    | c :: r => isDigit c && grouped r

/-- The value of a hexadecimal digit of ASCII. -/
def hexDigit? (c : Char) : Option Nat :=
  let n := c.toNat
  if 48 ≤ n && n ≤ 57 then some (n - 48)
  else if 97 ≤ n && n ≤ 102 then some (n - 87)
  else if 65 ≤ n && n ≤ 70 then some (n - 55)
  else none

end TagLedger.Text
