import TagLedger.Number.Binary64

/-!
# The shortest decimal of a binary number

A positive finite number is written with the fewest decimal digits that read back as the number;
of several such rows of digits the nearest one is taken. On each grid of `n` digits only the two
neighbours of the number are tried.
-/

namespace TagLedger.Number

/-- `digits * 10 ^ exponent`. -/
structure Decimal where
  digits : Nat
  exponent : Int
  deriving DecidableEq

/-- `10 ^ k ≤ n / d` for a possibly negative `k`. -/
def powTenLe (k : Int) (n d : Nat) : Bool :=
  if 0 ≤ k then d * tenPow k.toNat ≤ n else d ≤ n * tenPow (-k).toNat

/-- The exponent of the leading digit of `n / d`, searched upward from `k`. -/
def leadingFrom (n d : Nat) : Nat → Int → Int
  | 0, k => k
  | fuel + 1, k => if powTenLe (k + 1) n d then leadingFrom n d fuel (k + 1) else k

/-- The greatest `k` with `10 ^ k ≤ n / d`. -/
def leadingExponent (n d : Nat) : Int :=
  let start : Int := ((Nat.log2 n : Int) - Nat.log2 d - 1) * 30103 / 100000 - 1
  leadingFrom n d 5 start

/-- The largest grid point of spacing `10 ^ e` below `n / d`, and whether the next one is nearer; of
two equally near ones the even one counts as nearer. -/
def gridBelow (n d : Nat) (e : Int) : Nat × Bool :=
  let (a, b) := if 0 ≤ e then (n, d * tenPow e.toNat) else (n * tenPow (-e).toNat, d)
  (a / b, b < 2 * (a % b) || (b == 2 * (a % b) && a / b % 2 == 1))

/-- The neighbour on the grid of spacing `10 ^ e` that reads back as `x`, the nearer one first. -/
def onGrid? (x : Finite64) (e : Int) : Option Decimal :=
  let (n, d) := x.ratio
  let (lo, up) := gridBelow n d e
  let reads (m : Nat) : Bool := decide (Binary64.ofDecimal x.negative m e = .finite x)
  let (first, second) := if up then (lo + 1, lo) else (lo, lo + 1)
  if reads first then some ⟨first, e⟩ else if reads second then some ⟨second, e⟩ else none

/-- All digits of `x`: halves are fives of the next place. -/
def exact (x : Finite64) : Decimal :=
  if 0 ≤ x.exponent then ⟨x.mantissa * twoPow x.exponent.toNat, 0⟩
  else ⟨x.mantissa * Nat.pow 5 (-x.exponent).toNat, x.exponent⟩

/-- The first of the coming grids, each ten times finer, that holds a neighbour reading back. -/
def firstGrid (x : Finite64) : Nat → Int → Decimal
  | 0, _ => exact x
  | fuel + 1, e => (onGrid? x e).getD (firstGrid x fuel (e - 1))

/-- Drops zeros at the end of the digits. -/
def stripZeros : Nat → Decimal → Decimal
  | 0, x => x
  | fuel + 1, x =>
    if x.digits % 10 = 0 && x.digits ≠ 0 then stripZeros fuel ⟨x.digits / 10, x.exponent + 1⟩ else x

/-- The shortest decimal that reads back as `x`. -/
def shortest (x : Finite64) : Decimal :=
  if x.mantissa = 0 then ⟨0, 0⟩
  else
    let (n, d) := x.ratio
    stripZeros 20 (firstGrid x 17 (leadingExponent n d))

/-! ## Layout -/

/-- How a row of digits becomes text. -/
structure Layout where
  /-- The least and the greatest place of the leading digit that is written without an exponent;
  the place of units is one. -/
  least : Int
  greatest : Int
  /-- The texts of an infinity and of `nan`. -/
  infinity : String
  nan : String

/-- Ordinary texts: no exponent from 0.0001 up to below 10 ^ 16. -/
def Layout.plain : Layout := ⟨-3, 16, "inf", "nan"⟩

/-- Numbers in documents. -/
def Layout.document : Layout := ⟨-3, 16, "Infinity", "NaN"⟩

/-- Digits with a point, `place` being the place of the leading digit. -/
def positional (ds : List Char) (place : Int) : List Char :=
  if place ≤ 0 then "0.".toList ++ List.replicate (-place).toNat '0' ++ ds
  else
    let k := place.toNat
    let whole := ds.take k ++ List.replicate (k - ds.length) '0'
    let rest := ds.drop k
    whole ++ '.' :: (if rest.isEmpty then ['0'] else rest)

/-- The exponent mark, a sign and at least two digits. -/
def exponentText (k : Int) : List Char :=
  let ds := Nat.toDigits 10 k.natAbs
  'e' :: (if k < 0 then '-' else '+') :: (if ds.length < 2 then '0' :: ds else ds)

/-- One digit before the point, and an exponent. -/
def scientific (ds : List Char) (place : Int) : List Char :=
  (match ds with
    | [] => []
    | [c] => [c]
    | c :: r => c :: '.' :: r) ++ exponentText (place - 1)

/-- The text of a number in a layout. -/
def text (layout : Layout) : Binary64 → String
  | .nan => layout.nan
  | .infinite s => (if s then "-" else "") ++ layout.infinity
  | .finite x =>
    let dec := shortest x
    let ds := Nat.toDigits 10 dec.digits
    let place : Int := if x.mantissa = 0 then 1 else ds.length + dec.exponent
    let body := if layout.least ≤ place ∧ place ≤ layout.greatest then positional ds place
      else scientific ds place
    String.ofList (if x.negative then '-' :: body else body)

end TagLedger.Number
