import TagLedger.Number.Shortest

/-!
# Numbers with a chosen number of digits

Fixed places, scientific notation and the general form that picks one of them. A tie goes to the
even digit.
-/

namespace TagLedger.Number

/-- `n / d` times `10 ^ k`, to the nearest integer. -/
def scaledNearest (n d : Nat) (k : Int) : Nat :=
  if 0 ≤ k then Binary64.divNearest (n * tenPow k.toNat) d
  else Binary64.divNearest n (d * tenPow (-k).toNat)

/-- Digits of `m` with a point before the last `places`. -/
def pointed (m places : Nat) (keepPoint : Bool) : List Char :=
  let ds := Nat.toDigits 10 m
  let ds := List.replicate (places + 1 - ds.length) '0' ++ ds
  let whole := ds.take (ds.length - places)
  if places = 0 then (if keepPoint then whole ++ ['.'] else whole)
  else whole ++ '.' :: ds.drop (ds.length - places)

/-- A fraction with `places` digits after the point. -/
def fixed (n d places : Nat) (keepPoint : Bool) : List Char :=
  pointed (scaledNearest n d places) places keepPoint

/-- The digits of a fraction rounded to `count` of them, and the place value of the first. -/
def significant (n d count : Nat) : List Char × Int :=
  if n = 0 then (List.replicate count '0', 0)
  else
    let e := leadingExponent n d
    let m := scaledNearest n d (count - 1 - e)
    let ds := Nat.toDigits 10 m
    if ds.length = count then (ds, e) else (ds.take count, e + 1)

/-- One digit before the point, `places` after it, and an exponent with the given mark. -/
def exponential (n d places : Nat) (mark : Char) (keepPoint : Bool) : List Char :=
  let (ds, e) := significant n d (places + 1)
  let mantissa := match ds with
    | c :: [] => if keepPoint then [c, '.'] else [c]
    | c :: r => c :: '.' :: r
    | [] => []
  mantissa ++ mark :: (exponentText e).drop 1

/-- Drops zeros at the end of the digits after a point, and the point if nothing is left. -/
def dropZeros (s : List Char) : List Char :=
  if s.contains '.' then
    let r := s.reverse.dropWhile (· == '0')
    (match r with
      | '.' :: r => r
      | r => r).reverse
  else s

/-- `count` significant digits, with an exponent for numbers that are very small or do not fit. -/
def general (n d count : Nat) (mark : Char) (keepZeros : Bool) : List Char :=
  let count := max count 1
  let (ds, e) := significant n d count
  if -4 ≤ e ∧ e < count then
    let places := (count - 1 - e).toNat
    let body := fixed n d places keepZeros
    if keepZeros then body else dropZeros body
  else
    let mantissa := match ds with
      | c :: [] => if keepZeros then [c, '.'] else [c]
      | c :: r => c :: '.' :: r
      | [] => []
    (if keepZeros then mantissa else dropZeros mantissa) ++ mark :: (exponentText e).drop 1

end TagLedger.Number
