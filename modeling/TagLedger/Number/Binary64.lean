/-!
# Binary floating point of 64 bits

A finite number is a sign, a mantissa and an exponent in normal form, so two numbers are equal
exactly if they are written alike. Every operation forms the exact rational result and rounds it
once, to the nearest number, and to the one with the even mantissa when two are equally near.

    ofRatio s (x.mantissa * 2 ^ e) 1 rounds to x            for a finite x
-/

namespace TagLedger

/-! ## Numbers -/

/-- `2 ^ n`. -/
def twoPow (n : Nat) : Nat := Nat.pow 2 n

/-- `10 ^ n`. -/
def tenPow (n : Nat) : Nat := Nat.pow 10 n

/-- Normal form of `m * 2 ^ e`: 53 bits, or fewer at the least exponent. -/
def NormalForm (m : Nat) (e : Int) : Prop :=
  m < twoPow 53 ∧ -1074 ≤ e ∧ e ≤ 971 ∧ (twoPow 52 ≤ m ∨ e = -1074)

instance (m : Nat) (e : Int) : Decidable (NormalForm m e) := by
  unfold NormalForm; infer_instance

/-- A finite number, `± mantissa * 2 ^ exponent`. -/
structure Finite64 where
  negative : Bool
  mantissa : Nat
  exponent : Int
  normal : NormalForm mantissa exponent
  deriving DecidableEq

/-- Finite numbers, the two infinities, and the result of an operation that has none. -/
inductive Binary64 where
  | finite (x : Finite64)
  | infinite (negative : Bool)
  | nan
  deriving DecidableEq

/-! ## Exact values -/

namespace Finite64

/-- The magnitude of a finite number as a fraction. -/
def ratio (x : Finite64) : Nat × Nat :=
  if 0 ≤ x.exponent then (x.mantissa * twoPow x.exponent.toNat, 1)
  else (x.mantissa, twoPow (-x.exponent).toNat)

/-- The signed value of a finite number as a fraction. -/
def value (x : Finite64) : Int × Nat :=
  let (n, d) := x.ratio
  (if x.negative then -(n : Int) else n, d)

end Finite64

namespace Binary64

def zero (negative : Bool) : Binary64 := .finite ⟨negative, 0, -1074, by decide⟩

instance : Inhabited Binary64 := ⟨zero false⟩

/-- `n / d` to the nearest integer, a tie to the even one. -/
def divNearest (n d : Nat) : Nat :=
  let q := n / d
  let r := n % d
  if 2 * r < d ∨ (2 * r = d ∧ q % 2 = 0) then q else q + 1

/-- `(num / den) / 2 ^ e` as a fraction of naturals. -/
def scaleDown (num den : Nat) (e : Int) : Nat × Nat :=
  if 0 ≤ e then (num, den * twoPow e.toNat) else (num * twoPow (-e).toNat, den)

/-- The number with this mantissa and exponent, infinite when the exponent exceeds the format. -/
def ofParts (negative : Bool) (m : Nat) (e : Int) : Binary64 :=
  if h : NormalForm m e then .finite ⟨negative, m, e, h⟩ else .infinite negative

/-- The exponent at which `num / den` has a mantissa of 53 bits, or the least exponent. -/
def exponentFor (num den : Nat) : Int :=
  let e : Int := (Nat.log2 num : Int) - Nat.log2 den - 52
  let (n, d) := scaleDown num den e
  max (if n / d < twoPow 52 then e - 1 else e) (-1074)

/-- The number nearest to `num / den`, for a positive `den`. -/
def ofRatio (negative : Bool) (num den : Nat) : Binary64 :=
  if num = 0 then zero negative
  else
    let e := exponentFor num den
    let (n, d) := scaleDown num den e
    let m := divNearest n d
    if m = twoPow 53 then ofParts negative (twoPow 52) (e + 1) else ofParts negative m e

def ofNat (n : Nat) : Binary64 := ofRatio false n 1

def ofInt (n : Int) : Binary64 := ofRatio (n < 0) n.natAbs 1

/-- `m * 10 ^ e`, rounded. Exponents far outside the format are settled without the power. -/
def ofDecimal (negative : Bool) (m : Nat) (e : Int) : Binary64 :=
  if m = 0 then zero negative
  else
    let size : Int := (Nat.toDigits 10 m).length
    if 400 < e + size then .infinite negative
    else if e + size < -400 then zero negative
    else if 0 ≤ e then ofRatio negative (m * tenPow e.toNat) 1
    else ofRatio negative m (tenPow (-e).toNat)

/-! ## Signs -/

def isNegative : Binary64 → Bool
  | .finite x => x.negative
  | .infinite s => s
  | .nan => false

def isZero : Binary64 → Bool
  | .finite x => x.mantissa == 0
  | _ => false

/-! ## Order -/

/-- Strictly less; `nan` is not ordered. -/
def lt : Binary64 → Binary64 → Bool
  | .nan, _ | _, .nan => false
  | .finite x, .finite y =>
    let (a, b) := x.value
    let (c, d) := y.value
    a * (d : Int) < c * (b : Int)
  | .infinite s, .infinite t => s && !t
  | .infinite s, .finite _ => s
  | .finite _, .infinite t => !t

/-- Equal as numbers: the zeros are equal, `nan` equals nothing. -/
def same : Binary64 → Binary64 → Bool
  | .nan, _ | _, .nan => false
  | x, y => !x.lt y && !y.lt x

def le (x y : Binary64) : Bool := x.lt y || x.same y

/-! ## Arithmetic -/

def mul : Binary64 → Binary64 → Binary64
  | .nan, _ | _, .nan => .nan
  | .finite x, .finite y =>
    let (a, b) := x.ratio
    let (c, d) := y.ratio
    ofRatio (x.negative != y.negative) (a * c) (b * d)
  | x, y => if x.isZero || y.isZero then .nan else .infinite (x.isNegative != y.isNegative)

/-- Division; by zero it is infinite, or `nan` for zero by zero. -/
def div : Binary64 → Binary64 → Binary64
  | .nan, _ | _, .nan => .nan
  | .finite x, .finite y =>
    let s := x.negative != y.negative
    let (a, b) := x.ratio
    let (c, d) := y.ratio
    if c = 0 then (if a = 0 then .nan else .infinite s) else ofRatio s (a * d) (b * c)
  | .infinite _, .infinite _ => .nan
  | .infinite s, y => .infinite (s != y.isNegative)
  | x, .infinite t => zero (x.isNegative != t)

def add : Binary64 → Binary64 → Binary64
  | .nan, _ | _, .nan => .nan
  | .finite x, .finite y =>
    let (a, b) := x.value
    let (c, d) := y.value
    let n := a * (d : Int) + c * (b : Int)
    if n = 0 then zero (x.negative && y.negative) else ofRatio (n < 0) n.natAbs (b * d)
  | .infinite s, .infinite t => if s == t then .infinite s else .nan
  | .infinite s, .finite _ => .infinite s
  | .finite _, .infinite t => .infinite t

/-- The integer part, toward zero; `none` without a finite value. -/
def truncate? : Binary64 → Option Int
  | .finite x =>
    let (n, d) := x.ratio
    let q : Int := ((n / d : Nat) : Int)
    some (if x.negative then -q else q)
  | _ => none

/-- The integer equal to this number, if there is one. -/
def toInt? : Binary64 → Option Int
  | .finite x =>
    let (n, d) := x.value
    if n % (d : Int) = 0 then some (n / (d : Int)) else none
  | _ => none

end Binary64

end TagLedger
