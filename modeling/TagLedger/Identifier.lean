/-!
# Identifiers

An identifier is a word for its kind, the time in base 36, and drawn characters. The draws come
from a linear congruential generator whose state is handed on.

    (drawChars n s).1.length = n                    (length_drawChars)
-/

namespace TagLedger.Identifier

/-! ## Base 36 -/

def digitChar (n : Nat) : Char :=
  if n < 10 then Char.ofNat (48 + n) else Char.ofNat (87 + n)

/-- The digits of `n` in base 36, put in front of `tail`; none for zero. -/
def digitsBefore (n : Nat) (tail : List Char) : List Char :=
  if n = 0 then tail else digitsBefore (n / 36) (digitChar (n % 36) :: tail)
termination_by n
decreasing_by omega

def base36 (n : Nat) : String :=
  if n = 0 then "0" else String.ofList (digitsBefore n [])

/-! ## Draws -/

/-- The state of the generator. -/
structure Random where
  state : Nat
  deriving DecidableEq

def Random.start : Random := ⟨1⟩

def Random.next (r : Random) : Random := ⟨(r.state * 1103515245 + 12345) % 2147483648⟩

/-- The character that a state stands for. -/
def Random.char (r : Random) : Char := digitChar (r.state / 65536 % 36)

def drawChars : Nat → Random → List Char × Random
  | 0, r => ([], r)
  | n + 1, r =>
    let r := r.next
    let (cs, last) := drawChars n r
    (r.char :: cs, last)

/-- A new identifier of a kind, with `n` drawn characters, and the generator after it. -/
def generate (kind : String) (n : Nat) (now : Int) (r : Random) : String × Random :=
  let (cs, r) := drawChars n r
  (kind ++ "_" ++ base36 now.toNat ++ String.ofList cs, r)

theorem length_drawChars (n : Nat) (r : Random) : (drawChars n r).1.length = n := by
  induction n generalizing r with
  | zero => rfl
  | succ n ih => simp [drawChars, ih]

end TagLedger.Identifier
