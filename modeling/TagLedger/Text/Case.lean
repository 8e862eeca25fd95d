import TagLedger.Text.Ranges
import TagLedger.Text.CaseTable

/-!
# Letter case

`lower` writes a text in lower case: each letter by its pair, a capital dotted I as two characters,
and a capital sigma as the final form when a letter stands before it and none after it in the same
word. `sameLetters` lists what a character may stand for when case is ignored.
-/

namespace TagLedger.Text

/-! ## Simple pairs -/

/-- The lower-case partner of a code point, or the code point itself. -/
def lowerCode (n : Nat) : Nat :=
  if n < 128 then (if 65 ≤ n && n ≤ 90 then n + 32 else n)
  else
    match lowerRuns.find? fun (a, b, s, _) => a ≤ n && n ≤ b && (n - a) % s == 0 with
    | some (a, _, _, t) => t + (n - a)
    | none => n

def lowerChar (c : Char) : Char := Char.ofNat (lowerCode c.toNat)

def isUpper (c : Char) : Bool :=
  let n := c.toNat
  if n < 128 then 65 ≤ n && n ≤ 90
  else upperRuns.any fun (a, b, s) => a ≤ n && n ≤ b && (n - a) % s == 0

/-! ## Text in lower case -/

def isCaseIgnorable (c : Char) : Bool := inRanges caseIgnorableRanges c.toNat

def isCased (c : Char) : Bool := inRanges casedRanges c.toNat

/-- The nearest character that is not case-ignorable is a cased letter. -/
def cased? (s : List Char) : Bool :=
  match s.dropWhile isCaseIgnorable with
  | c :: _ => isCased c
  | [] => false

/-- Lower case of `s`, where `before` holds what precedes it, nearest first. -/
def lowerAfter : List Char → List Char → List Char
  | _, [] => []
  | before, c :: s =>
    let here :=
      if c.toNat == 0x3A3 then
        [if cased? before && !cased? s then 'ς' else 'σ']
      else if c.toNat == 0x130 then ['i', Char.ofNat 0x307]
      else [lowerChar c]
    here ++ lowerAfter (c :: before) s

/-- The text in lower case. -/
def lower (s : String) : String := String.ofList (lowerAfter [] s.toList)

/-! ## Ignoring case -/

/-- The class of lower-case letters that counts as one letter with code point `n`. -/
def foldClass (n : Nat) : List Nat := (foldClasses.find? (·.contains n)).getD [n]

/-- The code points whose lower case is `n`. -/
def raised (n : Nat) : List Nat :=
  lowerRuns.filterMap fun (a, b, s, t) =>
    if t ≤ n && n - t ≤ b - a && (n - t) % s == 0 then some (a + (n - t)) else none

/-- Two characters are the same letter when case is ignored. -/
def sameLetter (a b : Char) : Bool :=
  (foldClass (lowerCode a.toNat)).contains (lowerCode b.toNat)

/-- Every code point that matches the character when case is ignored. -/
def sameLetters (c : Char) : List Nat :=
  let letters := foldClass (lowerCode c.toNat)
  letters ++ letters.flatMap raised

end TagLedger.Text
