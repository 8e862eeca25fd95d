import TagLedger.Text.Blank
import TagLedger.Text.Case
import TagLedger.Text.Numeral
import TagLedger.Text.Word

/-!
# Search patterns

The trees that search patterns are read into. What a leaf matches depends on whether case is
ignored and whether classes are restricted to ASCII, so leaves carry these switches.
-/

namespace TagLedger.Pattern

/-! ## Leaves -/

/-- Switches in force at a place of a pattern. -/
structure Flags where
  ignoreCase : Bool
  multiline : Bool
  dotAll : Bool
  ascii : Bool
  verbose : Bool
  deriving DecidableEq

def Flags.none : Flags := ⟨false, false, false, false, false⟩

inductive Class where
  | digit
  | space
  | word
  deriving DecidableEq

/-- One member of a set of characters. -/
inductive Member where
  | code (n : Nat)
  | span (low high : Nat)
  | ofClass (c : Class) (negated : Bool)
  deriving DecidableEq

inductive Anchor where
  | textStart
  | lineStart
  | textEnd
  /-- At the end, or before a line break that ends the text. -/
  | lastLineEnd
  | lineEnd
  | boundary
  | noBoundary
  deriving DecidableEq

/-- Whether a repetition takes as much, as little, or as much without giving back. -/
inductive Greed where
  | greedy
  | lazy
  | possessive
  deriving DecidableEq

inductive Node where
  | empty
  | fail
  /-- A character, written as its code. -/
  | char (n : Nat) (flags : Flags)
  | any (dotAll : Bool)
  | set (negated : Bool) (members : List Member) (flags : Flags)
  | anchor (a : Anchor) (ascii : Bool)
  | seq (a b : Node)
  | alt (a b : Node)
  | group (index : Nat) (body : Node)
  /-- The text of a group; the widths are those of the group's body. -/
  | back (index : Nat) (low : Nat) (high : Option Nat) (flags : Flags)
  | many (low : Nat) (high : Option Nat) (greed : Greed) (body : Node)
  | ahead (negated : Bool) (body : Node)
  | behind (negated : Bool) (width : Nat) (body : Node)
  /-- One of two branches, as a group has matched or not. -/
  | cond (index : Nat) (yes no : Node)
  /-- The first way to match the body, and no other. -/
  | atomic (body : Node)

/-! ## What leaves match -/

/-- The lower-case partner under the switches. -/
def lowerUnder (flags : Flags) (n : Nat) : Nat :=
  if flags.ascii then (if 65 ≤ n && n ≤ 90 then n + 32 else n) else Text.lowerCode n

/-- Characters that count as the same letter. -/
def sameLetter (flags : Flags) (a b : Nat) : Bool :=
  let a := lowerUnder flags a
  let b := lowerUnder flags b
  if flags.ascii then a == b else (Text.foldClass a).contains b

def isAsciiSpace (c : Char) : Bool := c.toNat == 32 || (9 ≤ c.toNat && c.toNat ≤ 13)

def Class.holds (c : Class) (ascii : Bool) (x : Char) : Bool :=
  match c with
  | .digit => if ascii then Text.isAsciiDigit x else Text.isDigit x
  | .space => if ascii then isAsciiSpace x else Text.isBlank x
  | .word => if ascii then x.isAlphanum || x == '_' else Text.isWord x

def charMatches (n : Nat) (flags : Flags) (x : Char) : Bool :=
  if flags.ignoreCase then sameLetter flags n x.toNat else n == x.toNat

/-- The characters that `x` may stand for under the switches. -/
def variants (flags : Flags) (x : Char) : List Nat :=
  if !flags.ignoreCase then [x.toNat]
  else if flags.ascii then
    let l := lowerUnder flags x.toNat
    if 97 ≤ l && l ≤ 122 then [l, l - 32] else [l]
  else Text.sameLetters x

def Member.holds (flags : Flags) (x : Char) : Member → Bool
  | .code n => charMatches n flags x
  | .span low high => (variants flags x).any fun n => low ≤ n && n ≤ high
  | .ofClass c negated =>
    let x := if flags.ignoreCase then Char.ofNat (lowerUnder flags x.toNat) else x
    c.holds flags.ascii x != negated

def setMatches (negated : Bool) (members : List Member) (flags : Flags) (x : Char) : Bool :=
  members.any (·.holds flags x) != negated

/-! ## Widths -/

/-- The sum of two widths, of which the second may be unbounded. -/
def addWidth (a b : Nat × Option Nat) : Nat × Option Nat :=
  (a.1 + b.1, match a.2, b.2 with
    | some x, some y => some (x + y)
    | _, _ => none)

/-- The widths of either of two branches. -/
def joinWidth (a b : Nat × Option Nat) : Nat × Option Nat :=
  (min a.1 b.1, match a.2, b.2 with
    | some x, some y => some (max x y)
    | _, _ => none)

/-- The least and the greatest number of characters that a pattern takes. -/
def Node.width : Node → Nat × Option Nat
  | .empty | .fail | .anchor _ _ | .ahead _ _ | .behind _ _ _ => (0, some 0)
  | .char _ _ | .any _ | .set _ _ _ => (1, some 1)
  | .seq a b => addWidth a.width b.width
  | .alt a b => joinWidth a.width b.width
  | .group _ body | .atomic body => body.width
  | .back _ low high _ => (low, high)
  | .many low high _ body =>
    let (l, h) := body.width
    (l * low, match high, h with
      | some m, some h => some (h * m)
      | none, some 0 => some 0
      | _, _ => none)
  | .cond _ yes no => joinWidth yes.width no.width

end TagLedger.Pattern
