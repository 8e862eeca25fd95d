import TagLedger.Text.Numeral
import TagLedger.Text.Scan
import TagLedger.Transcript.Selection

/-!
# Ranges of a reference

A reference may pick items by ranges, written `@1-5` or `@1-3,@10-end`. Bounds count from one, from
the end if they are negative, and `end` is the last item. Tokens that write no range are passed
over.

    selectItems items [⟨a, b⟩]      the items at the places from a to b
-/

namespace TagLedger.Template

/-! ## Ranges -/

inductive Bound where
  | at (n : Int)
  | last
  deriving DecidableEq

structure Range where
  first : Bound
  final : Bound
  deriving DecidableEq

/-- The place that a bound means among `count` items; the last item has -1 too. -/
def Bound.resolve (count : Int) : Bound → Int
  | .last => count
  | .at n => if n < 0 then count + n + 1 else n

/-! ## Reading -/

/-- A text cut at every `c`. -/
def splitAt (c : Char) : List Char → List (List Char)
  | [] => [[]]
  | d :: r =>
    if d = c then [] :: splitAt c r
    else
      match splitAt c r with
      | part :: rest => (d :: part) :: rest
      | [] => [[d]]

/-- A token without blanks around it and the marks in front. -/
def bareToken (s : List Char) : List Char :=
  Text.trim ((Text.trim s).dropWhile (· == '@'))

/-- A bound at the start of a token, as it is written, and what follows it. -/
def leadingBound? (s : List Char) : Option (List Char × List Char) :=
  match Text.afterStart? ['e', 'n', 'd'] s with
  | some r => some (['e', 'n', 'd'], r)
  | none =>
    let (mark, body) := match s with
      | '-' :: r => (['-'], r)
      | r => ([], r)
    let ds := body.takeWhile Text.isDigit
    if ds.isEmpty then none else some (mark ++ ds, body.drop ds.length)

/-- The one or two bounds that a token writes. -/
def tokenBounds? (token : List Char) : Option (List Char × Option (List Char)) :=
  match leadingBound? token with
  | some (a, []) => some (a, none)
  | some (a, '-' :: r) =>
    match leadingBound? r with
    | some (b, []) => some (a, some b)
    | _ => none
  | _ => none

def Bound.read (s : List Char) : Except Text.NumeralTooLong Bound :=
  if s = ['e', 'n', 'd'] then .ok .last else (Text.readSigned s).map .at

/-- The range that a token writes, if it writes one; a lone bound is both ends. -/
def Range.read? (token : List Char) : Except Text.NumeralTooLong (Option Range) :=
  match tokenBounds? (bareToken token) with
  | none => .ok none
  | some (a, b) => do
    let first ← Bound.read a
    let final ← match b with
      | some b => Bound.read b
      | none => .ok first
    return some ⟨first, final⟩

/-- The ranges of tokens in order. -/
def readTokens : List (List Char) → Except Text.NumeralTooLong (List Range)
  | [] => .ok []
  | t :: r =>
    match Range.read? t with
    | .error e => .error e
    | .ok none => readTokens r
    | .ok (some x) => (readTokens r).map (x :: ·)

/-- The ranges of a text with commas between them. -/
def readRanges (s : List Char) : Except Text.NumeralTooLong (List Range) :=
  readTokens (splitAt ',' s)

/-! ## Selecting -/

variable {α : Type}

/-- The items of one range; none if it is reversed. -/
def Range.itemsOf (r : Range) (items : List α) : List α :=
  let first := max 1 (r.first.resolve items.length)
  let final := min (items.length : Int) (r.final.resolve items.length)
  (items.drop (first - 1).toNat).take (final - first + 1).toNat

/-- The items of each range in turn. -/
def selectItems (items : List α) (ranges : List Range) : List α :=
  ranges.flatMap fun r => r.itemsOf items

/-- The floors of one range in a chat of `count` floors, whichever bound is the larger. -/
def Range.floorsOf (r : Range) (count : Int) : List Int :=
  let a := r.first.resolve count
  let b := r.final.resolve count
  interval (max 1 (min a b)) (min count (max a b))

/-- The floors of each range in turn. -/
def selectFloors (count : Int) (ranges : List Range) : List Int :=
  if count ≤ 0 then [] else ranges.flatMap fun r => r.floorsOf count

end TagLedger.Template
