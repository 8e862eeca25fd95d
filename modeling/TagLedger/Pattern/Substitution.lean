import TagLedger.Pattern.Matcher
import TagLedger.Pattern.Parser

/-!
# Matches of a text, and replacing them

The matches of a text are looked for from left to right, each from where the last one ended. A match
may be empty, but not right where an empty match was found before. `cuts` splits the text into its
matches with what is skipped before each, so putting the pieces together gives the text.

    (cuts …).text = text
-/

namespace TagLedger.Pattern

/-! ## Matches -/

/-- A match: the text taken, and what its groups took. -/
structure Match where
  text : List Char
  groups : List (Nat × List Char)

/-- What group `i` took, the whole match for zero, and nothing for a group that has no match. -/
def Match.group (m : Match) (i : Nat) : List Char :=
  if i = 0 then m.text else ((m.groups.find? (·.1 == i)).map (·.2)).getD []

/-- The match at a place; an empty one is passed over if `advance` is set. -/
def matchAt? (n : Node) (advance : Bool) (before after : List Char) : Option Match :=
  let start : Place := ⟨before, after, 0, []⟩
  (n.run start fun p => if advance && p.index == 0 then none else some p).map fun p =>
    ⟨after.take p.index, p.groups⟩

/-- The first match from a place on, with the characters skipped before it, nearest first. -/
def search? (n : Node) (advance : Bool) (before skipped : List Char) :
    List Char → Option (List Char × Match)
  | [] => (matchAt? n advance before []).map fun m => (skipped, m)
  | c :: r =>
    match matchAt? n advance before (c :: r) with
    | some m => some (skipped, m)
    | none => search? n false (c :: before) (c :: skipped) r

/-- A text as its matches, each with the text skipped before it, and what is left at the end. -/
structure Cuts where
  found : List (List Char × Match)
  tail : List Char

/-- The whole text again. -/
def Cuts.text (c : Cuts) : List Char :=
  c.found.flatMap (fun (skipped, m) => skipped ++ m.text) ++ c.tail

/-- The first `limit` matches from a place on. -/
def cutsFrom (n : Node) : Nat → Bool → List Char → List Char → Cuts
  | 0, _, _, after => ⟨[], after⟩
  | limit + 1, advance, before, after =>
    match search? n advance before [] after with
    | none => ⟨[], after⟩
    | some (skipped, m) =>
      let gone := skipped.length + m.text.length
      let before := (after.take gone).reverse ++ before
      let more := cutsFrom n limit m.text.isEmpty before (after.drop gone)
      ⟨(skipped.reverse, m) :: more.found, more.tail⟩

/-- The matches of a text, all of them or the first only; there are at most two at a place. -/
def cuts (n : Node) (all : Bool) (text : List Char) : Cuts :=
  cutsFrom n (if all then 2 * text.length + 2 else 1) false [] text

/-! ## Replacing -/

/-- Each match replaced by what `f` makes of it. -/
def replaceFound {ε : Type} (f : Match → Except ε (List Char)) (tail : List Char) :
    List (List Char × Match) → Except ε (List Char)
  | [] => .ok tail
  | (skipped, m) :: r =>
    match f m with
    | .error e => .error e
    | .ok t => (replaceFound f tail r).map fun u => skipped ++ t ++ u

def Cuts.substitute {ε : Type} (c : Cuts) (f : Match → Except ε (List Char)) :
    Except ε (List Char) :=
  replaceFound f c.tail c.found

/-- The parts of a replacement. -/
inductive Part where
  | text (c : Char)
  /-- The text of a group, given by digits, or the digits themselves after a dollar sign. -/
  | group (digits : List Char)
  | whole
  deriving DecidableEq

/-- Reads a replacement: a dollar sign before digits, `&` or another dollar sign is special. -/
def parts : Nat → List Char → List Part
  | 0, _ => []
  | _, [] => []
  | fuel + 1, '$' :: r =>
    match r with
    | '$' :: r => .text '$' :: parts fuel r
    | '&' :: r => .whole :: parts fuel r
    | r =>
      let ds := r.takeWhile Text.isDigit
      if ds.isEmpty then .text '$' :: parts fuel r
      else .group ds :: parts fuel (r.drop ds.length)
  | fuel + 1, c :: r => .text c :: parts fuel r

/-- What a part of a replacement stands for in a match. -/
def Part.expand (groups : Nat) (m : Match) : Part → Except Text.NumeralTooLong (List Char)
  | .text c => .ok [c]
  | .whole => .ok m.text
  | .group ds =>
    (Text.readDigits ds).map fun i => if i ≤ groups then m.group i else '$' :: ds

/-- The replacement of a match. -/
def expand (groups : Nat) (replacement : List Char) (m : Match) :
    Except Text.NumeralTooLong (List Char) :=
  ((parts (replacement.length + 1) replacement).mapM (Part.expand groups m)).map List.flatten

end TagLedger.Pattern
