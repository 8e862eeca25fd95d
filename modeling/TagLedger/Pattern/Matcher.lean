import TagLedger.Pattern.Basic

/-!
# Matching

A pattern is tried at a place of a text, alternatives in order, by passing on what has to match
after it. A repetition may match nothing once more after its required turns and then goes on, so
the number of its turns is bounded by the characters left.
-/

namespace TagLedger.Pattern

/-- A place in a text with what the groups have taken so far, the latest first. -/
structure Place where
  /-- The text before the place, nearest first. -/
  before : List Char
  after : List Char
  index : Nat
  groups : List (Nat × List Char)

namespace Place

/-- One character further on. -/
def next (p : Place) (c : Char) (rest : List Char) : Place :=
  { p with before := c :: p.before, after := rest, index := p.index + 1 }

/-- `n` characters back; `none` if there are fewer. -/
def back? (p : Place) : Nat → Option Place
  | 0 => some p
  | n + 1 =>
    match p.before with
    | [] => none
    | c :: b => back? { p with before := b, after := c :: p.after, index := p.index - 1 } n

/-- What a group has taken, if it has matched. -/
def group? (p : Place) (i : Nat) : Option (List Char) :=
  (p.groups.find? (·.1 == i)).map (·.2)

end Place

/-- What has to match after a pattern. -/
abbrev Next := Place → Option Place

/-- A pattern as a way to match at a place, given what comes after it. -/
abbrev Matcher := Place → Next → Option Place

def isWordAt (ascii : Bool) : List Char → Bool
  | c :: _ => Class.word.holds ascii c
  | [] => false

/-- Whether an anchor holds; no boundary and no lack of one is seen in an empty text. -/
def Anchor.holds (a : Anchor) (ascii : Bool) (p : Place) : Bool :=
  let changes : Bool := isWordAt ascii p.before != isWordAt ascii p.after
  let empty : Bool := p.before.isEmpty && p.after.isEmpty
  match a with
  | .textStart => p.before.isEmpty
  | .lineStart => p.before.isEmpty || p.before.head? == some '\n'
  | .textEnd => p.after.isEmpty
  | .lastLineEnd => p.after.isEmpty || p.after == ['\n']
  | .lineEnd => p.after.isEmpty || p.after.head? == some '\n'
  | .boundary => !empty && changes
  | .noBoundary => !empty && !changes

/-- Goes over one character that satisfies a test. -/
def stepIf (test : Char → Bool) (p : Place) (k : Next) : Option Place :=
  match p.after with
  | c :: r => if test c then k (p.next c r) else none
  | [] => none

/-- Goes over a given text. -/
def stepOver (flags : Flags) : List Char → Matcher
  | [], p, k => k p
  | c :: t, p, k =>
    stepIf (fun x => if flags.ignoreCase then
        lowerUnder flags c.toNat == lowerUnder flags x.toNat else c == x) p
      fun p => stepOver flags t p k

/-- Another turn is allowed after `count`. -/
def mayTurn (high : Option Nat) (count : Nat) : Bool :=
  match high with
  | some h => count < h
  | none => true

/-- Turns of `m`, as many as possible first. `last` is where the latest optional turn began. -/
def greedyTurns (m : Matcher) (low : Nat) (high : Option Nat) :
    Nat → Nat → Option Nat → Place → Next → Option Place
  | 0, _, _, p, k => k p
  | fuel + 1, count, last, p, k =>
    if count < low then m p fun q => greedyTurns m low high fuel (count + 1) last q k
    else
      let further :=
        if mayTurn high count && last != some p.index then
          m p fun q => greedyTurns m low high fuel (count + 1) (some p.index) q k
        else none
      match further with
      | some q => some q
      | none => k p

/-- Turns of `m`, as few as possible first. -/
def lazyTurns (m : Matcher) (low : Nat) (high : Option Nat) :
    Nat → Nat → Option Nat → Place → Next → Option Place
  | 0, _, _, p, k => k p
  | fuel + 1, count, last, p, k =>
    if count < low then m p fun q => lazyTurns m low high fuel (count + 1) last q k
    else
      match k p with
      | some q => some q
      | none =>
        if mayTurn high count && last != some p.index then
          m p fun q => lazyTurns m low high fuel (count + 1) (some p.index) q k
        else none

/-- Turns of `m`, each in the first way it matches, until one fails. -/
def possessiveTurns (m : Matcher) (low : Nat) (high : Option Nat) :
    Nat → Nat → Option Nat → Place → Option Place
  | 0, _, _, p => some p
  | fuel + 1, count, last, p =>
    if count < low then (m p some).bind fun q => possessiveTurns m low high fuel (count + 1) last q
    else if mayTurn high count && last != some p.index then
      match m p some with
      | some q => possessiveTurns m low high fuel (count + 1) (some p.index) q
      | none => some p
    else some p

/-- Matches a pattern at a place, and then what comes after it. -/
def Node.run : Node → Matcher
  | .empty, p, k => k p
  | .fail, _, _ => none
  | .char n flags, p, k => stepIf (charMatches n flags) p k
  | .any dotAll, p, k => stepIf (fun c => dotAll || c != '\n') p k
  | .set negated members flags, p, k => stepIf (setMatches negated members flags) p k
  | .anchor a ascii, p, k => if a.holds ascii p then k p else none
  | .seq a b, p, k => a.run p fun q => b.run q k
  | .alt a b, p, k =>
    match a.run p k with
    | some q => some q
    | none => b.run p k
  | .group i body, p, k =>
    body.run p fun q => k { q with groups := (i, p.after.take (q.index - p.index)) :: q.groups }
  | .back i _ _ flags, p, k =>
    match p.group? i with
    | some t => stepOver flags t p k
    | none => none
  | .many low high greed body, p, k =>
    let fuel := low + p.after.length + 2
    match greed with
    | .greedy => greedyTurns (fun p k => body.run p k) low high fuel 0 none p k
    | .lazy => lazyTurns (fun p k => body.run p k) low high fuel 0 none p k
    | .possessive =>
      match possessiveTurns (fun p k => body.run p k) low high fuel 0 none p with
      | some q => k q
      | none => none
  | .ahead negated body, p, k =>
    match body.run p some with
    | some q => if negated then none else k { p with groups := q.groups }
    | none => if negated then k p else none
  | .behind negated width body, p, k =>
    match (p.back? width).bind fun q => body.run q some with
    | some q => if negated then none else k { p with groups := q.groups }
    | none => if negated then k p else none
  | .cond i yes no, p, k => if (p.group? i).isSome then yes.run p k else no.run p k
  | .atomic body, p, k =>
    match body.run p some with
    | some q => k q
    | none => none

end TagLedger.Pattern
