import TagLedger.Yaml.Cursor
import TagLedger.Text.Numeral
import TagLedger.Text.Quoted

/-!
# Texts of scalars

A scalar is written plainly, in single or double quotes, or as a block of lines. Plain and quoted
scalars may go on over several lines: a line break reads as a space, and of several breaks the first
is dropped. A block keeps its lines, or folds them in the same way.
-/

namespace TagLedger.Yaml

/-- A line break and the breaks after it, as they read within a running text. -/
def fold (first : Char) (more : List Char) : List Char :=
  if first != '\n' then first :: more else if more.isEmpty then [' '] else more

/-! ## Quoted scalars -/

/-- Further breaks after one, with the gaps of their lines. The fuel bounds the lines. -/
def quotedBreaks : Nat → Cursor → Except Fault (List Char × Cursor)
  | 0, c => .ok ([], c)
  | fuel + 1, c =>
    if isSeparator c.rest then .error .malformed
    else
      let c := c.skip isInlineGap
      match c.rest with
      | [] => .ok ([], c)
      | x :: _ =>
        if isBreak x then (quotedBreaks fuel c.next).map fun (more, c) => (breakChar x :: more, c)
        else .ok ([], c)

/-- What a character after a backslash stands for on its own. -/
def escapes : List (Char × Nat) :=
  [('0', 0), ('a', 7), ('b', 8), ('t', 9), ('\t', 9), ('n', 10), ('v', 11), ('f', 12), ('r', 13),
   ('e', 27), (' ', 32), ('"', 34), ('\\', 92), ('/', 47), ('N', 0x85), ('_', 0xA0), ('L', 0x2028),
   ('P', 0x2029)]

/-- How many digits follow these characters after a backslash. -/
def escapeWidths : List (Char × Nat) := [('x', 2), ('u', 4), ('U', 8)]

def hexNumber (ds : List Char) : Option Nat :=
  ds.foldl (fun n c => n.bind fun n => (Text.hexDigit? c).map (16 * n + ·)) (some 0)

/-- The character with a number; half of a pair stands for U+FFFD. -/
def charOf (n : Nat) : Except Fault Char :=
  if 0x10FFFF < n then .error .badValue
  else .ok (if 0xD800 ≤ n && n ≤ 0xDFFF then Char.ofNat 0xFFFD else Char.ofNat n)

/-- What stands after a backslash within double quotes. -/
def escape (c : Cursor) : Except Fault (List Char × Cursor) :=
  match c.rest with
  | [] => .error .malformed
  | x :: r =>
    match escapes.lookup x, escapeWidths.lookup x with
    | some n, _ => .ok ([Char.ofNat n], c.next)
    | none, some width =>
      let ds := r.take width
      if ds.length < width then .error .malformed
      else
        match hexNumber ds with
        | none => .error .malformed
        | some n => (charOf n).map fun y => ([y], Cursor.drop (width + 1) c)
    | none, none => if isBreak x then quotedBreaks (c.rest.length + 1) c.next else .error .malformed

/-- A quoted scalar after its opening quote. The fuel bounds the characters. -/
def quotedFrom (quote : Char) : Nat → List Char → Cursor → Except Fault (String × Cursor)
  | 0, _, _ => .error .malformed
  | fuel + 1, done, c =>
    match c.rest with
    | [] => .error .malformed
    | x :: r =>
      if x == quote then
        if quote == Text.apostrophe && r.head? == some quote then
          quotedFrom quote fuel (quote :: done) (Cursor.drop 2 c)
        else .ok (String.ofList done.reverse, c.next)
      else if quote == '"' && x == '\\' then
        match escape c.next with
        | .error e => .error e
        | .ok (t, c) => quotedFrom quote fuel (t.reverse ++ done) c
      else if isGap x then
        let (gap, c) := c.take isInlineGap
        match c.rest with
        | [] => .error .malformed
        | y :: _ =>
          if isBreak y then
            match quotedBreaks (c.rest.length + 1) c.next with
            | .error e => .error e
            | .ok (more, c) =>
              quotedFrom quote fuel ((fold (breakChar y) more).reverse ++ done) c
          else quotedFrom quote fuel (gap.reverse ++ done) c
      else quotedFrom quote fuel (x :: done) c.next

/-- A quoted scalar from its opening quote on. -/
def quoted (quote : Char) (c : Cursor) : Except Fault (String × Cursor) :=
  quotedFrom quote (c.rest.length + 1) [] c.next

/-! ## Plain scalars -/

/-- What ends a plain scalar after a colon. -/
def endsKey (inFlow : Bool) (c : Char) : Bool :=
  isGap c || (inFlow && (c == ',' || c == '[' || c == ']' || c == '\x7b' || c == '\x7d'))

/-- How many characters of a plain scalar stand in a row. -/
def plainLength (inFlow : Bool) : List Char → Nat
  | [] => 0
  | c :: r =>
    if isGap c || (c == ':' && endsOr (endsKey inFlow) r) ||
      (inFlow && (c == '?' || (endsKey true c))) then 0
    else plainLength inFlow r + 1

/-- Further breaks after one, with the spaces of their lines; `none` before a mark between
documents. The fuel bounds the lines. -/
def plainBreaks : Nat → Cursor → Option (List Char) × Cursor
  | 0, c => (some [], c)
  | fuel + 1, c =>
    if isSeparator c.rest then (none, c)
    else
      let c := c.skipSpaces
      match c.rest with
      | [] => (some [], c)
      | x :: _ =>
        if isBreak x then
          let (more, c) := plainBreaks fuel c.next
          (more.map (breakChar x :: ·), c)
        else (some [], c)

/-- What stands between two rows of a plain scalar. -/
structure PlainGap where
  /-- How it reads; empty if the scalar ends here. -/
  text : List Char
  /-- It holds a line break. -/
  broken : Bool
  after : Cursor

def plainGap (c : Cursor) : PlainGap :=
  let (spaces, c) := c.take (· == ' ')
  match c.rest with
  | [] => ⟨spaces, false, c⟩
  | x :: _ =>
    if isBreak x then
      let (more, c) := plainBreaks (c.rest.length + 1) c.next
      ⟨(more.map (fold (breakChar x))).getD [], true, c⟩
    else ⟨spaces, false, c⟩

/-- A plain scalar with what is read of it and the gap before this place. The fuel bounds the
rows. -/
def plainFrom (inFlow : Bool) (indent : Nat) :
    Nat → List Char → PlainGap → String × PlainGap
  | 0, done, gap => (String.ofList done, gap)
  | fuel + 1, done, gap =>
    let c := gap.after
    let n := if c.rest.head? == some '#' then 0 else plainLength inFlow c.rest
    if n = 0 then (String.ofList done, gap)
    else
      let done := done ++ gap.text ++ c.rest.take n
      let next := plainGap (Cursor.drop n c)
      if next.text.isEmpty || next.after.rest.head? == some '#' ||
        (!inFlow && next.after.column < indent) then (String.ofList done, next)
      else plainFrom inFlow indent fuel done next

/-- A plain scalar, and the gap after it. Outside of brackets its lines stand from column `indent`
on. -/
def plain (inFlow : Bool) (indent : Nat) (c : Cursor) : String × PlainGap :=
  plainFrom inFlow indent (c.rest.length + 1) [] ⟨[], false, c⟩

/-! ## Blocks of lines -/

/-- What becomes of the breaks at the end of a block. -/
inductive Chomp where
  | strip
  | clip
  | keep
  deriving DecidableEq

/-- The head of a block: what becomes of its end, and how deep its lines stand. -/
structure BlockHead where
  chomp : Chomp
  depth : Option Nat

def chomp? : Cursor → Option (Chomp × Cursor) := fun c =>
  match c.rest with
  | '+' :: _ => some (.keep, c.next)
  | '-' :: _ => some (.strip, c.next)
  | _ => none

def depth? : Cursor → Except Fault (Option Nat × Cursor) := fun c =>
  match c.rest with
  | x :: _ =>
    if x == '0' then .error .malformed
    else if Text.isAsciiDigit x then .ok (some (x.toNat - 48), c.next)
    else .ok (none, c)
  | [] => .ok (none, c)

/-- The head of a block after its indicator, up to the end of the line. -/
def blockHead (c : Cursor) : Except Fault (BlockHead × Cursor) := do
  let (head, c) ← match chomp? c with
    | some (chomp, c) => (depth? c).map fun (d, c) => ((⟨chomp, d⟩ : BlockHead), c)
    | none => (depth? c).map fun (d, c) =>
      match d, chomp? c with
      | some d, some (chomp, c) => (⟨chomp, some d⟩, c)
      | d, _ => (⟨.clip, d⟩, c)
  if endsOr (fun x => x == ' ' || isBreak x) c.rest then
    let c ← c.endLine
    return (head, c)
  else .error .malformed

/-- The breaks before the first line of a block, and the greatest column that their lines reach. -/
def leadingLines : Nat → Nat → Cursor → List Char × Nat × Cursor
  | 0, deepest, c => ([], deepest, c)
  | fuel + 1, deepest, c =>
    let c := c.skipSpaces
    let deepest := max deepest c.column
    match c.rest with
    | [] => ([], deepest, c)
    | x :: _ =>
      if isBreak x then
        let (more, rest) := leadingLines fuel deepest c.next
        (breakChar x :: more, rest)
      else ([], deepest, c)

/-- The breaks before the next line of a block. -/
def blankLines (indent : Nat) : Nat → Cursor → List Char × Cursor
  | 0, c => ([], c)
  | fuel + 1, c =>
    let c := c.skipIndent indent
    match c.rest with
    | [] => ([], c)
    | x :: _ =>
      if isBreak x then
        let (more, c) := blankLines indent fuel c.next
        (breakChar x :: more, c)
      else ([], c)

/-- The end of a block: its last break and the breaks after it. -/
def Chomp.ending (chomp : Chomp) (last : Option Char) (more : List Char) : List Char :=
  match chomp with
  | .strip => []
  | .clip => last.toList
  | .keep => last.toList ++ more

/-- A line of a block that was read: its break, and whether text stands at its start. -/
structure BlockLine where
  ending : Char
  flush : Bool

/-- What stands between two lines of a block, besides the breaks between them. -/
def joint (folded : Bool) (last : BlockLine) (flush : Bool) (more : List Char) : List Char :=
  if folded && last.ending == '\n' && last.flush && flush then
    if more.isEmpty then [' '] else []
  else [last.ending]

/-- The lines of a block: `done` is what was read, `last` the line before, and `more` the breaks
before this place. The fuel bounds the lines. -/
def blockLines (folded : Bool) (indent : Nat) (chomp : Chomp) :
    Nat → List Char → Option BlockLine → List Char → Cursor → String × Cursor
  | 0, done, _, _, c => (String.ofList done, c)
  | fuel + 1, done, last, more, c =>
    if c.column != indent || c.rest.isEmpty then
      (String.ofList (done ++ chomp.ending (last.map (·.ending)) more), c)
    else
      let flush := !endsOr isInlineGap c.rest
      let (line, after) := c.take (!isBreak ·)
      let between := match last with
        | none => []
        | some l => joint folded l flush more
      let done := done ++ between ++ more ++ line
      match after.rest with
      | [] => (String.ofList done, after)
      | x :: _ =>
        let (more, next) := blankLines indent (after.rest.length + 1) after.next
        blockLines folded indent chomp fuel done (some ⟨breakChar x, flush⟩) more next

/-- A block after its indicator. Its lines stand deeper than column `indent`, which is that of the
collection around it, or -1. -/
def block (folded : Bool) (indent : Int) (c : Cursor) : Except Fault (String × Cursor) :=
  (blockHead c).map fun (head, c) =>
    let least := max 1 (indent + 1).toNat
    let fuel := c.rest.length + 1
    match head.depth with
    | some d =>
      let column := least + d - 1
      let (more, c) := blankLines column fuel c
      blockLines folded column head.chomp fuel [] none more c
    | none =>
      let (more, deepest, c) := leadingLines fuel 0 c
      blockLines folded (max least deepest) head.chomp fuel [] none more c

end TagLedger.Yaml
