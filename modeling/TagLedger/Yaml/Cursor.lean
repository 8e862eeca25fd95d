/-!
# Places in a text

A text of settings is read from left to right. A place knows what is left of the text and in which
line and column it is, because indentation and the reach of a key depend on them.

    (c.take p).1 ++ (c.take p).2.rest = c.rest              (take_append_rest)
-/

namespace TagLedger.Yaml

/-- Why a text has no value. -/
inductive Fault where
  /-- The text breaks the grammar, or holds something of no known kind. -/
  | malformed
  /-- A number, date or character that does not exist. -/
  | badValue
  /-- A word that is no truth value. -/
  | badWord
  /-- A number without characters. -/
  | emptyNumber
  deriving DecidableEq

/-! ## Characters -/

def isBreak (c : Char) : Bool :=
  c == '\n' || c.toNat == 0x85 || c.toNat == 0x2028 || c.toNat == 0x2029

/-- A space or a tab. -/
def isInlineGap (c : Char) : Bool := c == ' ' || c == '\t'

def isGap (c : Char) : Bool := isInlineGap c || isBreak c

/-- How a line break is kept in a text. -/
def breakChar (c : Char) : Char := if c.toNat == 0x85 then '\n' else c

/-- The characters that a text of settings may hold. -/
def isPrintable (c : Char) : Bool :=
  let n := c.toNat
  n == 9 || n == 10 || n == 13 || (0x20 ≤ n && n ≤ 0x7E) || n == 0x85 || (0xA0 ≤ n && n ≤ 0xFFFD) ||
    0x10000 ≤ n

/-- The mark that may stand in front of a text. -/
def orderMark : Char := Char.ofNat 0xFEFF

/-- The characters of names. -/
def isNameChar (c : Char) : Bool :=
  let n := c.toNat
  (48 ≤ n && n ≤ 57) || (65 ≤ n && n ≤ 90) || (97 ≤ n && n ≤ 122) || c == '-' || c == '_'

/-- The text ends, or goes on with a character of a class. -/
def endsOr (p : Char → Bool) : List Char → Bool
  | [] => true
  | c :: _ => p c

/-- The line is a mark between documents. Only asked where a line starts. -/
def isSeparator : List Char → Bool
  | '-' :: '-' :: '-' :: r => endsOr isGap r
  | '.' :: '.' :: '.' :: r => endsOr isGap r
  | _ => false

/-! ## Places -/

structure Cursor where
  rest : List Char
  /-- How many characters are before this place. -/
  index : Nat
  line : Nat
  column : Nat

namespace Cursor

def start (s : List Char) : Cursor := ⟨s, 0, 0, 0⟩

/-- The place after the next character. -/
def next (c : Cursor) : Cursor :=
  match c.rest with
  | [] => c
  | x :: r =>
    if isBreak x then ⟨r, c.index + 1, c.line + 1, 0⟩
    else ⟨r, c.index + 1, c.line, if x == orderMark then c.column else c.column + 1⟩

def drop : Nat → Cursor → Cursor
  | 0, c => c
  | n + 1, c => drop n c.next

/-- The next characters of a class, and the place after them. -/
def take (c : Cursor) (p : Char → Bool) : List Char × Cursor :=
  let taken := c.rest.takeWhile p
  (taken, drop taken.length c)

def skip (c : Cursor) (p : Char → Bool) : Cursor := (c.take p).2

def skipSpaces (c : Cursor) : Cursor := c.skip (· == ' ')

/-- After the spaces that stand before a column. -/
def skipIndent (c : Cursor) (column : Nat) : Cursor :=
  drop (min (column - c.column) (c.rest.takeWhile (· == ' ')).length) c

/-- After spaces and a comment: the end of the line, which nothing else may stand before. -/
def endLine (c : Cursor) : Except Fault Cursor :=
  let c := c.skipSpaces
  let c := match c.rest with
    | '#' :: _ => c.skip (!isBreak ·)
    | _ => c
  if endsOr isBreak c.rest then .ok c.next else .error .malformed

/-! ## Lemmas -/

theorem rest_next (c : Cursor) : c.next.rest = c.rest.drop 1 := by
  unfold next
  split
  · simp_all
  · split <;> simp_all

theorem rest_drop (n : Nat) (c : Cursor) : (drop n c).rest = c.rest.drop n := by
  induction n generalizing c with
  | zero => simp [drop]
  | succ n ih => rw [drop, ih, rest_next, List.drop_drop, Nat.add_comm]

theorem drop_length_takeWhile (p : Char → Bool) (s : List Char) :
    s.drop (s.takeWhile p).length = s.dropWhile p := by
  induction s with
  | nil => rfl
  | cons c s ih => by_cases h : p c <;> simp [h, ih]

theorem take_append_rest (c : Cursor) (p : Char → Bool) :
    (c.take p).1 ++ (c.take p).2.rest = c.rest := by
  simp [take, rest_drop, drop_length_takeWhile]

end Cursor

end TagLedger.Yaml
