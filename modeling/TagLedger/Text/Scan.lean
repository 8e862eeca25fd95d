/-!
# Finding marks in a text

A mark is recognised by a reader that is given the text from a place on and says what it found and
how many characters that takes. `scan` cuts a text from left to right into the marks found, none
overlapping, and the single characters between them.

    (scan read s).flatMap (source …) = s        when the reader knows what it took
-/

namespace TagLedger.Text

/-- A mark with its number of characters, if one starts here. -/
abbrev MarkReader (α : Type) := List Char → Option (α × Nat)

inductive Piece (α : Type) where
  | char (c : Char)
  | mark (a : α)
  deriving DecidableEq

variable {α β : Type}

/-- Cuts a text of which the first `skip` characters belong to a mark found before. -/
def scanFrom (read : MarkReader α) : Nat → List Char → List (Piece α)
  | _, [] => []
  | skip + 1, _ :: r => scanFrom read skip r
  | 0, c :: r =>
    match read (c :: r) with
    | some (a, n) => .mark a :: scanFrom read (n - 1) r
    | none => .char c :: scanFrom read 0 r

/-- A text as its marks and the characters between them. -/
def scan (read : MarkReader α) (s : List Char) : List (Piece α) := scanFrom read 0 s

def Piece.mark? : Piece α → Option α
  | .char _ => none
  | .mark a => some a

/-- The marks of a text in order. -/
def marks (read : MarkReader α) (s : List Char) : List α := (scan read s).filterMap Piece.mark?

/-- A text put together again, with something in place of each mark. -/
def fill {ε : Type} (f : α → Except ε (List Char)) : List (Piece α) → Except ε (List Char)
  | [] => .ok []
  | .char c :: r => (fill f r).map (c :: ·)
  | .mark a :: r =>
    match f a with
    | .error e => .error e
    | .ok t => (fill f r).map (t ++ ·)

/-- What follows a given start. -/
def afterStart? (start s : List Char) : Option (List Char) :=
  match start, s with
  | [], s => some s
  | c :: t, d :: s => if c = d then afterStart? t s else none
  | _ :: _, [] => none

theorem afterStart?_append (start s : List Char) : afterStart? start (start ++ s) = some s := by
  induction start with
  | nil => simp [afterStart?]
  | cons c t ih => simp [afterStart?, ih]

end TagLedger.Text
