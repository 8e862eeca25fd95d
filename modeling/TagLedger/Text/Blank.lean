/-!
# Blank characters and trimming

A character is blank if it is white space in Unicode or one of the four information separators
U+001C to U+001F. The zero-width characters U+200B and U+FEFF are not blank.

    trim s = []                  for a blank text s          (trim_eq_nil_of_blank)
-/

namespace TagLedger.Text

/-! ## Definitions -/

/-- White space of Unicode, the information separators excepted. -/
def isSpace (c : Char) : Bool :=
  let n := c.toNat
  (9 ≤ n && n ≤ 13) || n == 32 || n == 0x85 || n == 0xA0 || n == 0x1680 ||
    (0x2000 ≤ n && n ≤ 0x200A) || n == 0x2028 || n == 0x2029 || n == 0x202F || n == 0x205F ||
    n == 0x3000

/-- White space or an information separator. -/
def isBlank (c : Char) : Bool :=
  isSpace c || (0x1C ≤ c.toNat && c.toNat ≤ 0x1F)

def trimStart (s : List Char) : List Char := s.dropWhile isBlank

/-- Drops the longest end of `s` whose characters all satisfy `p`. -/
def dropEndWhile (p : Char → Bool) (s : List Char) : List Char := (s.reverse.dropWhile p).reverse

def trimEnd (s : List Char) : List Char := dropEndWhile isBlank s

/-- Without the blanks at both ends. -/
def trim (s : List Char) : List Char := trimEnd (trimStart s)

/-- Without the blanks at both ends, on strings. -/
def trimmed (s : String) : String := String.ofList (trim s.toList)

/-- No character, or blank characters only. -/
def isBlankText (s : String) : Bool := s.toList.all isBlank

/-! ## Lemmas -/

theorem isBlank_of_isWhitespace {c : Char} (h : c.isWhitespace = true) : isBlank c = true := by
  simp only [Char.isWhitespace, Bool.or_eq_true, decide_eq_true_eq] at h
  rcases h with ((h | h) | h) | h <;> subst h <;> decide

theorem trimStart_eq_of_head {c : Char} {s : List Char} (h : isBlank c = false) :
    trimStart (c :: s) = c :: s := by
  simp [trimStart, h]

theorem dropWhile_eq_nil_of_all {p : Char → Bool} {s : List Char} (h : s.all p = true) :
    s.dropWhile p = [] := by
  induction s with
  | nil => rfl
  | cons c s ih => simp_all

theorem trim_eq_nil_of_blank {s : List Char} (h : s.all isBlank = true) : trim s = [] := by
  simp [trim, trimStart, dropWhile_eq_nil_of_all h, trimEnd, dropEndWhile]

end TagLedger.Text
