import TagLedger.Text.Ranges
import TagLedger.Text.WordTable

/-!
# Word characters

Letters, numbers and the low line. Patterns use them for `\w` and `\b`.
-/

namespace TagLedger.Text

/-- A letter, a number or the low line; ASCII is decided without the table. -/
def isWord (c : Char) : Bool :=
  if c.toNat < 128 then c.isAlphanum || c == '_' else inRanges wordRanges c.toNat

end TagLedger.Text
