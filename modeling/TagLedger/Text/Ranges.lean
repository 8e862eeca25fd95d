/-!
# Sets of code points given by ranges

Membership in the tables of this folder.
-/

namespace TagLedger.Text

/-- The code point lies in one of the closed ranges. -/
def inRanges (ranges : List (Nat × Nat)) (n : Nat) : Bool :=
  ranges.any fun r => r.1 ≤ n && n ≤ r.2

end TagLedger.Text
