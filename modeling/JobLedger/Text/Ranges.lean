/-!
# Ranges of characters

Properties of characters are given as tables of ranges of code points, both ends included.
-/
namespace JobLedger.Text

/-- Whether a code point lies in one of some ranges. -/
def inRanges (n : Nat) (ranges : List (Nat × Nat)) : Bool :=
  ranges.any fun r => r.1 ≤ n && n ≤ r.2

end JobLedger.Text
