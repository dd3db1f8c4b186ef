/-!
# Ranges of code points

A property of characters as a list of ranges.
-/

namespace Dalvik.Text

/-- Whether a number lies in one of some ranges, both ends included. -/
def inRanges (ranges : List (Nat × Nat)) (n : Nat) : Bool :=
  ranges.any fun (low, high) => low ≤ n && n ≤ high

end Dalvik.Text
