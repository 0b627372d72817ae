/-!
# Intervals of code points
-/

namespace VisualNovel.Text

/-- A code point lies in one of the closed intervals. -/
def inRanges (n : Nat) (ranges : List (Nat × Nat)) : Bool :=
  ranges.any fun r => r.1 ≤ n && n ≤ r.2

end VisualNovel.Text
