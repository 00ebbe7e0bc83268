/-!
# Ranges of code points

A character property is a list of closed ranges of code points, ascending and apart. This file
has the look-up; the properties themselves are in modules named for them.
-/

namespace DiceDuel.Text

/-- Closed ranges of code points. -/
abbrev Ranges := List (Nat × Nat)

/-- Whether a code point lies in one of the ranges. -/
def Ranges.holds (ranges : Ranges) (point : Nat) : Bool :=
  ranges.any fun range => range.1 ≤ point && point ≤ range.2

end DiceDuel.Text
