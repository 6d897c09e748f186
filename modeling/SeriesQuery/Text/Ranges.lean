/-
Sets of characters given as ranges of code points.

A character property of the Unicode standard is a list of ranges, first and last code
point included, in ascending order.
-/

namespace SeriesQuery.Text

/-- Code points from a first to a last, both included, in ascending order. -/
abbrev Ranges := List (Nat × Nat)

/-- Whether a code point lies in one of the ranges. -/
def Ranges.has (ranges : Ranges) (n : Nat) : Bool :=
  ranges.any fun (first, last) => first ≤ n && n ≤ last

end SeriesQuery.Text
