/-!
# Sets of characters

A set of characters as ascending, disjoint ranges of code points.
-/

namespace ContractDraft.Text

/-- Ranges of code points, both ends included, in ascending order. -/
abbrev CodeRanges := List (Nat × Nat)

/-- Whether a code point lies in one of the ranges. The order lets the search stop early. -/
def CodeRanges.contains : CodeRanges → Nat → Bool
  | [], _ => false
  | (first, last) :: rest, n => if n < first then false else n ≤ last || contains rest n

end ContractDraft.Text
