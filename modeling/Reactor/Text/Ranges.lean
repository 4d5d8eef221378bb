/-
  Ranges of characters, given by their numbers.

  A class of characters is a list of ranges, first and last number included, in
  ascending order.
-/

namespace Reactor.Text

/-- Whether a character is in one of the ranges. -/
def inRanges (ranges : List (Nat × Nat)) (c : Char) : Bool :=
  ranges.any fun r => r.1 ≤ c.toNat && c.toNat ≤ r.2

end Reactor.Text
