/-!
# Ranges of code points

Character properties are tables of closed ranges of code points.
-/

namespace Chip8.Text

/-- Whether a character lies in one of the ranges. -/
def inRanges (ranges : List (Nat × Nat)) (c : Char) : Bool :=
  ranges.any fun (first, last) => first ≤ c.toNat && c.toNat ≤ last

end Chip8.Text
