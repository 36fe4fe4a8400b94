/-
  Wireframe.Text.Range — sets of characters given as ranges of code points.
-/

namespace Wireframe.Text

/-- Is `c` in one of the closed ranges? -/
def inRanges (ranges : List (Nat × Nat)) (c : Char) : Bool :=
  ranges.any fun (low, high) => low ≤ c.toNat && c.toNat ≤ high

end Wireframe.Text
