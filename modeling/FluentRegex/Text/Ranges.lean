import FluentRegex.Text

/-!
Classes of characters given by tables of code point ranges, each range with both of its ends.
-/

namespace FluentRegex.Text

def inRanges (ranges : List (Nat × Nat)) (c : Char) : Bool :=
  ranges.any fun (first, last) => decide (first ≤ c.toNat) && decide (c.toNat ≤ last)

end FluentRegex.Text
