/-!
Sets of characters given by closed ranges of code points, the form in which the Unicode
tables of this folder are written.
-/

namespace DartScaffold.Text

def inRanges (ranges : List (Nat × Nat)) (c : Char) : Bool :=
  ranges.any fun (low, high) => low ≤ c.toNat && c.toNat ≤ high

end DartScaffold.Text
