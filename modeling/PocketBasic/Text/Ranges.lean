/-!
# Sets of characters as ranges

A property of characters is a list of closed ranges of code points.
-/

namespace PocketBasic.Text

abbrev Ranges := List (Nat × Nat)

def Ranges.contains (r : Ranges) (c : Char) : Bool :=
  r.any fun (low, high) => low ≤ c.toNat && c.toNat ≤ high

end PocketBasic.Text
