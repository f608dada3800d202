/-!
# Ranges of characters

Classes of characters as lists of ranges of code points.
-/

namespace DeclCatalogue.Text

/-- Ranges of code points, each given by its first and its last. -/
abbrev Ranges := List (Nat × Nat)

/-- Whether a character lies in one of the ranges. -/
def Ranges.holds (ranges : Ranges) (c : Char) : Bool :=
  ranges.any fun r => r.1 ≤ c.toNat && c.toNat ≤ r.2

end DeclCatalogue.Text
