/-!
# Spans of code points

Classes of characters are listed as inclusive ranges of code points.
-/
namespace MarketFormula.Text

def within (n : Nat) (spans : List (Nat × Nat)) : Bool :=
  spans.any fun span => span.1 ≤ n && n ≤ span.2

end MarketFormula.Text
