/-! A class of characters is written as a list of closed ranges of code points. -/

namespace SvgJsx.Text

abbrev CharRanges := List (Nat × Nat)

def CharRanges.has (rs : CharRanges) (n : Nat) : Bool := rs.any fun r => decide (r.1 ≤ n ∧ n ≤ r.2)

end SvgJsx.Text
