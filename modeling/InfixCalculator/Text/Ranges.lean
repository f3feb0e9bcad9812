/-!
# Classes of characters given by ranges

A character class of a standard is written as an ascending list of closed ranges of code points.
`covers` walks such a list and stops at the first range that lies above the code point, so that the
characters at the beginning of a table are found fast.
-/

namespace InfixCalculator.Text

/-- Whether a code point lies in one of the closed ranges, which ascend and do not overlap. -/
def covers : List (Nat × Nat) → Nat → Bool
  | [], _ => false
  | (low, high) :: rest, n =>
    if n < low then false else if n ≤ high then true else covers rest n

end InfixCalculator.Text
