import InfixCalculator.Number.Basic

/-!
# Literals

The text of a number in an expression: digits alone make an integer; digits with a point, with an
exponent or with both make a double. There is no sign, neither before the number nor in the exponent.
`literal?` refuses every other text, an integer of too many digits, and a decimal beyond the largest
double.
-/

namespace InfixCalculator.Number

/-- Whether a text is a non-empty run of ASCII digits. -/
def isDigits (s : List Char) : Bool :=
  !s.isEmpty && s.all Char.isDigit

/-- The number that a text denotes, if it is a literal. -/
def literal? (s : List Char) : Option Number :=
  if isDigits s then
    if s.length ≤ Numeral.maxDigits then some (.int (Numeral.ofDigits s : Nat)) else none
  else
    match Binary64.Decimal.read? Binary64.unsignedExponent? s with
    | some d => d.nearest?.map .float
    | none => none

end InfixCalculator.Number
