import InfixCalculator.Number.Basic

/-!
# The text of a number

`text` writes every number in full. `display` is the text shown as a result: a double that is a whole
number below `10 ^ 16` is shown without its point, and an integer of too many digits is not shown.
-/

namespace InfixCalculator.Number

/-- The text of a number in full. -/
def text : Number → String
  | int n => Numeral.text n
  | float x => Binary64.text x

/-- Whether a double is a whole number short enough to be shown without point or exponent. -/
def isShortInteger (x : Float) : Bool :=
  Binary64.isInteger x && Binary64.units x < Nat.pow 10 16 * Binary64.unitsPerOne

/-- The text of a number as a result. -/
def display : Number → Except Numeral.Unwritable String
  | int n => Numeral.write n
  | float x =>
    if isShortInteger x then Numeral.write (Binary64.toInt x) else .ok (Binary64.text x)

end InfixCalculator.Number
