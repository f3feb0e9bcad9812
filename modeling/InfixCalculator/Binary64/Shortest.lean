import InfixCalculator.Binary64.Nearest
import InfixCalculator.Text.Numeral

/-!
# The shortest decimal text of a double

A double stands for all reals that round to it, its *rounding interval*. Its text has the fewest
digits with which a decimal can lie in that interval, and of the decimals with so many digits it is
the nearest to the double. `shortest` searches the decimal grids from one digit up to seventeen, which
always suffice, and tests on each only the two neighbours of the double. All comparisons are made
between natural numbers, in units scaled by four and by a fixed power of ten.

How the digits are set out in a text is a matter of the `Layout`.
-/

namespace InfixCalculator.Binary64

/-- A decimal number `significand * 10 ^ exponent`. -/
structure Decimal where
  significand : Nat
  exponent : Int
  deriving DecidableEq, Repr

/-- The power of ten by which all quantities are scaled, so that the finest grid, that of the
seventeenth digit of the least double, is still a whole number. -/
def gridShift : Nat := 344

/-- The ends of the rounding interval of a magnitude, in quarters of a unit. Above the interval ends
half a step away. Below too, except at the least significand of an exponent, where the steps
downwards are half as long. -/
def roundingInterval (m : Magnitude) : Nat × Nat :=
  let step := Nat.pow 2 m.exponent
  let below := if m.significand = fieldUnit ∧ 0 < m.exponent then step else 2 * step
  (4 * m.units - below, 4 * m.units + 2 * step)

/-- Whether `n * grid` rounds to the magnitude, where `grid` is in units scaled by `10 ^ gridShift`
and by `unitsPerOne`. The ends of the interval round to the even significand. -/
def roundsTo (m : Magnitude) (grid n : Nat) : Bool :=
  let (low, high) := roundingInterval m
  let point := 4 * n * grid
  let low := low * Nat.pow 10 gridShift
  let high := high * Nat.pow 10 gridShift
  if m.significand % 2 = 0 then low ≤ point ∧ point ≤ high else low < point ∧ point < high

/-- The exponent of the leading decimal digit of a magnitude that is not zero. -/
def leadingExponent (m : Magnitude) : Int :=
  ((Numeral.digits (m.units * Nat.pow 10 gridShift / unitsPerOne)).length : Int) - 1 - gridShift

/-- The decimal with `count` digits that lies in the rounding interval and is nearest to the
magnitude, if there is one; of two equally near the even one. -/
def withDigits? (m : Magnitude) (leading : Int) (count : Nat) : Option Decimal :=
  let exponent := leading - count + 1
  let grid := Nat.pow 10 (exponent + gridShift).toNat * unitsPerOne
  let value := m.units * Nat.pow 10 gridShift
  let floor := value / grid
  let near := roundHalfEven value grid
  let far := if near = floor then floor + 1 else floor
  if roundsTo m grid near then some ⟨near, exponent⟩
  else if roundsTo m grid far then some ⟨far, exponent⟩
  else none

/-- The shortest decimal that rounds to a magnitude that is not zero. -/
def shortest (m : Magnitude) : Decimal :=
  let leading := leadingExponent m
  match (List.range' 1 17).findSome? (withDigits? m leading) with
  | some d => d
  | none => ⟨m.units, 0⟩

/-! ## Setting out the digits -/

/-- How a double is written. -/
structure Layout where
  /-- The least decimal exponent that is written with a point only. -/
  leastPositional : Int
  /-- The greatest decimal exponent that is written with a point only. -/
  greatestPositional : Int
  /-- How many digits the exponent has at least. -/
  exponentWidth : Nat
  deriving DecidableEq, Repr

/-- Numbers from `0.0001` up to sixteen places before the point are written with a point and at least
one place after it; all others with an exponent of a sign and at least two digits. -/
def layout : Layout :=
  ⟨-4, 15, 2⟩

/-- The digits of a decimal without trailing zeros, and the exponent of the first one. -/
def Decimal.scientific (d : Decimal) : List Char × Int :=
  let all := Numeral.digits d.significand
  let kept := (all.reverse.dropWhile (· == '0')).reverse
  (kept, d.exponent + all.length - 1)

/-- Digits with a decimal point, given the exponent of the first digit. -/
def positional (digits : List Char) (exponent : Int) : List Char :=
  if exponent < 0 then
    '0' :: '.' :: List.replicate (-exponent - 1).toNat '0' ++ digits
  else
    let places := exponent.toNat + 1
    let whole := digits.take places
    let fraction := digits.drop places
    whole ++ List.replicate (places - whole.length) '0' ++
      '.' :: (if fraction.isEmpty then ['0'] else fraction)

/-- Digits in scientific form: one digit before the point, no point if there is no second digit, and
the exponent with its sign. -/
def exponential (width : Nat) (digits : List Char) (exponent : Int) : List Char :=
  let power := Numeral.digits exponent.natAbs
  digits.take 1 ++ (if digits.length ≤ 1 then [] else '.' :: digits.drop 1) ++
    'e' :: (if exponent < 0 then '-' else '+') ::
      (List.replicate (width - power.length) '0' ++ power)

/-- A decimal set out by a layout. -/
def Layout.write (l : Layout) (d : Decimal) : List Char :=
  let (digits, exponent) := d.scientific
  if l.leastPositional ≤ exponent ∧ exponent ≤ l.greatestPositional then
    positional digits exponent
  else
    exponential l.exponentWidth digits exponent

/-- The text of a magnitude. -/
def magnitudeText (m : Magnitude) : List Char :=
  if m.units = 0 then "0.0".toList else layout.write (shortest m)

/-- The text of a double: the shortest decimal that reads back, or `nan`, `inf` or `-inf`. -/
def text (x : Float) : String :=
  if x.isNaN then "nan"
  else
    let magnitude := if x.isInf then "inf".toList else magnitudeText (magnitude x)
    String.ofList (if isNegative x then '-' :: magnitude else magnitude)

end InfixCalculator.Binary64
