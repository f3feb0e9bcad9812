import InfixCalculator.Binary64.Nearest
import InfixCalculator.Fault

/-!
# Powers of doubles

The power of two doubles is that of the standard library of the machine wherever the result is a
real number of ordinary operands. The exceptional operands are settled here, in an order in which
each case may rely on those before it: the exponent zero, an operand that is not a number, an
infinite exponent, an infinite base, the base zero, a negative base.
-/

namespace InfixCalculator.Binary64

/-- A power with infinite exponent: `1` for the bases of magnitude one, else infinite or zero. -/
def infinitePower (base exponent : Float) : Float :=
  if base.abs == 1 then 1
  else if decide (0 < exponent) == decide (1 < base.abs) then exponent.abs
  else 0

/-- A power of an infinite base with finite exponent: it keeps the sign of the base if the exponent
is odd. -/
def powerOfInfinity (base exponent : Float) : Float :=
  let magnitude := if 0 < exponent then base.abs else 0
  if isOddInteger exponent && isNegative base then -magnitude else magnitude

/-- The power of ordinary operands with a base that is not zero. -/
def ordinaryPower (base exponent : Float) : Except Fault Float :=
  let magnitude := if base.abs == 1 then 1 else Float.pow base.abs exponent
  if magnitude.isInf then .error .overflow
  else if base < 0 && !isInteger exponent then .error .notReal
  else .ok (if base < 0 && isOddInteger exponent then -magnitude else magnitude)

/-- The power of two doubles. -/
def power (base exponent : Float) : Except Fault Float :=
  if exponent == 0 then .ok 1
  else if base.isNaN then .ok base
  else if exponent.isNaN then .ok (if base == 1 then 1 else exponent)
  else if exponent.isInf then .ok (infinitePower base exponent)
  else if base.isInf then .ok (powerOfInfinity base exponent)
  else if base == 0 then
    if exponent < 0 then .error .divisionByZero
    else .ok (if isOddInteger exponent then base else 0)
  else ordinaryPower base exponent

end InfixCalculator.Binary64
