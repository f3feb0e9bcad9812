/-!
# Doubles as whole numbers of units

Every finite double is a whole number of *units* of `2 ^ -1074`, up to sign. `units` gives that
number, and `nearest?` goes the other way: it takes the exact quotient of two natural numbers to the
nearest double, a tie to the even neighbour. Without its sign the bit pattern of a double is an
increasing function of its value, so the pattern of the nearest double is computed directly
(`nearestBits`), and a quotient that rounds beyond the largest double shows as a pattern at or above
that of infinity.
-/

namespace InfixCalculator.Binary64

/-- How many units make one. -/
def unitsPerOne : Nat := Nat.pow 2 1074

/-- The bit that carries the sign. -/
def signBit : Nat := Nat.pow 2 63

/-- The weight of the least bit of the exponent field; also the least significand of full length. -/
def fieldUnit : Nat := Nat.pow 2 52

/-- The bit pattern of positive infinity; the patterns below it are those of the finite doubles
without sign. -/
def infinityBits : Nat := 2047 * fieldUnit

/-! ## Taking a double apart -/

/-- The bit pattern of a double without its sign. -/
def magnitudeBits (x : Float) : Nat :=
  x.toBits.toNat % signBit

/-- Whether the sign of a double is negative; also for the negative zero. -/
def isNegative (x : Float) : Bool :=
  signBit ≤ x.toBits.toNat

/-- The magnitude of a finite double: `significand * 2 ^ exponent` units. -/
structure Magnitude where
  significand : Nat
  exponent : Nat
  deriving DecidableEq, Repr

/-- The magnitude with the given bit pattern. Patterns below `fieldUnit` are the subnormal numbers,
whose significand is the pattern itself. -/
def Magnitude.ofBits (bits : Nat) : Magnitude :=
  if bits < fieldUnit then ⟨bits, 0⟩ else ⟨fieldUnit + bits % fieldUnit, bits / fieldUnit - 1⟩

/-- The number of units. -/
def Magnitude.units (m : Magnitude) : Nat :=
  m.significand * Nat.pow 2 m.exponent

/-- The magnitude of a finite double. -/
def magnitude (x : Float) : Magnitude :=
  .ofBits (magnitudeBits x)

/-- The absolute value of a finite double in units. -/
def units (x : Float) : Nat :=
  (magnitude x).units

/-- Whether a double is a whole number. -/
def isInteger (x : Float) : Bool :=
  x.isFinite && units x % unitsPerOne == 0

/-- Whether a double is an odd whole number. -/
def isOddInteger (x : Float) : Bool :=
  isInteger x && units x / unitsPerOne % 2 == 1

/-- The integer part of a finite double. -/
def toInt (x : Float) : Int :=
  if isNegative x then -(units x / unitsPerOne : Nat) else (units x / unitsPerOne : Nat)

/-! ## Rounding a quotient -/

/-- The whole number nearest to a quotient, the even one of two equally near. -/
def roundHalfEven (num den : Nat) : Nat :=
  let floor := num / den
  let twice := 2 * (num % den)
  if twice < den ∨ twice = den ∧ floor % 2 = 0 then floor else floor + 1

/-- The bit pattern of the double nearest to `num / den`. The quotient in units is cut to a
significand of at most 53 bits; a significand that rounds up to 54 bits carries into the exponent
field, as it should. -/
def nearestBits (num den : Nat) : Nat :=
  let scaled := num * unitsPerOne
  let exponent := (scaled / den).log2 - 52
  roundHalfEven scaled (den * Nat.pow 2 exponent) + exponent * fieldUnit

/-- The double nearest to `num / den`, or nothing if that exceeds the largest double. -/
def nearest? (num den : Nat) : Option Float :=
  let bits := nearestBits num den
  if bits < infinityBits then some (Float.ofBits bits.toUInt64) else none

/-- The double nearest to an integer. -/
def ofInt? (n : Int) : Option Float :=
  (nearest? n.natAbs 1).map fun x => if n < 0 then -x else x

/-- The double nearest to the quotient of two integers, the second of which is not zero. -/
def ofQuotient? (a b : Int) : Option Float :=
  (nearest? a.natAbs b.natAbs).map fun x => if (a < 0) == (b < 0) then x else -x

end InfixCalculator.Binary64
