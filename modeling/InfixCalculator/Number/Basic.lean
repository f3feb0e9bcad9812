import InfixCalculator.Binary64.Decimal
import InfixCalculator.Fault

/-!
# Numbers

A number is an integer of any size or a double. Integers stay integers as long as the operations on
them have integer results; a double makes every result it takes part in a double.
-/

namespace InfixCalculator

/-- An exact integer or a double. -/
inductive Number where
  | int (value : Int)
  | float (value : Float)
  deriving DecidableEq

namespace Number

/-- How many binary digits the absolute value of an integer has; none for zero. -/
def bitLength (n : Int) : Nat :=
  if n = 0 then 0 else n.natAbs.log2 + 1

@[simp] theorem bitLength_zero : bitLength 0 = 0 := rfl

@[simp] theorem bitLength_neg (n : Int) : bitLength (-n) = bitLength n := by
  simp [bitLength]

/-- Whether a number equals zero; both zeros of the doubles do. -/
def isZero : Number → Bool
  | int n => n == 0
  | float x => x == 0

/-- Whether a number is below zero. -/
def isNegative : Number → Bool
  | int n => n < 0
  | float x => x < 0

/-- Whether a number is an integer or a finite double. -/
def isFinite : Number → Bool
  | int _ => true
  | float x => x.isFinite

/-- The number as a double; an integer is rounded to the nearest one. -/
def toFloat : Number → Except Fault Float
  | int n => match Binary64.ofInt? n with
    | some x => .ok x
    | none => .error .overflow
  | float x => .ok x

end Number

end InfixCalculator
