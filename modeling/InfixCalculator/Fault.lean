/-!
# Arithmetic faults

What can go wrong when an operation is applied to two numbers, with no regard to where the numbers
came from.
-/

namespace InfixCalculator

/-- Why an operation on two numbers has no number as its result. -/
inductive Fault where
  /-- The divisor is zero, or zero is raised to a negative power. -/
  | divisionByZero
  /-- The result, or an operand on its way to a double, exceeds every double. -/
  | overflow
  /-- A negative number raised to a fraction: the result is not on the real line. -/
  | notReal
  deriving DecidableEq, Repr

end InfixCalculator
