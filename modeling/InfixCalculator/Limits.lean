import InfixCalculator.Error

/-!
# Limits

Five quantities are bounded while an expression is worked on. A bound may be any integer; a quantity
is rejected when it is greater than its bound, so a negative bound rejects everything.
-/

namespace InfixCalculator

/-- The quantities that are bounded. -/
inductive Limit where
  /-- The length of the expression in characters. -/
  | expressionLength
  /-- The number of tokens. -/
  | tokenCount
  /-- The number of parentheses that are open at a time. -/
  | nestingDepth
  /-- The absolute value of an integer exponent. -/
  | exponent
  /-- The bit length of an integer. -/
  | integerBits
  deriving DecidableEq, Repr

/-- The name of a limit in messages and settings. -/
def Limit.name : Limit → String
  | expressionLength => "max_expression_length"
  | tokenCount => "max_token_count"
  | nestingDepth => "max_nesting_depth"
  | exponent => "max_exponent"
  | integerBits => "max_integer_bits"

/-- A bound for each quantity. -/
structure Limits where
  /-- The greatest length of an expression. -/
  expressionLength : Int := 4096
  /-- The greatest number of tokens. -/
  tokenCount : Int := 1024
  /-- The deepest nesting of parentheses. -/
  nestingDepth : Int := 64
  /-- The greatest absolute value of an integer exponent. -/
  exponent : Int := 10000
  /-- The greatest bit length of an integer operand or result. -/
  integerBits : Int := 8192
  deriving DecidableEq, Repr

namespace Limits

/-- The bound for a quantity. -/
def bound (limits : Limits) : Limit → Int
  | .expressionLength => limits.expressionLength
  | .tokenCount => limits.tokenCount
  | .nestingDepth => limits.nestingDepth
  | .exponent => limits.exponent
  | .integerBits => limits.integerBits

/-- Rejects a quantity above its bound. -/
def check (limits : Limits) (limit : Limit) (actual : Int) : Except Failure Unit :=
  if limits.bound limit < actual then
    .error (.beyond limit.name (limits.bound limit) actual)
  else .ok ()

theorem check_of_le {limits : Limits} {limit : Limit} {actual : Int}
    (h : actual ≤ limits.bound limit) : limits.check limit actual = .ok () := by
  rw [check, if_neg (by omega)]

theorem check_of_lt {limits : Limits} {limit : Limit} {actual : Int}
    (h : limits.bound limit < actual) :
    limits.check limit actual = .error (.beyond limit.name (limits.bound limit) actual) := by
  rw [check, if_pos h]

/-- A quantity passes exactly when it is within its bound. -/
theorem check_eq_ok_iff {limits : Limits} {limit : Limit} {actual : Int} :
    limits.check limit actual = .ok () ↔ actual ≤ limits.bound limit := by
  constructor
  · intro h
    by_cases hlt : limits.bound limit < actual
    · rw [check_of_lt hlt] at h
      exact absurd h (by simp)
    · omega
  · exact check_of_le

/-- The check of an expression's length. -/
def checkLength (limits : Limits) (expression : String) : Except Failure Unit :=
  limits.check .expressionLength expression.length

/-- The check of an exponent, whatever its sign. -/
def checkExponent (limits : Limits) (exponent : Int) : Except Failure Unit :=
  limits.check .exponent exponent.natAbs

/-- The check of an integer's size. -/
def checkInteger (limits : Limits) (n : Int) : Except Failure Unit :=
  limits.check .integerBits (Number.bitLength n)

end Limits

end InfixCalculator
