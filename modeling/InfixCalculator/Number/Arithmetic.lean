import InfixCalculator.Binary64.Power
import InfixCalculator.Number.Basic

/-!
# Arithmetic on numbers

The five operations on two numbers. Sums, differences and products of integers are exact; so is a
quotient of integers that leaves no remainder, and a power with an exponent that is not negative. All
else is computed in doubles: a quotient of integers is rounded once, from the exact value, and in
every other case both operands are made doubles first, the left one before the right one.

Infinite doubles and those that are not a number are ordinary operands and results here; whoever does
not want them has to look at the result.
-/

namespace InfixCalculator.Number

/-- An operation on doubles applied to two numbers. -/
def inDoubles (op : Float → Float → Except Fault Float) (left right : Number) :
    Except Fault Number :=
  match left.toFloat with
  | .error fault => .error fault
  | .ok x =>
    match right.toFloat with
    | .error fault => .error fault
    | .ok y => (op x y).map .float

/-- The sum of two numbers. -/
def add : Number → Number → Except Fault Number
  | int a, int b => .ok (int (a + b))
  | left, right => inDoubles (fun x y => .ok (x + y)) left right

/-- The difference of two numbers. -/
def sub : Number → Number → Except Fault Number
  | int a, int b => .ok (int (a - b))
  | left, right => inDoubles (fun x y => .ok (x - y)) left right

/-- The product of two numbers. -/
def mul : Number → Number → Except Fault Number
  | int a, int b => .ok (int (a * b))
  | left, right => inDoubles (fun x y => .ok (x * y)) left right

/-- The quotient of two integers: an integer if it leaves no remainder. -/
def intQuotient (a b : Int) : Except Fault Number :=
  if b = 0 then .error .divisionByZero
  else if a % b = 0 then .ok (int (a / b))
  else
    match Binary64.ofQuotient? a b with
    | some x => .ok (float x)
    | none => .error .overflow

/-- The quotient of two numbers. -/
def div : Number → Number → Except Fault Number
  | int a, int b => intQuotient a b
  | left, right =>
    inDoubles (fun x y => if y == 0 then .error .divisionByZero else .ok (x / y)) left right

/-- The power of an integer. The powers of `0`, `1` and `-1` are known without computing, however
great the exponent is. -/
def intPower (base : Int) (exponent : Nat) : Int :=
  if base = 0 then (if exponent = 0 then 1 else 0)
  else if base = 1 then 1
  else if base = -1 then (if exponent % 2 = 0 then 1 else -1)
  else if base < 0 ∧ exponent % 2 = 1 then -(Nat.pow base.natAbs exponent)
  else Nat.pow base.natAbs exponent

/-- The power of two numbers. -/
def pow : Number → Number → Except Fault Number
  | int a, int b =>
    if 0 ≤ b then .ok (int (intPower a b.toNat)) else inDoubles Binary64.power (int a) (int b)
  | left, right => inDoubles Binary64.power left right

end InfixCalculator.Number
