import InfixCalculator.Limits
import InfixCalculator.Number.Literal
import InfixCalculator.Token.Basic

/-!
# The value of a postfix sequence

A postfix sequence is evaluated on a stack of numbers: a literal is pushed, an operator replaces the
two numbers on top by its result. The first error ends the evaluation.

Before and after every operation `combine` sees to it that the result is an integer of bounded size
or a finite double. A power of integers is looked at before it is computed: its exponent is bounded,
and so is a lower estimate of its size, which keeps the true size below twice the bound.
-/

namespace InfixCalculator

namespace Rpn

/-- The number of a literal. -/
def literalValue (limits : Limits) (source : Option String) (token : Token) :
    Except Failure Number :=
  match Number.literal? token.text.toList with
  | none => .error (.atPosition (.invalidLiteral token.text) token.position source)
  | some (.float x) => .ok (.float x)
  | some (.int n) =>
    match limits.checkInteger n with
    | .error failure => .error failure
    | .ok () => .ok (.int n)

/-- A lower estimate of the bit length of a power with positive exponent: a base of `k` bits is at
least `2 ^ (k - 1)`. -/
def powerBits (base exponent : Int) : Int :=
  exponent * (Number.bitLength base - 1) + 1

/-- The check of a power of integers before it is computed. The powers of `0`, `1` and `-1` are never
large. -/
def checkPower (limits : Limits) (base exponent : Int) : Except Failure Unit :=
  if base.natAbs ≤ 1 then .ok ()
  else
    match limits.checkExponent exponent with
    | .error failure => .error failure
    | .ok () =>
      if 0 < exponent then limits.check .integerBits (powerBits base exponent) else .ok ()

/-- The checks before an operation is carried out. -/
def admissible (limits : Limits) (source : Option String) (op : Operator) (position : Int)
    (left right : Number) : Except Failure Unit :=
  match op with
  | .div =>
    if right.isZero then .error (.atPosition .divisionByZero position source) else .ok ()
  | .pow =>
    if left.isZero && right.isNegative then .error (.atPosition .divisionByZero position source)
    else
      match left, right with
      | .int base, .int exponent => checkPower limits base exponent
      | _, _ => .ok ()
  | _ => .ok ()

/-- The error for a fault of an operation.  What is admitted does not divide by zero, so this fault does
not get here: `ne_divisionByZero_of_admissible` excludes it for every operation, and the evaluation in
which nobody catches it ends as this one does (`Raising.agrees_evaluate`). -/
def faultCause (op : Operator) (left right : Number) : Fault → Cause
  | .divisionByZero => .divisionByZero
  | .overflow => .numericOverflow (String.singleton op.symbol)
  | .notReal => .malformed (.noRealResult left right)

/-- The checks after an operation: a double must be finite, an integer not too large. -/
def checkResult (limits : Limits) (source : Option String) (op : Operator) (position : Int) :
    Number → Except Failure Number
  | .int n =>
    match limits.checkInteger n with
    | .error failure => .error failure
    | .ok () => .ok (.int n)
  | .float x =>
    if x.isFinite then .ok (.float x)
    else .error (.atPosition (.numericOverflow (String.singleton op.symbol)) position source)

/-- The result of an operator at a position, with all checks. -/
def combine (limits : Limits) (source : Option String) (op : Operator) (position : Int)
    (left right : Number) : Except Failure Number :=
  match admissible limits source op position left right with
  | .error failure => .error failure
  | .ok () =>
    match op.apply left right with
    | .error fault => .error (.atPosition (faultCause op left right fault) position source)
    | .ok result => checkResult limits source op position result

/-- Takes in one token. The stack has its top first. -/
def step (limits : Limits) (source : Option String) (stack : List Number) (token : Token) :
    Except Failure (List Number) :=
  match token.kind with
  | .literal =>
    match literalValue limits source token with
    | .error failure => .error failure
    | .ok value => .ok (value :: stack)
  | .operator op =>
    match stack with
    | right :: left :: rest =>
      match combine limits source op token.position left right with
      | .error failure => .error failure
      | .ok value => .ok (value :: rest)
    | _ => .error (.atPosition (.malformed (.missingOperand token.text)) token.position source)
  | _ => .error (.atPosition (.malformed (.unexpectedToken token.text)) token.position source)

/-- Takes in a list of tokens. -/
def run (limits : Limits) (source : Option String) :
    List Number → List Token → Except Failure (List Number)
  | stack, [] => .ok stack
  | stack, token :: rest =>
    match step limits source stack token with
    | .error failure => .error failure
    | .ok stack => run limits source stack rest

@[simp] theorem run_nil (limits : Limits) (source : Option String) (stack : List Number) :
    run limits source stack [] = .ok stack := rfl

/-- Taking in a concatenation is taking in its parts in turn. -/
theorem run_append (limits : Limits) (source : Option String) (stack : List Number)
    (s t : List Token) :
    run limits source stack (s ++ t) =
      match run limits source stack s with
      | .error failure => .error failure
      | .ok stack => run limits source stack t := by
  induction s generalizing stack with
  | nil => rfl
  | cons token s ih =>
    simp only [List.cons_append, run]
    cases step limits source stack token with
    | error failure => rfl
    | ok stack => exact ih stack

/-- The one number that is left at the end. -/
def result (source : Option String) : List Number → Except Failure Number
  | [] => .error (.overall (.malformed .noValue) source)
  | [value] => .ok value
  | stack => .error (.overall (.malformed (.leftOver stack.length)) source)

/-- The value of a postfix sequence. -/
def evaluate (limits : Limits) (source : Option String) (tokens : List Token) :
    Except Failure Number :=
  match run limits source [] tokens with
  | .error failure => .error failure
  | .ok stack => result source stack

end Rpn

end InfixCalculator
