import InfixCalculator.Number.Arithmetic

/-!
# Operators

The five binary operators with their symbols, precedences and associativities. `pops` is the rule by
which an operator that waits for its right operand gives way to the next one, and `apply` the
operation itself.
-/

namespace InfixCalculator

/-- On which side operators of equal precedence group. -/
inductive Associativity where
  | left
  | right
  deriving DecidableEq, Repr

/-- The binary operators. -/
inductive Operator where
  | add
  | sub
  | mul
  | div
  | pow
  deriving DecidableEq, Repr

namespace Operator

/-- The character that denotes an operator. -/
def symbol : Operator → Char
  | add => '+'
  | sub => '-'
  | mul => '*'
  | div => '/'
  | pow => '^'

/-- The operator that a character denotes. -/
def ofSymbol? : Char → Option Operator
  | '+' => some add
  | '-' => some sub
  | '*' => some mul
  | '/' => some div
  | '^' => some pow
  | _ => none

@[simp] theorem ofSymbol?_symbol (op : Operator) : ofSymbol? op.symbol = some op := by
  cases op <;> rfl

/-- How tightly an operator binds. -/
def precedence : Operator → Nat
  | add => 2
  | sub => 2
  | mul => 3
  | div => 3
  | pow => 4

/-- Powers group to the right, all else to the left. -/
def associativity : Operator → Associativity
  | pow => .right
  | _ => .left

/-- How many operands an operator takes. -/
def arity : Operator → Nat
  | _ => 2

/-- Whether the operator `top`, met earlier, takes its right operand before `incoming` does. A
left-associative operator lets its equals go first. -/
def pops (incoming top : Operator) : Bool :=
  match incoming.associativity with
  | .left => incoming.precedence ≤ top.precedence
  | .right => incoming.precedence < top.precedence

/-- A power lets nothing go first. -/
@[simp] theorem pops_pow (top : Operator) : pops pow top = false := by
  cases top <;> rfl

/-- The operation that an operator stands for. -/
def apply : Operator → Number → Number → Except Fault Number
  | add => Number.add
  | sub => Number.sub
  | mul => Number.mul
  | div => Number.div
  | pow => Number.pow

end Operator

end InfixCalculator
