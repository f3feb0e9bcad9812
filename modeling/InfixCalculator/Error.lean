import InfixCalculator.Number.Display
import InfixCalculator.Text.Quoted

/-!
# Errors of expressions

An error has a cause, a position in the expression, if one character is to blame, and the expression
itself, if it is known. The wording of every cause is in one place (`Cause.message`), and the
`context` of an error is its message with the expression below and a caret under the position.

Wording a cause may itself fail: a message does not hold integers of more than
`Numeral.maxDigits` digits. A `Failure` is either an error or this inability to word one.
-/

namespace InfixCalculator

/-- The part of the work in which an error arises. -/
inductive Stage where
  /-- Splitting a text into tokens. -/
  | segmentation
  /-- Bringing tokens into postfix order. -/
  | ordering
  /-- Computing the value of a postfix sequence. -/
  | evaluation
  deriving DecidableEq, Repr

/-- How a postfix sequence fails to be an expression, or an operation to have a result. -/
inductive Defect where
  /-- A parenthesis in a postfix sequence. -/
  | unexpectedToken (text : String)
  /-- An operator that finds fewer than two operands. -/
  | missingOperand (operator : String)
  /-- A power off the real line. -/
  | noRealResult (base exponent : Number)
  /-- Nothing was computed. -/
  | noValue
  /-- More than one value remains. -/
  | leftOver (count : Nat)
  /-- A tree cannot take up this token. -/
  | noTreeAt (text : String)
  /-- The sequence is not the listing of one tree. -/
  | notOneTree
  /-- A defect in somebody else's words. -/
  | described (message : String)
  deriving DecidableEq

/-- The wording of a defect. -/
def Defect.message : Defect → String
  | unexpectedToken text => "Unexpected token in postfix input: '" ++ text ++ "'"
  | missingOperand operator => "Missing operand for '" ++ operator ++ "'"
  | noRealResult base exponent => "No real result for " ++ base.text ++ " ^ " ++ exponent.text
  | noValue => "Expression produced no value"
  | leftOver count => "Missing operator: " ++ Numeral.text count ++ " values left after evaluation"
  | noTreeAt text => "Cannot build tree at '" ++ text ++ "'"
  | notOneTree => "Postfix sequence does not form a single expression"
  | described message => message

/-- What is wrong with an expression. -/
inductive Cause where
  /-- Nothing but separators. -/
  | emptyExpression
  /-- A character that can be part of no token. -/
  | invalidCharacter (text : String)
  /-- A closing parenthesis that closes nothing. -/
  | unmatchedClose
  /-- An opening parenthesis that is never closed. -/
  | unmatchedOpen
  /-- A literal that is no number. -/
  | invalidLiteral (text : String)
  /-- A division by zero, or a negative power of zero. -/
  | divisionByZero
  /-- Operands and operators that do not fit together. -/
  | malformed (defect : Defect)
  /-- An operation whose result exceeds the doubles. -/
  | numericOverflow (operator : String)
  /-- A quantity above its limit. -/
  | limitExceeded (limit : String) (bound actual : Int)
  /-- An error in somebody else's words, from some stage or none. -/
  | described (stage : Option Stage) (message : String)
  deriving DecidableEq

namespace Cause

/-- The wording of a cause. -/
def message : Cause → String
  | emptyExpression => "Empty expression"
  | invalidCharacter text => "Unexpected character: " ++ Text.quoted text
  | unmatchedClose => "Unmatched ')': missing '('"
  | unmatchedOpen => "Unmatched '(': missing ')'"
  | invalidLiteral text => "Invalid number: '" ++ text ++ "'"
  | divisionByZero => "Division by zero"
  | malformed defect => defect.message
  | numericOverflow operator => "Numeric overflow evaluating '" ++ operator ++ "'"
  | limitExceeded limit bound actual =>
    "Limit exceeded: " ++ limit ++ " (limit: " ++ Numeral.text bound ++ ", actual: " ++
      Numeral.text actual ++ ")"
  | described _ message => message

/-- The stage that a cause belongs to; empty expressions and limits belong to none. -/
def stage? : Cause → Option Stage
  | emptyExpression => none
  | invalidCharacter _ => some .segmentation
  | unmatchedClose => some .ordering
  | unmatchedOpen => some .ordering
  | invalidLiteral _ => some .evaluation
  | divisionByZero => some .evaluation
  | malformed _ => some .evaluation
  | numericOverflow _ => some .evaluation
  | limitExceeded _ _ _ => none
  | described stage _ => stage

end Cause

/-- The kinds of errors that callers tell apart. -/
inductive Kind where
  | emptyExpression
  | invalidCharacter
  | unmatchedCloseParen
  | unmatchedOpenParen
  | invalidLiteral
  | divisionByZero
  | malformedExpression
  | numericOverflow
  | limitExceeded
  deriving DecidableEq, Repr

/-- The tag of a kind. -/
def Kind.tag : Kind → String
  | emptyExpression => "EmptyExpression"
  | invalidCharacter => "InvalidCharacter"
  | unmatchedCloseParen => "UnmatchedCloseParen"
  | unmatchedOpenParen => "UnmatchedOpenParen"
  | invalidLiteral => "InvalidLiteral"
  | divisionByZero => "DivisionByZero"
  | malformedExpression => "MalformedExpression"
  | numericOverflow => "NumericOverflow"
  | limitExceeded => "LimitExceeded"

/-- The kind of a cause. An error in somebody else's words counts as a malformed expression. -/
def Cause.kind : Cause → Kind
  | emptyExpression => .emptyExpression
  | invalidCharacter _ => .invalidCharacter
  | unmatchedClose => .unmatchedCloseParen
  | unmatchedOpen => .unmatchedOpenParen
  | invalidLiteral _ => .invalidLiteral
  | divisionByZero => .divisionByZero
  | malformed _ => .malformedExpression
  | numericOverflow _ => .numericOverflow
  | limitExceeded _ _ _ => .limitExceeded
  | described _ _ => .malformedExpression

/-! ## Errors in their context -/

/-- An error found in an expression. -/
structure ExpressionError where
  /-- What is wrong. -/
  cause : Cause
  /-- The index of the character to blame, counted from zero. -/
  position : Option Int
  /-- The expression in which the error was found. -/
  expression : Option String
  deriving DecidableEq

namespace ExpressionError

/-- The message of an error. -/
def message (e : ExpressionError) : String :=
  e.cause.message

/-- The kind of an error. -/
def kind (e : ExpressionError) : Kind :=
  e.cause.kind

/-- The message; below it, if both are known, the expression and a caret under the position. -/
def context (e : ExpressionError) : String :=
  match e.expression, e.position with
  | some text, some position =>
    e.message ++ "\n  " ++ text ++ "\n  " ++
      String.ofList (List.replicate position.toNat ' ') ++ "^"
  | _, _ => e.message

/-- The error with the expression filled in, unless it is known already. -/
def within (e : ExpressionError) (expression : String) : ExpressionError :=
  { e with expression := e.expression.or (some expression) }

@[simp] theorem within_cause (e : ExpressionError) (s : String) : (e.within s).cause = e.cause := rfl

/-- Afterwards the expression is known. -/
theorem within_expression (e : ExpressionError) (s : String) :
    (e.within s).expression = some (e.expression.getD s) := by
  cases h : e.expression <;> simp [within, h]

end ExpressionError

/-- Why there is no answer. -/
inductive Failure where
  /-- The expression is wrong. -/
  | error (e : ExpressionError)
  /-- The expression is wrong, but the message would hold an integer of too many digits. -/
  | unwritable
  deriving DecidableEq

namespace Failure

/-- An error at a position, in an expression that may be unknown. -/
def atPosition (cause : Cause) (position : Int) (source : Option String) : Failure :=
  .error ⟨cause, some position, source⟩

/-- An error for which no single character is to blame. -/
def overall (cause : Cause) (source : Option String) : Failure :=
  .error ⟨cause, none, source⟩

/-- A quantity that exceeds its bound, with no position and no expression. -/
def beyond (limit : String) (bound actual : Int) : Failure :=
  if Numeral.isWritable bound && Numeral.isWritable actual then
    overall (.limitExceeded limit bound actual) none
  else .unwritable

end Failure

end InfixCalculator
