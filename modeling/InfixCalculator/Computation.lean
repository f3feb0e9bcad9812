import InfixCalculator.Rpn.Conversion
import InfixCalculator.Rpn.Evaluation
import InfixCalculator.Token.Segmentation

/-!
# Computing an expression

An expression is split into tokens, brought into postfix order and evaluated; the first error ends
the work. `progress` tells the outcome together with the milestones that were passed, `calculate` is
the outcome alone. A `Computation` is the record of an expression with its value or its error, in
which the error always knows the expression.
-/

namespace InfixCalculator

/-- What has been done on the way to a value. -/
inductive Milestone where
  /-- The expression has been split into tokens. -/
  | tokenized
  /-- The tokens have been brought into postfix order. -/
  | converted
  /-- The postfix sequence has been evaluated. -/
  | evaluated
  deriving DecidableEq, Repr

/-- How far the work on an expression went, and how it ended. -/
structure Progress where
  /-- The milestones passed, in their order. -/
  milestones : List Milestone
  /-- The value, or the failure that ended the work. -/
  outcome : Except Failure Number

/-- The work on an expression. -/
def progress (limits : Limits) (expression : String) : Progress :=
  if Token.isBlank expression then
    ⟨[], .error (.overall .emptyExpression (some expression))⟩
  else
    match Token.tokenize limits expression with
    | .error failure => ⟨[], .error failure⟩
    | .ok tokens =>
      match Rpn.ofInfix limits (some expression) tokens with
      | .error failure => ⟨[.tokenized], .error failure⟩
      | .ok rpn =>
        match Rpn.evaluate limits (some expression) rpn with
        | .error failure => ⟨[.tokenized, .converted], .error failure⟩
        | .ok value => ⟨[.tokenized, .converted, .evaluated], .ok value⟩

/-- The value of an expression. -/
def calculate (limits : Limits) (expression : String) : Except Failure Number :=
  (progress limits expression).outcome

/-- The tokens of an expression in postfix order. -/
def rpn (limits : Limits) (expression : String) : Except Failure (List Token) :=
  match Token.tokenize limits expression with
  | .error failure => .error failure
  | .ok tokens => Rpn.ofInfix limits (some expression) tokens

/-- The text of an expression in postfix order. -/
def rpnText (limits : Limits) (expression : String) : Except Failure String :=
  if Token.isBlank expression then .error (.overall .emptyExpression (some expression))
  else (rpn limits expression).map Rpn.text

/-- An expression with its value or its error. -/
structure Computation where
  /-- The expression as it was submitted. -/
  expression : String
  /-- The value, or the error that was met first. -/
  outcome : Except ExpressionError Number

namespace Computation

/-- Whether there is a value. -/
def succeeded (c : Computation) : Bool :=
  c.outcome.isOk

/-- The kind of the error, if there is one. -/
def errorKind? (c : Computation) : Option Kind :=
  match c.outcome with
  | .error e => some e.kind
  | .ok _ => none

end Computation

/-- Computes an expression. There is no computation if the error cannot be worded. -/
def compute (limits : Limits) (expression : String) : Except Numeral.Unwritable Computation :=
  match calculate limits expression with
  | .ok value => .ok ⟨expression, .ok value⟩
  | .error (.error e) => .ok ⟨expression, .error (e.within expression)⟩
  | .error .unwritable => .error .tooManyDigits

/-- A computation is that of the expression that was submitted. -/
theorem expression_of_compute {limits : Limits} {expression : String} {c : Computation}
    (h : compute limits expression = .ok c) : c.expression = expression := by
  unfold compute at h
  split at h <;> cases h <;> rfl

end InfixCalculator
