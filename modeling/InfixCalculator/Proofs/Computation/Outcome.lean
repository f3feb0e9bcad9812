import InfixCalculator.Proofs.Computation.Relocation

/-!
# Outcomes without positions

An error tells what is wrong, where, and in which expression.  Tokens that differ in their positions
only are evaluated alike but for the last two, whatever the expressions are to which they belong
(`evaluate_congr`).  So evaluating them has the same outcome as computing an expression, if the
computation comes down to evaluating them at other positions (`sameOutcome_of_forget`).
-/

namespace InfixCalculator

/-- The error without the expression, at a position that tells nothing. -/
def ExpressionError.forget (e : ExpressionError) : ExpressionError where
  cause := e.cause
  position := e.position.map fun _ => 0
  expression := none

@[simp] lemma ExpressionError.forget_cause (e : ExpressionError) : e.forget.cause = e.cause := rfl

/-- The failure without its expression and its position. -/
def Failure.forget : Failure → Failure
  | error e => error e.forget
  | unwritable => unwritable

/-- A computation and an outcome have the same value, or they have errors of one kind with one message,
or the errors of neither can be worded. -/
inductive SameOutcome : Except Numeral.Unwritable Computation → Except Failure Number → Prop
  /-- Both have the value. -/
  | value (expression : String) (value : Number) :
      SameOutcome (.ok ⟨expression, .ok value⟩) (.ok value)
  /-- Both have an error. -/
  | error (expression : String) {e e' : ExpressionError} (hkind : e.kind = e'.kind)
      (hmessage : e.message = e'.message) :
      SameOutcome (.ok ⟨expression, .error e⟩) (.error (.error e'))
  /-- Neither error can be worded. -/
  | unwritable : SameOutcome (.error .tooManyDigits) (.error .unwritable)

variable {limits : Limits} {expression : String} {outcome : Except Failure Number}

/-- A limit that is exceeded has neither a position nor an expression. -/
lemma Limits.Exceeded.forget_eq {failure : Failure} (h : limits.Exceeded failure) :
    failure.forget = failure := by
  obtain ⟨limit, actual, -, hf⟩ := h
  rw [hf, Failure.beyond]
  split <;> rfl

/-- Without positions and expressions, the errors of all expressions are alike. -/
lemma Failure.moves_forget (limits : Limits) (source : Option String) :
    Failure.Moves limits source none (fun _ => 0) Failure.forget where
  placed _ _ := rfl
  overall _ := rfl
  exceeded _ h := h.forget_eq

/-- Tokens that differ in their positions only are evaluated alike. -/
lemma Rpn.evaluate_congr {tokens tokens' : List Token}
    (h : tokens.map (Token.relocate fun _ => 0) = tokens'.map (Token.relocate fun _ => 0))
    (source source' : Option String) :
    (evaluate limits source tokens).mapError Failure.forget =
      (evaluate limits source' tokens').mapError Failure.forget := by
  rw [← evaluate_relocate (Failure.moves_forget limits source), h,
    evaluate_relocate (Failure.moves_forget limits source')]

/-- The last stage has the answer, if the stages before it have been passed. -/
lemma calculate_eq_evaluate {tokens postfixed : List Token}
    (hblank : Token.isBlank expression = false)
    (htokens : Token.tokenize limits expression = .ok tokens)
    (hpostfixed : Rpn.ofInfix limits (some expression) tokens = .ok postfixed) :
    calculate limits expression = Rpn.evaluate limits (some expression) postfixed := by
  rw [calculate, progress, hblank, if_neg Bool.false_ne_true, htokens]
  simp only [hpostfixed]
  cases Rpn.evaluate limits (some expression) postfixed <;> rfl

/-- A computation whose failure is that of the outcome, but for its position and its expression, has
this outcome. -/
lemma sameOutcome_of_forget
    (h : (calculate limits expression).mapError Failure.forget =
      outcome.mapError Failure.forget) :
    SameOutcome (compute limits expression) outcome := by
  unfold compute
  cases hcalculate : calculate limits expression with
  | ok value =>
    rw [hcalculate] at h
    cases outcome with
    | ok value' =>
      obtain rfl : value = value' := Except.ok.inj h
      exact .value expression value
    | error failure' => exact absurd h (by simp)
  | error failure =>
    rw [hcalculate] at h
    cases outcome with
    | ok value' => exact absurd h (by simp)
    | error failure' =>
      have hforget : failure.forget = failure'.forget := Except.error.inj h
      match failure, failure', hforget with
      | .error e, .error e', hforget =>
        have hsame : e.forget = e'.forget := Failure.error.inj hforget
        have hcause : e.cause = e'.cause := by
          rw [← e.forget_cause, hsame, e'.forget_cause]
        exact .error expression (congrArg Cause.kind hcause) (congrArg Cause.message hcause)
      | .unwritable, .unwritable, _ => exact .unwritable

end InfixCalculator
