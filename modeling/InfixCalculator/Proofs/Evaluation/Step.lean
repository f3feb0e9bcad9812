import InfixCalculator.Rpn.Evaluation
import Mathlib.Tactic.Lemma

/-!
# Steps of the evaluation

What one token does to the stack of numbers, by the kind of the token, and how reading a literal and
applying an operator can fail.  A limit that is exceeded is reported by `Limits.Exceeded` failures;
all other failures blame the token at hand (`literalValue_eq_error`, `combine_eq_error`).
-/

namespace InfixCalculator

/-- The failure reports a quantity above its bound. -/
def Limits.Exceeded (limits : Limits) (failure : Failure) : Prop :=
  ∃ (limit : Limit) (actual : Int), limits.bound limit < actual ∧
    failure = .beyond limit.name (limits.bound limit) actual

lemma Limits.check_eq_ok_or_exceeded (limits : Limits) (limit : Limit) (actual : Int) :
    limits.check limit actual = .ok () ∨
      ∃ failure, limits.check limit actual = .error failure ∧ limits.Exceeded failure := by
  by_cases hle : actual ≤ limits.bound limit
  · exact Or.inl (Limits.check_of_le hle)
  · have hlt : limits.bound limit < actual := by omega
    exact Or.inr ⟨_, Limits.check_of_lt hlt, limit, actual, hlt, rfl⟩

lemma Limits.check_eq_error {limits : Limits} {limit : Limit} {actual : Int} {failure : Failure}
    (h : limits.check limit actual = .error failure) : limits.Exceeded failure := by
  rcases limits.check_eq_ok_or_exceeded limit actual with hok | ⟨failure', herror, hex⟩
  · rw [hok] at h
    exact absurd h (by simp)
  · rw [herror] at h
    cases h
    exact hex

/-- The error for an exceeded limit is of a kind of its own. -/
lemma Limits.Exceeded.kind_eq {limits : Limits} {e : ExpressionError}
    (h : limits.Exceeded (.error e)) : e.kind = .limitExceeded := by
  obtain ⟨limit, actual, -, he⟩ := h
  unfold Failure.beyond at he
  split at he
  · cases he
    rfl
  · exact absurd he (by simp)

namespace Rpn

variable {limits : Limits} {source : Option String} {token : Token}

@[simp] lemma run_cons (stack : List Number) (token : Token) (rest : List Token) :
    run limits source stack (token :: rest) =
      match step limits source stack token with
      | .error failure => .error failure
      | .ok stack => run limits source stack rest := rfl

/-! ## One token -/

lemma step_literal (h : token.kind = .literal) (stack : List Number) :
    step limits source stack token =
      match literalValue limits source token with
      | .error failure => .error failure
      | .ok value => .ok (value :: stack) := by
  cases token
  cases h
  rfl

lemma step_operator {op : Operator} (h : token.kind = .operator op) (left right : Number)
    (rest : List Number) :
    step limits source (right :: left :: rest) token =
      match combine limits source op token.position left right with
      | .error failure => .error failure
      | .ok value => .ok (value :: rest) := by
  cases token
  cases h
  rfl

/-- An operator does not find two operands on a short stack. -/
lemma step_operator_of_short {op : Operator} (h : token.kind = .operator op) {stack : List Number}
    (hs : stack.length < 2) :
    step limits source stack token =
      .error (.atPosition (.malformed (.missingOperand token.text)) token.position source) := by
  match stack, hs with
  | [], _ => simp only [step, h]
  | [_], _ => simp only [step, h]

/-- A parenthesis has no place in a postfix sequence. -/
lemma step_parenthesis (h : token.kind = .openParen ∨ token.kind = .closeParen)
    (stack : List Number) :
    step limits source stack token =
      .error (.atPosition (.malformed (.unexpectedToken token.text)) token.position source) := by
  rcases h with h | h <;> simp only [step, h]

/-- What a step can do: push the value of a literal, or replace the two values on top by the result of
an operator. -/
lemma step_eq_ok {stack stack' : List Number} (h : step limits source stack token = .ok stack') :
    (token.kind = .literal ∧
      ∃ value, literalValue limits source token = .ok value ∧ stack' = value :: stack) ∨
    ∃ op left right rest value, token.kind = .operator op ∧ stack = right :: left :: rest ∧
      combine limits source op token.position left right = .ok value ∧ stack' = value :: rest := by
  cases hk : token.kind with
  | literal =>
    rw [step_literal hk] at h
    split at h
    · exact absurd h (by simp)
    · next value hvalue => exact .inl ⟨rfl, value, hvalue, (Except.ok.inj h).symm⟩
  | operator op =>
    match stack with
    | right :: left :: rest =>
      rw [step_operator hk] at h
      split at h
      · exact absurd h (by simp)
      · next value hvalue =>
          exact .inr ⟨op, left, right, rest, value, rfl, rfl, hvalue, (Except.ok.inj h).symm⟩
    | [] =>
      rw [step_operator_of_short hk (by simp)] at h
      exact absurd h (by simp)
    | [_] =>
      rw [step_operator_of_short hk (by simp)] at h
      exact absurd h (by simp)
  | openParen =>
    rw [step_parenthesis (.inl hk)] at h
    exact absurd h (by simp)
  | closeParen =>
    rw [step_parenthesis (.inr hk)] at h
    exact absurd h (by simp)

/-! ## Runs -/

lemma run_cons_eq_ok_iff {stack stack' : List Number} {rest : List Token} :
    run limits source stack (token :: rest) = .ok stack' ↔
      ∃ next, step limits source stack token = .ok next ∧
        run limits source next rest = .ok stack' := by
  rw [run_cons]
  cases step limits source stack token with
  | error failure => simp
  | ok next => simp

/-- A value is all that is left on the stack. -/
lemma run_of_evaluate {tokens : List Token} {value : Number}
    (h : evaluate limits source tokens = .ok value) :
    run limits source [] tokens = .ok [value] := by
  unfold evaluate at h
  split at h
  · exact absurd h (by simp)
  · next stack hrun =>
      match stack, h with
      | [_], h =>
        cases h
        exact hrun

/-! ## Values -/

lemma literalValue_eq_ok {value : Number} (h : literalValue limits source token = .ok value) :
    Number.literal? token.text.toList = some value := by
  unfold literalValue at h
  split at h
  · exact absurd h (by simp)
  · next hl =>
      cases h
      exact hl
  · next hl =>
      split at h
      · exact absurd h (by simp)
      · cases h
        exact hl

lemma checkResult_eq_ok {op : Operator} {position : Int} {result value : Number}
    (h : checkResult limits source op position result = .ok value) : value = result := by
  cases result with
  | int n =>
    simp only [checkResult] at h
    split at h
    · exact absurd h (by simp)
    · exact (Except.ok.inj h).symm
  | float x =>
    simp only [checkResult] at h
    split at h
    · exact (Except.ok.inj h).symm
    · exact absurd h (by simp)

/-- The value of an application is the result of the operation. -/
lemma combine_eq_ok {op : Operator} {position : Int} {left right value : Number}
    (h : combine limits source op position left right = .ok value) :
    op.apply left right = .ok value := by
  unfold combine at h
  split at h
  · exact absurd h (by simp)
  · split at h
    · exact absurd h (by simp)
    · next hop =>
        rw [checkResult_eq_ok h]
        exact hop

/-! ## Failures -/

lemma literalValue_eq_error {failure : Failure}
    (h : literalValue limits source token = .error failure) :
    failure = .atPosition (.invalidLiteral token.text) token.position source ∨
      limits.Exceeded failure := by
  unfold literalValue at h
  split at h
  · exact Or.inl (Except.error.inj h).symm
  · exact absurd h (by simp)
  · split at h
    · next hcheck =>
        cases h
        exact Or.inr (Limits.check_eq_error hcheck)
    · exact absurd h (by simp)

lemma checkPower_eq_error {base exponent : Int} {failure : Failure}
    (h : checkPower limits base exponent = .error failure) : limits.Exceeded failure := by
  unfold checkPower at h
  split at h
  · exact absurd h (by simp)
  · split at h
    · next hcheck =>
        cases h
        exact Limits.check_eq_error hcheck
    · split at h
      · exact Limits.check_eq_error h
      · exact absurd h (by simp)

lemma admissible_eq_error {op : Operator} {position : Int} {left right : Number}
    {failure : Failure} (h : admissible limits source op position left right = .error failure) :
    failure = .atPosition .divisionByZero position source ∨ limits.Exceeded failure := by
  unfold admissible at h
  split at h
  · split at h
    · exact Or.inl (Except.error.inj h).symm
    · exact absurd h (by simp)
  · split at h
    · exact Or.inl (Except.error.inj h).symm
    · split at h
      · exact Or.inr (checkPower_eq_error h)
      · exact absurd h (by simp)
  · exact absurd h (by simp)

lemma checkResult_eq_error {op : Operator} {position : Int} {result : Number} {failure : Failure}
    (h : checkResult limits source op position result = .error failure) :
    failure = .atPosition (.numericOverflow (String.singleton op.symbol)) position source ∨
      limits.Exceeded failure := by
  cases result with
  | int n =>
    simp only [checkResult] at h
    split at h
    · next hcheck =>
        cases h
        exact Or.inr (Limits.check_eq_error hcheck)
    · exact absurd h (by simp)
  | float x =>
    simp only [checkResult] at h
    split at h
    · exact absurd h (by simp)
    · exact Or.inl (Except.error.inj h).symm

/-- An operator fails by a limit or by a fault of the operation, which is blamed on it. -/
lemma combine_eq_error {op : Operator} {position : Int} {left right : Number} {failure : Failure}
    (h : combine limits source op position left right = .error failure) :
    (∃ fault, failure = .atPosition (faultCause op left right fault) position source) ∨
      limits.Exceeded failure := by
  unfold combine at h
  split at h
  · next hadm =>
      cases h
      exact (admissible_eq_error hadm).imp_left fun hf => ⟨.divisionByZero, hf⟩
  · split at h
    · next fault _ => exact Or.inl ⟨fault, (Except.error.inj h).symm⟩
    · exact (checkResult_eq_error h).imp_left fun hf => ⟨.overflow, hf⟩

/-- At the end nothing but the number of values can be wrong. -/
lemma result_eq_error {stack : List Number} {e : ExpressionError}
    (h : result source stack = .error (.error e)) : stack.length ≠ 1 ∧ e.position = none := by
  match stack, h with
  | [], h =>
    cases h
    exact ⟨by simp, rfl⟩
  | _ :: _ :: _, h =>
    cases h
    exact ⟨by simp, rfl⟩

/-- An evaluation fails at a token, or because the number of values is wrong in the end. -/
lemma evaluate_eq_error {tokens : List Token} {failure : Failure}
    (h : evaluate limits source tokens = .error failure) :
    run limits source [] tokens = .error failure ∨
      failure = .overall (.malformed .noValue) source ∨
      ∃ count, failure = .overall (.malformed (.leftOver count)) source := by
  unfold evaluate at h
  split at h
  · next hrun =>
      cases h
      exact Or.inl hrun
  · unfold result at h
    split at h
    · exact Or.inr (Or.inl (Except.error.inj h).symm)
    · exact absurd h (by simp)
    · exact Or.inr (Or.inr ⟨_, (Except.error.inj h).symm⟩)

end Rpn

end InfixCalculator
