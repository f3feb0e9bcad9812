import InfixCalculator.Proofs.Computation.Relocation

/-!
# Wider limits

A limit decides whether the work goes on, and nothing else: what is computed does not depend on it.  So
every stage has the same answer under wider limits, unless its answer was that a limit is exceeded
(`Limits.Spares`).  This holds of the comparison with a limit, the only place where limits are looked
at, and each stage hands it on to the next (`Limits.Spares.elim`).  The estimate of a power is compared
like any other quantity, for it is computed from the operands alone.  Hence a computation that does not
end at a limit is the same under wider limits, be it with a value or with an error
(`compute_eq_of_le`).
-/

namespace InfixCalculator

/-- Limits are wider than others if no bound is smaller. -/
instance : LE Limits where
  le limits wider := ∀ limit, limits.bound limit ≤ wider.bound limit

namespace Limits

variable {α : Type} {limits wider : Limits}

/-- The second answer is the first one, unless the first one is that a limit is exceeded. -/
def Spares (limits : Limits) (answer answer' : Except Failure α) : Prop :=
  answer = answer' ∨ ∃ failure, answer = .error failure ∧ limits.Exceeded failure

lemma Spares.refl (answer : Except Failure α) : limits.Spares answer answer :=
  Or.inl rfl

lemma Spares.of_exceeded {failure : Failure} (h : limits.Exceeded failure)
    (answer' : Except Failure α) : limits.Spares (.error failure) answer' :=
  Or.inr ⟨failure, rfl, h⟩

/-- The two ways in which one answer spares another. -/
@[elab_as_elim]
lemma Spares.elim {motive : Except Failure α → Except Failure α → Prop}
    {answer answer' : Except Failure α} (h : limits.Spares answer answer')
    (same : ∀ answer, motive answer answer)
    (exceeded : ∀ failure answer', limits.Exceeded failure → motive (.error failure) answer') :
    motive answer answer' := by
  rcases h with rfl | ⟨failure, rfl, hexceeded⟩
  · exact same answer
  · exact exceeded failure answer' hexceeded

/-- A quantity that is within a bound is within a greater one. -/
lemma spares_check (h : limits ≤ wider) (limit : Limit) (actual : Int) :
    limits.Spares (limits.check limit actual) (wider.check limit actual) := by
  rcases limits.check_eq_ok_or_exceeded limit actual with hok | ⟨failure, herror, hexceeded⟩
  · have hle : actual ≤ wider.bound limit := Int.le_trans (check_eq_ok_iff.1 hok) (h limit)
    exact Or.inl (hok.trans (check_of_le hle).symm)
  · rw [herror]
    exact Spares.of_exceeded hexceeded _

lemma spares_checkInteger (h : limits ≤ wider) (n : Int) :
    limits.Spares (limits.checkInteger n) (wider.checkInteger n) :=
  spares_check h .integerBits (Number.bitLength n)

lemma exceeded_tooMany (limits : Limits) : limits.Exceeded (Token.tooMany limits) :=
  check_eq_error (Token.check_tooMany limits)

end Limits

open Limits

variable {limits wider : Limits} {source : Option String}

/-! ## Tokens -/

lemma Token.Segments.spares_verdict (h : limits ≤ wider) (text : String) (segments : Segments) :
    limits.Spares (segments.verdict limits text) (segments.verdict wider text) := by
  by_cases hmany : limits.tokenCount.toNat < segments.tokens.length
  · rw [verdict, if_pos hmany]
    exact Spares.of_exceeded (exceeded_tooMany limits) _
  · have hcount : limits.tokenCount ≤ wider.tokenCount := h .tokenCount
    have hwider : ¬wider.tokenCount.toNat < segments.tokens.length := by omega
    rw [verdict, verdict, if_neg hmany, if_neg hwider]
    exact Spares.refl _

namespace Rpn

/-! ## Postfix order -/

namespace Conversion

/-- Nothing but the depth of groups is compared with a limit. -/
lemma spares_step (h : limits ≤ wider) (config : Conversion) (token : Token) :
    limits.Spares (config.step limits source token) (config.step wider source token) := by
  cases hk : token.kind with
  | literal =>
    rw [step_literal hk, step_literal hk]
    exact Spares.refl _
  | openParen =>
    rw [step_open hk, step_open hk]
    refine Spares.elim (spares_check h .nestingDepth (config.depth + 1 : Nat)) ?_ ?_
    · exact fun _ => Spares.refl _
    · exact fun _ _ hexceeded => Spares.of_exceeded hexceeded _
  | closeParen =>
    rw [step_close hk, step_close hk]
    exact Spares.refl _
  | operator op =>
    rw [step_operator hk, step_operator hk]
    exact Spares.refl _

lemma spares_run (h : limits ≤ wider) (config : Conversion) (tokens : List Token) :
    limits.Spares (config.run limits source tokens) (config.run wider source tokens) := by
  induction tokens generalizing config with
  | nil => exact Spares.refl _
  | cons token rest ih =>
    rw [run_cons, run_cons]
    refine Spares.elim (spares_step h config token) ?_ ?_
    · intro answer
      cases answer with
      | error failure => exact Spares.refl _
      | ok next => exact ih next
    · exact fun _ _ hexceeded => Spares.of_exceeded hexceeded _

end Conversion

lemma spares_ofInfix (h : limits ≤ wider) (tokens : List Token) :
    limits.Spares (ofInfix limits source tokens) (ofInfix wider source tokens) := by
  rw [ofInfix, ofInfix]
  refine Spares.elim (Conversion.spares_run h Conversion.initial tokens) ?_ ?_
  · exact fun _ => Spares.refl _
  · exact fun _ _ hexceeded => Spares.of_exceeded hexceeded _

/-! ## Evaluation -/

lemma spares_literalValue (h : limits ≤ wider) (token : Token) :
    limits.Spares (literalValue limits source token) (literalValue wider source token) := by
  unfold literalValue
  split
  · exact Spares.refl _
  · exact Spares.refl _
  · next n _ =>
      refine Spares.elim (spares_checkInteger h n) ?_ ?_
      · exact fun _ => Spares.refl _
      · exact fun _ _ hexceeded => Spares.of_exceeded hexceeded _

/-- A power is compared with two limits. -/
lemma spares_checkPower (h : limits ≤ wider) (base exponent : Int) :
    limits.Spares (checkPower limits base exponent) (checkPower wider base exponent) := by
  have hexponent : limits.Spares (limits.checkExponent exponent) (wider.checkExponent exponent) :=
    spares_check h .exponent exponent.natAbs
  unfold checkPower
  split
  · exact Spares.refl _
  · refine Spares.elim hexponent ?_ ?_
    · intro answer
      cases answer with
      | error failure => exact Spares.refl _
      | ok u =>
        by_cases hpos : 0 < exponent
        · simp only [hpos, if_true]
          exact spares_check h .integerBits (powerBits base exponent)
        · simp only [hpos, if_false]
          exact Spares.refl _
    · exact fun _ _ hexceeded => Spares.of_exceeded hexceeded _

lemma spares_admissible (h : limits ≤ wider) (op : Operator) (position : Int)
    (left right : Number) :
    limits.Spares (admissible limits source op position left right)
      (admissible wider source op position left right) := by
  unfold admissible
  split
  · exact Spares.refl _
  · split
    · exact Spares.refl _
    · split
      · next base exponent _ => exact spares_checkPower h base exponent
      · exact Spares.refl _
  · exact Spares.refl _

lemma spares_checkResult (h : limits ≤ wider) (op : Operator) (position : Int) (result : Number) :
    limits.Spares (checkResult limits source op position result)
      (checkResult wider source op position result) := by
  cases result with
  | int n =>
    simp only [checkResult]
    refine Spares.elim (spares_checkInteger h n) ?_ ?_
    · exact fun _ => Spares.refl _
    · exact fun _ _ hexceeded => Spares.of_exceeded hexceeded _
  | float x => exact Spares.refl _

lemma spares_combine (h : limits ≤ wider) (op : Operator) (position : Int) (left right : Number) :
    limits.Spares (combine limits source op position left right)
      (combine wider source op position left right) := by
  rw [combine, combine]
  refine Spares.elim (spares_admissible h op position left right) ?_ ?_
  · intro answer
    cases answer with
    | error failure => exact Spares.refl _
    | ok u =>
      cases op.apply left right with
      | error fault => exact Spares.refl _
      | ok result => exact spares_checkResult h op position result
  · exact fun _ _ hexceeded => Spares.of_exceeded hexceeded _

lemma spares_step (h : limits ≤ wider) (stack : List Number) (token : Token) :
    limits.Spares (step limits source stack token) (step wider source stack token) := by
  unfold step
  split
  · refine Spares.elim (spares_literalValue h token) ?_ ?_
    · exact fun _ => Spares.refl _
    · exact fun _ _ hexceeded => Spares.of_exceeded hexceeded _
  · next op _ =>
      split
      · next right left rest =>
          refine Spares.elim (spares_combine h op token.position left right) ?_ ?_
          · exact fun _ => Spares.refl _
          · exact fun _ _ hexceeded => Spares.of_exceeded hexceeded _
      · exact Spares.refl _
  · exact Spares.refl _

lemma spares_run (h : limits ≤ wider) (stack : List Number) (tokens : List Token) :
    limits.Spares (run limits source stack tokens) (run wider source stack tokens) := by
  induction tokens generalizing stack with
  | nil => exact Spares.refl _
  | cons token rest ih =>
    rw [run_cons, run_cons]
    refine Spares.elim (spares_step h stack token) ?_ ?_
    · intro answer
      cases answer with
      | error failure => exact Spares.refl _
      | ok next => exact ih next
    · exact fun _ _ hexceeded => Spares.of_exceeded hexceeded _

lemma spares_evaluate (h : limits ≤ wider) (tokens : List Token) :
    limits.Spares (evaluate limits source tokens) (evaluate wider source tokens) := by
  rw [evaluate, evaluate]
  refine Spares.elim (spares_run h [] tokens) ?_ ?_
  · exact fun _ => Spares.refl _
  · exact fun _ _ hexceeded => Spares.of_exceeded hexceeded _

lemma spares_infixValue (h : limits ≤ wider) (tokens : List Token) :
    limits.Spares (infixValue limits source tokens) (infixValue wider source tokens) := by
  rw [infixValue, infixValue]
  refine Spares.elim (spares_ofInfix h tokens) ?_ ?_
  · intro answer
    cases answer with
    | error failure => exact Spares.refl _
    | ok rpn => exact spares_evaluate h rpn
  · exact fun _ _ hexceeded => Spares.of_exceeded hexceeded _

end Rpn

/-! ## Computations -/

lemma Token.Segments.spares_value (h : limits ≤ wider) (text : String) (segments : Segments) :
    limits.Spares (segments.value limits text) (segments.value wider text) := by
  rw [value, value]
  refine Spares.elim (segments.spares_verdict h text) ?_ ?_
  · intro answer
    cases answer with
    | error failure => exact Spares.refl _
    | ok tokens => exact Rpn.spares_infixValue h tokens
  · exact fun _ _ hexceeded => Spares.of_exceeded hexceeded _

lemma spares_calculate (h : limits ≤ wider) (expression : String) :
    limits.Spares (calculate limits expression) (calculate wider expression) := by
  cases hblank : Token.isBlank expression with
  | true =>
    simp only [calculate, progress, hblank, if_true]
    exact Spares.refl _
  | false =>
    have hlength : limits.Spares (limits.checkLength expression) (wider.checkLength expression) :=
      spares_check h .expressionLength expression.length
    rw [calculate_eq_value hblank, calculate_eq_value hblank]
    refine Spares.elim hlength ?_ ?_
    · intro answer
      cases answer with
      | error failure => exact Spares.refl _
      | ok u => exact Token.Segments.spares_value h expression _
    · exact fun _ _ hexceeded => Spares.of_exceeded hexceeded _

/-- Let an expression have a value, or an error that does not say that a limit is exceeded.  Under
limits that are nowhere smaller it has the same value, or the same error at the same position. -/
theorem compute_eq_of_le (h : limits ≤ wider) {expression : String} {c : Computation}
    (hc : compute limits expression = .ok c) (hkind : c.errorKind? ≠ some .limitExceeded) :
    compute wider expression = .ok c := by
  rcases spares_calculate h expression with hsame | ⟨failure, herror, hexceeded⟩
  · rw [compute, hsame] at hc
    exact hc
  -- a limit that is exceeded either is the error or keeps it from being worded
  · exfalso
    rw [compute, herror] at hc
    cases failure with
    | error e =>
      cases hc
      exact hkind (congrArg some hexceeded.kind_eq)
    | unwritable => exact absurd hc (by simp)

/-- Limits that admit three characters and integers of one digit, and no group and no power. -/
def narrowLimits : Limits :=
  { expressionLength := 3, tokenCount := 3, nestingDepth := -1, exponent := -1, integerBits := 1 }

/-- With the literal `1` the limits are met, and what follows is no number. -/
theorem compute_eq_of_le_sample :
    (narrowLimits ≤ {} ∧ compute narrowLimits "1+x" =
        .ok ⟨"1+x", .error ⟨.invalidLiteral "x", some 2, some "1+x"⟩⟩) ∧
      compute {} "1+x" = .ok ⟨"1+x", .error ⟨.invalidLiteral "x", some 2, some "1+x"⟩⟩ := by
  have h : narrowLimits ≤ {} := by
    intro limit
    cases limit <;> decide
  have hc : compute narrowLimits "1+x" =
    .ok ⟨"1+x", .error ⟨.invalidLiteral "x", some 2, some "1+x"⟩⟩ := rfl
  exact ⟨⟨h, hc⟩, compute_eq_of_le h hc (by decide)⟩

end InfixCalculator
