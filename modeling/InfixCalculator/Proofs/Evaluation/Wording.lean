import InfixCalculator.Proofs.Evaluation.Size
import InfixCalculator.Proofs.Number.Written
import InfixCalculator.Proofs.Settings.Range

/-!
# Messages of the evaluation

The message of an exceeded limit holds the limit and the quantity, and neither is written if it has
too many digits.  Under limits in range only the quantity has to be looked at, for the limit is between
zero and the quantity, however large it may be (`Limits.InRange.worded_of_check`).  The quantities of
an evaluation come from integers of bounded size: they are sizes, exponents, and the estimate of a
power, which is an exponent times a size.  So an evaluation that fails can say why
(`worded_of_evaluate`).
-/

namespace InfixCalculator

open Numeral

/-- The failure is an error that has a message. -/
def Failure.Worded (failure : Failure) : Prop :=
  failure ≠ .unwritable

variable {limits : Limits} {source : Option String} {failure : Failure}

lemma Failure.worded_atPosition (cause : Cause) (position : Int) (source : Option String) :
    (atPosition cause position source).Worded := by
  simp [Worded, atPosition]

lemma Failure.worded_overall (cause : Cause) (source : Option String) :
    (overall cause source).Worded := by
  simp [Worded, overall]

namespace Limits.InRange

/-- An exceeded limit is reported if the quantity can be written, for the limit is between zero and the
quantity. -/
lemma worded_of_check (h : limits.InRange) {limit : Limit} {actual : Int}
    (hactual : isWritable actual = true) (hc : limits.check limit actual = .error failure) :
    failure.Worded := by
  unfold check at hc
  split at hc
  · next hlt =>
      have hbound : isWritable (limits.bound limit) = true :=
        isWritable_of_le (h.bound_nonneg limit) (Int.le_of_lt hlt) hactual
      rw [← Except.error.inj hc, Failure.beyond, hbound, hactual]
      exact Failure.worded_overall _ _
  · exact absurd hc (by simp)

end Limits.InRange

namespace Rpn

lemma worded_of_literalValue (hlimits : limits.InRange) {token : Token}
    (h : literalValue limits source token = .error failure) : failure.Worded := by
  unfold literalValue at h
  split at h
  · cases h
    exact Failure.worded_atPosition _ _ _
  · exact absurd h (by simp)
  · next n hliteral =>
      split at h
      · next hcheck =>
          cases h
          obtain ⟨hdigits, hlength, rfl⟩ := Number.literal?_eq_some_int_iff.1 hliteral
          have hsize := Number.bitLength_le_natAbs (Number.decimalValue token.text.toList)
          have hvalue := Number.decimalValue_lt hdigits hlength
          rw [Int.natAbs_natCast] at hsize
          exact hlimits.worded_of_check (isWritable_natCast (hsize.trans_lt hvalue)) hcheck
      · exact absurd h (by simp)

/-- The exponent and the size of the base make up the lower estimate of a power. -/
lemma isWritable_powerBits (hlimits : limits.InRange) {base exponent : Int}
    (hbase : (Number.int base).Fits limits.integerBits)
    (hexponent : (Number.int exponent).Fits limits.integerBits) (hpos : 0 < exponent)
    (hlarge : 1 < base.natAbs) : isWritable (powerBits base exponent) = true := by
  have hmax := hlimits.integerBits_le
  have htwo := Number.two_le_bitLength hlarge
  simp only [Number.Fits] at hbase hexponent
  have he : exponent.natAbs < 2 ^ 14000 := Number.bitLength_le_iff.1 (by omega)
  have hb : Number.bitLength base < 2 ^ 14 := by omega
  have hle : powerBits base exponent ≤ exponent * Number.bitLength base := by
    rw [powerBits, mul_sub, mul_one]
    omega
  have hproduct : (exponent * Number.bitLength base).natAbs < 2 ^ 14190 := by
    calc (exponent * Number.bitLength base).natAbs = exponent.natAbs * Number.bitLength base := by
          rw [Int.natAbs_mul, Int.natAbs_natCast]
      _ < 2 ^ 14000 * 2 ^ 14 := Nat.mul_lt_mul'' he hb
      _ = 2 ^ (14000 + 14) := (pow_add 2 14000 14).symm
      _ ≤ 2 ^ 14190 := pow_le_pow_right₀ (by norm_num) (by norm_num)
  have hnonneg : 0 ≤ powerBits base exponent := by
    have hfactor : 0 ≤ exponent * (Number.bitLength base - 1 : Int) :=
      mul_nonneg (Int.le_of_lt hpos) (by omega)
    rw [powerBits]
    omega
  exact isWritable_of_le hnonneg hle (isWritable_of_natAbs_lt hproduct)

lemma worded_of_checkPower (hlimits : limits.InRange) {base exponent : Int}
    (hbase : (Number.int base).Fits limits.integerBits)
    (hexponent : (Number.int exponent).Fits limits.integerBits)
    (h : checkPower limits base exponent = .error failure) : failure.Worded := by
  unfold checkPower at h
  split at h
  · exact absurd h (by simp)
  · next hlarge =>
      split at h
      · next hcheck =>
          cases h
          refine hlimits.worded_of_check (isWritable_of_natAbs_lt ?_) hcheck
          have hmax := hlimits.integerBits_le
          simp only [Number.Fits] at hexponent
          rw [Int.natAbs_natCast, ← Number.bitLength_le_iff]
          omega
      · split at h
        · next hpos =>
            exact hlimits.worded_of_check
              (isWritable_powerBits hlimits hbase hexponent hpos (by omega)) h
        · exact absurd h (by simp)

lemma worded_of_admissible (hlimits : limits.InRange) {op : Operator} {position : Int}
    {left right : Number} (hleft : left.Fits limits.integerBits)
    (hright : right.Fits limits.integerBits)
    (h : admissible limits source op position left right = .error failure) : failure.Worded := by
  unfold admissible at h
  split at h
  · split at h
    · cases h
      exact Failure.worded_atPosition _ _ _
    · exact absurd h (by simp)
  · split at h
    · cases h
      exact Failure.worded_atPosition _ _ _
    · split at h
      · exact worded_of_checkPower hlimits hleft hright h
      · exact absurd h (by simp)
  · exact absurd h (by simp)

/-- An integer result is at most twice as long as is allowed. -/
lemma isWritable_bitLength_of_apply (hlimits : limits.InRange) {op : Operator} {position : Int}
    {left right : Number} {n : Int} (hleft : left.Fits limits.integerBits)
    (hright : right.Fits limits.integerBits)
    (hadm : admissible limits source op position left right = .ok ())
    (h : op.apply left right = .ok (.int n)) : isWritable (Number.bitLength n : Nat) = true := by
  have hsize := bitLength_of_computes hleft hright hadm (.result h)
  have hmax := hlimits.integerBits_le
  have hpos := hlimits.integerBits_pos
  refine isWritable_of_natAbs_lt ?_
  calc (Number.bitLength n : Int).natAbs ≤ 28000 := by omega
    _ < 2 ^ 15 := by norm_num
    _ ≤ 2 ^ 14190 := pow_le_pow_right₀ (by norm_num) (by norm_num)

lemma worded_of_combine (hlimits : limits.InRange) {op : Operator} {position : Int}
    {left right : Number} (hleft : left.Fits limits.integerBits)
    (hright : right.Fits limits.integerBits)
    (h : combine limits source op position left right = .error failure) : failure.Worded := by
  unfold combine at h
  split at h
  · next hadm =>
      cases h
      exact worded_of_admissible hlimits hleft hright hadm
  · next hadm =>
      split at h
      · cases h
        exact Failure.worded_atPosition _ _ _
      · next result hresult =>
          cases result with
          | int n =>
            have hsize := isWritable_bitLength_of_apply hlimits hleft hright hadm hresult
            simp only [checkResult] at h
            split at h
            · next hcheck =>
                cases h
                exact hlimits.worded_of_check hsize hcheck
            · exact absurd h (by simp)
          | float x =>
            simp only [checkResult] at h
            split at h
            · exact absurd h (by simp)
            · cases h
              exact Failure.worded_atPosition _ _ _

lemma worded_of_step (hlimits : limits.InRange) {stack : List Number} {token : Token}
    (hs : ∀ x ∈ stack, x.Fits limits.integerBits)
    (h : step limits source stack token = .error failure) : failure.Worded := by
  cases hk : token.kind with
  | literal =>
    rw [step_literal hk] at h
    split at h
    · next hvalue =>
        cases h
        exact worded_of_literalValue hlimits hvalue
    · exact absurd h (by simp)
  | operator op =>
    by_cases hshort : stack.length < 2
    · rw [step_operator_of_short hk hshort] at h
      cases h
      exact Failure.worded_atPosition _ _ _
    · match stack, hshort with
      | [_], hshort => exact absurd (by simp) hshort
      | right :: left :: rest, _ =>
        rw [step_operator hk] at h
        split at h
        · next hcombine =>
            cases h
            exact worded_of_combine hlimits (hs left (by simp)) (hs right (by simp)) hcombine
        · exact absurd h (by simp)
  | openParen =>
    rw [step_parenthesis (Or.inl hk)] at h
    cases h
    exact Failure.worded_atPosition _ _ _
  | closeParen =>
    rw [step_parenthesis (Or.inr hk)] at h
    cases h
    exact Failure.worded_atPosition _ _ _

lemma worded_of_run (hlimits : limits.InRange) {stack : List Number} {tokens : List Token}
    (hs : ∀ x ∈ stack, x.Fits limits.integerBits)
    (h : run limits source stack tokens = .error failure) : failure.Worded := by
  induction tokens generalizing stack with
  | nil => exact absurd h (by simp)
  | cons token rest ih =>
    rw [run_cons] at h
    split at h
    · next hstep =>
        cases h
        exact worded_of_step hlimits hs hstep
    · next next hstep => exact ih (fits_of_step hstep hs) h

lemma worded_of_evaluate (hlimits : limits.InRange) {tokens : List Token}
    (h : evaluate limits source tokens = .error failure) : failure.Worded := by
  rcases evaluate_eq_error h with hrun | rfl | ⟨count, rfl⟩
  · exact worded_of_run hlimits (by simp) hrun
  · exact Failure.worded_overall _ _
  · exact Failure.worded_overall _ _

end Rpn

end InfixCalculator
