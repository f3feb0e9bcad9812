import InfixCalculator.Proofs.Evaluation.Step
import InfixCalculator.Proofs.Number.Finite
import InfixCalculator.Proofs.Number.Size

/-!
# How large numbers become

Whatever is on the stack of an evaluation fits: integers have at most as many binary digits as the
limit allows, and doubles are finite (`fits_of_run`).  An operation is carried out before its result
is looked at, so for a moment there are larger integers.  They have at most twice as many digits, or
one more (`bitLength_of_computes`): a power of integers is computed only after a lower estimate of its
size has passed the limit, and the true size is at most twice the estimate, however large the
exponent may be.
-/

namespace InfixCalculator

/-- The number is an integer of at most so many binary digits, or a finite double. -/
def Number.Fits (bits : Int) : Number → Prop
  | int n => bitLength n ≤ bits
  | float x => x.isFinite = true

/-- The integers that an operation computes: its result, and the remainder that tells whether a
quotient of integers is exact.  The remainder is that of the quotient rounded down, so it has the sign of
the divisor. -/
inductive Operator.Computes : Operator → Number → Number → Int → Prop
  | result {op : Operator} {left right : Number} {n : Int}
      (h : op.apply left right = .ok (.int n)) : Computes op left right n
  | remainder (a b : Int) : Computes .div (.int a) (.int b) (a.fmod b)

namespace Rpn

variable {limits : Limits} {source : Option String} {token : Token}

/-! ## The stack -/

lemma checkInteger_eq_ok {n : Int} (h : limits.checkInteger n = .ok ()) :
    (Number.bitLength n : Int) ≤ limits.integerBits :=
  Limits.check_eq_ok_iff.1 h

lemma fits_of_literalValue {value : Number} (h : literalValue limits source token = .ok value) :
    value.Fits limits.integerBits := by
  have hliteral := literalValue_eq_ok h
  cases value with
  | int n =>
    rw [literalValue, hliteral] at h
    simp only at h
    split at h
    · exact absurd h (by simp)
    · next hcheck => exact checkInteger_eq_ok hcheck
  | float x => exact Number.isFinite_of_literal? hliteral

lemma fits_of_checkResult {op : Operator} {position : Int} {result value : Number}
    (h : checkResult limits source op position result = .ok value) :
    value.Fits limits.integerBits := by
  obtain rfl := checkResult_eq_ok h
  cases value with
  | int n =>
    simp only [checkResult] at h
    split at h
    · exact absurd h (by simp)
    · next hcheck => exact checkInteger_eq_ok hcheck
  | float x =>
    simp only [checkResult] at h
    split at h
    · next hfinite => exact hfinite
    · exact absurd h (by simp)

lemma fits_of_combine {op : Operator} {position : Int} {left right value : Number}
    (h : combine limits source op position left right = .ok value) :
    value.Fits limits.integerBits := by
  unfold combine at h
  split at h
  · exact absurd h (by simp)
  · split at h
    · exact absurd h (by simp)
    · exact fits_of_checkResult h

lemma fits_of_step {stack stack' : List Number} (h : step limits source stack token = .ok stack')
    (hs : ∀ x ∈ stack, x.Fits limits.integerBits) : ∀ x ∈ stack', x.Fits limits.integerBits := by
  obtain ⟨-, value, hvalue, rfl⟩ | ⟨op, left, right, rest, value, -, rfl, hvalue, rfl⟩ :=
    step_eq_ok h
  · exact List.forall_mem_cons.2 ⟨fits_of_literalValue hvalue, hs⟩
  · refine List.forall_mem_cons.2 ⟨fits_of_combine hvalue, fun x hx => hs x ?_⟩
    exact List.mem_cons_of_mem _ (List.mem_cons_of_mem _ hx)

lemma fits_of_run {tokens : List Token} {stack stack' : List Number}
    (h : run limits source stack tokens = .ok stack')
    (hs : ∀ x ∈ stack, x.Fits limits.integerBits) : ∀ x ∈ stack', x.Fits limits.integerBits := by
  induction tokens generalizing stack with
  | nil =>
    cases h
    exact hs
  | cons token rest ih =>
    obtain ⟨next, hstep, hrun⟩ := run_cons_eq_ok_iff.1 h
    exact ih hrun (fits_of_step hstep hs)

/-- A value is as large as what is on the stack. -/
lemma fits_of_evaluate {tokens : List Token} {value : Number}
    (h : evaluate limits source tokens = .ok value) : value.Fits limits.integerBits :=
  fits_of_run (run_of_evaluate h) (by simp) value (by simp)

/-! ## Results before they are checked -/

/-- A power of integers passes the check if the base is small, or the lower estimate is. -/
lemma estimate_of_checkPower {a b : Int} (h : checkPower limits a b = .ok ()) (ha : 1 < a.natAbs)
    (hb : 0 < b) : powerBits a b ≤ limits.integerBits := by
  rw [checkPower, if_neg (by omega)] at h
  split at h
  · exact absurd h (by simp)
  · rw [if_pos hb] at h
    exact Limits.check_eq_ok_iff.1 h

lemma checkPower_of_admissible {position : Int} {a b : Int}
    (h : admissible limits source .pow position (.int a) (.int b) = .ok ()) :
    checkPower limits a b = .ok () := by
  simp only [admissible] at h
  split at h
  · exact absurd h (by simp)
  · exact h

/-- The lower estimate of a power, in natural numbers. -/
lemma powerBits_natCast {a : Int} (ha : 1 < a.natAbs) (k : Nat) :
    powerBits a k = (k * (Number.bitLength a - 1) + 1 : Nat) := by
  have htwo := Number.two_le_bitLength ha
  rw [powerBits]
  push_cast [Nat.cast_sub (show 1 ≤ Number.bitLength a by omega)]
  ring

/-- A power that has passed the check has at most twice as many digits as are allowed; the powers of
`0`, `1` and `-1` have one. -/
lemma bitLength_pow_le_of_checkPower {a : Int} {k bits : Nat} (hbits : limits.integerBits = bits)
    (h : checkPower limits a k = .ok ()) : Number.bitLength (a ^ k) ≤ max (2 * bits) (bits + 1) := by
  rcases Nat.lt_or_ge 1 a.natAbs with ha | ha
  · rcases Nat.eq_zero_or_pos k with rfl | hk
    · have hone : Number.bitLength (a ^ 0) ≤ 1 := by
        rw [pow_zero]
        exact Number.bitLength_le_natAbs 1
      omega
    · have hestimate := estimate_of_checkPower h ha (by omega)
      have hcast := powerBits_natCast ha k
      have hbound : k * (Number.bitLength a - 1) + 1 ≤ bits := by omega
      have hpower := Number.bitLength_pow_le_of_estimate ha (by omega) hbound
      omega
  · have hpower := Number.bitLength_pow_le_one ha k
    omega

/-- An admitted operation on integers of at most so many digits has a result of at most twice as many, or
of one more. -/
lemma bitLength_of_apply {op : Operator} {position : Int} {a b n : Int} {bits : Nat}
    (hbits : limits.integerBits = bits) (ha : Number.bitLength a ≤ bits)
    (hb : Number.bitLength b ≤ bits)
    (hadm : admissible limits source op position (.int a) (.int b) = .ok ())
    (hop : op.apply (.int a) (.int b) = .ok (.int n)) :
    Number.bitLength n ≤ max (2 * bits) (bits + 1) := by
  cases op with
  | add =>
    cases hop
    have hsum := Number.bitLength_add_le ha hb
    omega
  | sub =>
    cases hop
    have hdiff := Number.bitLength_sub_le ha hb
    omega
  | mul =>
    cases hop
    have hprod := Number.bitLength_mul_le ha hb
    omega
  | div =>
    obtain ⟨hzero, rfl⟩ := Number.intQuotient_eq_ok_int_iff.1 hop
    have hquot := Number.bitLength_le_mul (a := n) hzero
    omega
  | pow =>
    obtain ⟨hnonneg, rfl⟩ := Number.pow_eq_ok_int_iff.1 hop
    obtain ⟨k, rfl⟩ := Int.eq_ofNat_of_zero_le hnonneg
    exact bitLength_pow_le_of_checkPower hbits (checkPower_of_admissible hadm)

/-- What is computed from operands that fit has at most twice as many digits as are allowed, or one
more than that. -/
lemma bitLength_of_computes {op : Operator} {position : Int} {left right : Number} {n : Int}
    (hleft : left.Fits limits.integerBits) (hright : right.Fits limits.integerBits)
    (hadm : admissible limits source op position left right = .ok ())
    (h : op.Computes left right n) :
    (Number.bitLength n : Int) ≤ max (2 * limits.integerBits) (limits.integerBits + 1) := by
  cases h with
  | remainder a b =>
    have hb : b ≠ 0 := by
      rintro rfl
      exact absurd hadm (by simp [admissible, Number.isZero])
    have hrem := Number.bitLength_fmod_le a hb
    simp only [Number.Fits] at hright
    omega
  | result hop =>
    obtain ⟨a, b, rfl, rfl, -⟩ := Operator.apply_eq_ok_int_iff.1 hop
    simp only [Number.Fits] at hleft hright
    obtain ⟨bits, hbits⟩ : ∃ bits : Nat, limits.integerBits = bits :=
      Int.eq_ofNat_of_zero_le (by omega)
    have hresult := bitLength_of_apply hbits (by omega) (by omega) hadm hop
    omega

/-- Let `read` be the part of a token list that an evaluation has taken in, under any limits.  The
integers on the stack have at most as many binary digits as the limit allows, and the doubles are
finite.  If the next token is an operator and is admitted, the integers that the operation computes
before its result is checked have at most twice as many digits, or one more than that. -/
theorem integers_bounded_of_run (limits : Limits) (source : Option String) {read : List Token}
    {stack : List Number} (hrun : run limits source [] read = .ok stack) :
    (∀ x ∈ stack, x.Fits limits.integerBits) ∧
      ∀ (token : Token) op left right below, token.kind = .operator op →
        stack = right :: left :: below →
        admissible limits source op token.position left right = .ok () →
        ∀ n, op.Computes left right n →
          (Number.bitLength n : Int) ≤ max (2 * limits.integerBits) (limits.integerBits + 1) := by
  have hfits : ∀ x ∈ stack, x.Fits limits.integerBits := fits_of_run hrun (by simp)
  refine ⟨hfits, ?_⟩
  rintro token op left right below - rfl hadm n hn
  exact bitLength_of_computes (hfits left (by simp)) (hfits right (by simp)) hadm hn

/-- Before the power in `3^4`, where six digits are allowed: the estimate is five, so the power is
computed, and only then its seven digits are too many. -/
theorem integers_bounded_of_run_sample :
    run { integerBits := 6 } none [] [⟨.literal, "3", 0⟩, ⟨.literal, "4", 2⟩] =
        .ok [.int 4, .int 3] ∧
      (Number.int 4).Fits 6 ∧ powerBits 3 4 = 5 ∧ Number.bitLength 81 = 7 ∧
      (Number.bitLength 81 : Int) ≤ max (2 * 6) (6 + 1) :=
  have h := @integers_bounded_of_run { integerBits := 6 } none
    [⟨.literal, "3", 0⟩, ⟨.literal, "4", 2⟩] [.int 4, .int 3] rfl
  ⟨rfl, h.1 (.int 4) (by simp), rfl, rfl,
    h.2 ⟨.operator .pow, "^", 1⟩ .pow (.int 3) (.int 4) [] rfl rfl rfl 81 (.result rfl)⟩

end Rpn

end InfixCalculator
