import InfixCalculator.Proofs.Evaluation.Exact
import InfixCalculator.Proofs.Evaluation.Size

/-!
# The limit on integer results is exact

Let an operator have an integer as its exact result on two integers.  Applying it gives this integer if
its size is within the limit, and otherwise reports a size above the limit (`combine_of_exact`).
The reported size is that of the result, but for powers.  Their size is looked at twice: a lower
estimate before the power is computed, and the true size after that.  The estimate is never above the
true size (`powerBits_le_bitLength`), so what it rejects would have been rejected anyway.  Besides,
there is a limit on the exponents of all bases but `0`, `1` and `-1`, which comes first.
-/

namespace InfixCalculator.Rpn

variable {limits : Limits} {source : Option String} {op : Operator} {position : Int} {a b n : Int}

/-- The exponent of a power is above its limit.  The powers of `0`, `1` and `-1` have no limit on the
exponent. -/
def ExponentTooLarge (limits : Limits) (op : Operator) (base exponent : Int) : Prop :=
  op = .pow ∧ 1 < base.natAbs ∧ limits.exponent < exponent

/-! ## After an operation -/

lemma combine_of_admissible {left right result : Number}
    (hadm : admissible limits source op position left right = .ok ())
    (hop : op.apply left right = .ok result) :
    combine limits source op position left right =
      checkResult limits source op position result := by
  rw [combine, hadm]
  simp only [hop]

lemma checkResult_of_le (h : (Number.bitLength n : Int) ≤ limits.integerBits) :
    checkResult limits source op position (.int n) = .ok (.int n) := by
  rw [checkResult, Limits.checkInteger, Limits.check_of_le h]

lemma checkResult_of_lt (h : limits.integerBits < Number.bitLength n) :
    checkResult limits source op position (.int n) =
      .error (.beyond Limit.integerBits.name limits.integerBits (Number.bitLength n)) := by
  rw [checkResult, Limits.checkInteger, Limits.check_of_lt h]
  rfl

/-! ## Before a power is computed -/

/-- A power has at least as many binary digits as the estimate says. -/
lemma powerBits_le_bitLength (ha : 1 < a.natAbs) (hb : 0 ≤ b) :
    powerBits a b ≤ Number.bitLength (a ^ b.toNat) := by
  obtain ⟨k, rfl⟩ := Int.eq_ofNat_of_zero_le hb
  have hlt := Number.lt_bitLength_pow ha k
  rw [powerBits_natCast ha, Int.toNat_natCast]
  exact_mod_cast hlt

lemma checkPower_of_lt (ha : 1 < a.natAbs) (hb : 0 ≤ b) (h : limits.exponent < b) :
    checkPower limits a b = .error (.beyond Limit.exponent.name limits.exponent b) := by
  have habs : (b.natAbs : Int) = b := Int.natAbs_of_nonneg hb
  rw [checkPower, if_neg (by omega), Limits.checkExponent, habs, Limits.check_of_lt h]
  rfl

/-- If the exponent is not too large, only the estimate can reject a power. -/
lemma checkPower_of_exponent (hb : 0 ≤ b) (h : ¬(1 < a.natAbs ∧ limits.exponent < b)) :
    checkPower limits a b = .ok () ∨
      1 < a.natAbs ∧ limits.integerBits < powerBits a b ∧
        checkPower limits a b =
          .error (.beyond Limit.integerBits.name limits.integerBits (powerBits a b)) := by
  rcases Nat.lt_or_ge 1 a.natAbs with ha | ha
  · have habs : (b.natAbs : Int) = b := Int.natAbs_of_nonneg hb
    have hexponent : limits.checkExponent b = .ok () :=
      Limits.check_of_le (habs.le.trans (not_lt.1 fun hlt => h ⟨ha, hlt⟩))
    rw [checkPower, if_neg (by omega), hexponent]
    simp only
    split_ifs
    · by_cases hsize : powerBits a b ≤ limits.integerBits
      · exact Or.inl (Limits.check_of_le hsize)
      · have hlt : limits.integerBits < powerBits a b := not_le.1 hsize
        exact Or.inr ⟨ha, hlt, Limits.check_of_lt hlt⟩
    · exact Or.inl rfl
  · exact Or.inl (by rw [checkPower, if_pos ha])

/-! ## Operations -/

/-- If the exponent is not too large, the true size of the result is checked, unless the operator is the
power and the estimate has been rejected. -/
lemma combine_eq_checkResult_or (h : op.rational? a b = some (n : ℚ))
    (hexponent : ¬ExponentTooLarge limits op a b) :
    combine limits source op position (.int a) (.int b) =
        checkResult limits source op position (.int n) ∨
      op = .pow ∧ ∃ actual : Int, limits.integerBits < actual ∧ actual ≤ Number.bitLength n ∧
        combine limits source op position (.int a) (.int b) =
          .error (.beyond Limit.integerBits.name limits.integerBits actual) := by
  have happly := Operator.rational?_eq_some_int_iff.1 h
  by_cases hop : op = .pow
  · subst hop
    obtain ⟨hb, rfl⟩ := Number.pow_eq_ok_int_iff.1 happly
    have hbase : ¬(1 < a.natAbs ∧ limits.exponent < b) := fun hlt => hexponent ⟨rfl, hlt⟩
    have hadm : admissible limits source .pow position (.int a) (.int b) = checkPower limits a b :=
      admissible_pow hb position
    rcases checkPower_of_exponent hb hbase with hok | ⟨ha, hlt, herror⟩
    · exact Or.inl (combine_of_admissible (hadm.trans hok) happly)
    · refine Or.inr ⟨rfl, powerBits a b, hlt, powerBits_le_bitLength ha hb, ?_⟩
      rw [combine, hadm, herror]
  · exact Or.inl (combine_of_admissible (admissible_of_ne_pow hop happly position) happly)

/-- Let the exact result of an operator on two integers be an integer.  An exponent above its limit is
reported as it is.  Otherwise the result is given exactly if its size is within the limit, and if not, a
size above the limit is reported, which is the size of the result or, for a power, at most that. -/
theorem combine_of_exact (h : op.rational? a b = some (n : ℚ)) (limits : Limits)
    (source : Option String) (position : Int) :
    (ExponentTooLarge limits op a b →
      combine limits source op position (.int a) (.int b) =
        .error (.beyond Limit.exponent.name limits.exponent b)) ∧
      (¬ExponentTooLarge limits op a b →
        (combine limits source op position (.int a) (.int b) = .ok (.int n) ↔
            (Number.bitLength n : Int) ≤ limits.integerBits) ∧
          (limits.integerBits < Number.bitLength n →
            ∃ actual : Int, limits.integerBits < actual ∧ actual ≤ Number.bitLength n ∧
              (op ≠ .pow → actual = Number.bitLength n) ∧
              combine limits source op position (.int a) (.int b) =
                .error (.beyond Limit.integerBits.name limits.integerBits actual))) := by
  refine ⟨?_, fun hexponent => ?_⟩
  · rintro ⟨rfl, ha, hlt⟩
    obtain ⟨hb, -⟩ := Number.pow_eq_ok_int_iff.1 (Operator.rational?_eq_some_int_iff.1 h)
    rw [combine, admissible_pow hb, checkPower_of_lt ha hb hlt]
  · rcases combine_eq_checkResult_or h hexponent with hcheck | ⟨hop, actual, hlt, hle, herror⟩
    · rw [hcheck]
      by_cases hfits : (Number.bitLength n : Int) ≤ limits.integerBits
      · rw [checkResult_of_le hfits]
        exact ⟨iff_of_true rfl hfits, fun hlt => absurd hfits (not_le.2 hlt)⟩
      · rw [checkResult_of_lt (not_le.1 hfits)]
        exact ⟨iff_of_false (by simp) hfits, fun hlt => ⟨_, hlt, le_rfl, fun _ => rfl, rfl⟩⟩
    · rw [herror]
      refine ⟨iff_of_false (by simp) (not_le.2 (hlt.trans_le hle)), fun _ => ?_⟩
      exact ⟨actual, hlt, hle, fun hne => absurd hop hne, rfl⟩

/-- At `(-2)^5` with six digits allowed, which the result has, and with five, where the estimate does not
see that it has one too many. -/
theorem combine_of_exact_sample :
    Operator.pow.rational? (-2 : Int) (5 : Int) = some ((-32 : Int) : ℚ) ∧
      combine { integerBits := 6 } none .pow 2 (.int (-2)) (.int 5) = .ok (.int (-32)) ∧
      ∃ actual : Int, 5 < actual ∧ actual ≤ Number.bitLength (-32) ∧
        combine { integerBits := 5 } none .pow 2 (.int (-2)) (.int 5) =
          .error (.beyond "max_integer_bits" 5 actual) := by
  have hexact : Operator.pow.rational? (-2 : Int) (5 : Int) = some ((-32 : Int) : ℚ) :=
    Operator.rational?_eq_some_int_iff.2 rfl
  have hsix := (combine_of_exact hexact { integerBits := 6 } none 2).2
    (by rw [ExponentTooLarge]; decide)
  obtain ⟨actual, hlt, hle, -, herror⟩ :=
    ((combine_of_exact hexact { integerBits := 5 } none 2).2
      (by rw [ExponentTooLarge]; decide)).2 (by decide)
  exact ⟨hexact, hsix.1.2 (by decide), actual, hlt, hle, herror⟩

end InfixCalculator.Rpn
