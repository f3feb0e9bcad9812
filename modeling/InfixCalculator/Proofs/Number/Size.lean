import InfixCalculator.Proofs.Number.Exact

/-!
# The size of integer results

An integer has at most `k` binary digits exactly when its absolute value is below `2 ^ k`
(`bitLength_le_iff`).  So a sum has one digit more than its terms, a product has as many as its factors
together, and a quotient without remainder has no more than the dividend.  The digits of a power are
those of the base times the exponent (`bitLength_pow_le`); the lower estimate that is made before a
power is computed counts one digit less for the base.  It is below the true number of digits
(`lt_bitLength_pow`) and is at least half of it (`bitLength_pow_le_of_estimate`).
-/

namespace InfixCalculator.Number

lemma bitLength_le_iff {n : Int} {k : Nat} : bitLength n ≤ k ↔ n.natAbs < 2 ^ k := by
  rcases eq_or_ne n 0 with rfl | hn
  · simp
  · have hn' : n.natAbs ≠ 0 := Int.natAbs_ne_zero.2 hn
    rw [bitLength, if_neg hn, ← Nat.log2_lt hn', Nat.succ_le_iff]

lemma lt_bitLength_iff {n : Int} {k : Nat} : k < bitLength n ↔ 2 ^ k ≤ n.natAbs := by
  rw [← not_le, bitLength_le_iff, not_lt]

/-- Only `0`, `1` and `-1` have less than two digits. -/
lemma two_le_bitLength {n : Int} (h : 1 < n.natAbs) : 2 ≤ bitLength n := by
  by_contra hlt
  have hsmall : n.natAbs < 2 ^ 1 := bitLength_le_iff.1 (by omega)
  omega

/-- A number has no more digits than it counts. -/
lemma bitLength_le_natAbs (n : Int) : bitLength n ≤ n.natAbs :=
  bitLength_le_iff.2 Nat.lt_two_pow_self

lemma bitLength_add_le {a b : Int} {k : Nat} (ha : bitLength a ≤ k) (hb : bitLength b ≤ k) :
    bitLength (a + b) ≤ k + 1 := by
  rw [bitLength_le_iff] at *
  have hsum := Int.natAbs_add_le a b
  rw [pow_succ]
  omega

lemma bitLength_sub_le {a b : Int} {k : Nat} (ha : bitLength a ≤ k) (hb : bitLength b ≤ k) :
    bitLength (a - b) ≤ k + 1 := by
  rw [Int.sub_eq_add_neg]
  exact bitLength_add_le ha (by rwa [bitLength_neg])

lemma bitLength_mul_le {a b : Int} {k : Nat} (ha : bitLength a ≤ k) (hb : bitLength b ≤ k) :
    bitLength (a * b) ≤ 2 * k := by
  rw [bitLength_le_iff] at *
  rw [Int.natAbs_mul, two_mul, pow_add]
  exact Nat.mul_lt_mul'' ha hb

/-- A quotient that leaves no remainder is not larger than the dividend. -/
lemma bitLength_le_mul {a b : Int} (hb : b ≠ 0) : bitLength a ≤ bitLength (a * b) := by
  rw [bitLength_le_iff]
  refine lt_of_le_of_lt ?_ (natAbs_lt_two_pow_bitLength (a * b))
  rw [Int.natAbs_mul]
  exact Nat.le_mul_of_pos_right _ (Int.natAbs_pos.2 hb)

/-- A remainder, which has the sign of the divisor, is not larger than the divisor. -/
lemma bitLength_fmod_le (a : Int) {b : Int} (hb : b ≠ 0) : bitLength (a.fmod b) ≤ bitLength b := by
  rw [bitLength_le_iff, Int.fmod_eq_emod]
  have hnonneg := Int.emod_nonneg a hb
  have hlt := Int.emod_lt a hb
  have hdivisor := natAbs_lt_two_pow_bitLength b
  split
  · omega
  · next hdown =>
    -- a negative divisor is added to the remainder that is not negative
    have hneg : b < 0 := Int.not_le.1 fun hle => hdown (.inl hle)
    omega

/-- Every digit of the base makes at most as many digits of a power as the exponent says. -/
lemma bitLength_pow_le (a : Int) {k : Nat} (hk : k ≠ 0) : bitLength (a ^ k) ≤ bitLength a * k := by
  rw [bitLength_le_iff, Int.natAbs_pow, pow_mul]
  exact Nat.pow_lt_pow_left (natAbs_lt_two_pow_bitLength a) hk

/-- The powers of `0`, `1` and `-1` have one digit. -/
lemma bitLength_pow_le_one {a : Int} (ha : a.natAbs ≤ 1) (k : Nat) : bitLength (a ^ k) ≤ 1 := by
  rw [bitLength_le_iff, Int.natAbs_pow, pow_one]
  exact Nat.lt_succ_of_le (pow_le_one₀ (Nat.zero_le _) ha)

/-- Every digit of the base but one makes as many digits of a power as the exponent says, and there is
one digit more. -/
lemma lt_bitLength_pow {a : Int} (ha : 1 < a.natAbs) (k : Nat) :
    k * (bitLength a - 1) < bitLength (a ^ k) := by
  have htwo := two_le_bitLength ha
  have hbase : 2 ^ (bitLength a - 1) ≤ a.natAbs := lt_bitLength_iff.1 (by omega)
  rw [lt_bitLength_iff, Int.natAbs_pow]
  calc 2 ^ (k * (bitLength a - 1)) = (2 ^ (bitLength a - 1)) ^ k := by rw [mul_comm, pow_mul]
    _ ≤ a.natAbs ^ k := Nat.pow_le_pow_left hbase k

/-- The true size of a power is at most twice its lower estimate, because one digit less is at least
half of the digits of a base that has two or more. -/
lemma bitLength_pow_le_of_estimate {a : Int} {k bound : Nat} (ha : 1 < a.natAbs) (hk : k ≠ 0)
    (h : k * (bitLength a - 1) + 1 ≤ bound) : bitLength (a ^ k) ≤ 2 * bound := by
  have htwo := two_le_bitLength ha
  calc bitLength (a ^ k) ≤ bitLength a * k := bitLength_pow_le a hk
    _ ≤ (2 * (bitLength a - 1)) * k := Nat.mul_le_mul_right k (by omega)
    _ = 2 * (k * (bitLength a - 1)) := by ring
    _ ≤ 2 * bound := by omega

end InfixCalculator.Number
