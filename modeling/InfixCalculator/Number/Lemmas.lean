import InfixCalculator.Number.Arithmetic
import Mathlib

/-!
# Lemmas on integers

What bit lengths and powers of integers are, in terms of the powers of the integers as a ring:
an integer is below two to the power of its bit length (`natAbs_lt_two_pow_bitLength`), and
`intPower` is the power (`intPower_eq`).
-/

namespace InfixCalculator.Number

/-- An integer is below two to the power of its bit length. -/
theorem natAbs_lt_two_pow_bitLength (n : Int) : n.natAbs < 2 ^ bitLength n := by
  rcases eq_or_ne n 0 with rfl | h
  · simp
  · rw [bitLength, if_neg h]
    exact Nat.lt_log2_self

/-- The power of the absolute value of a base that is negative, with an odd exponent. -/
theorem neg_natCast_natAbs_pow {base : Int} {k : Nat} (hb : base < 0) (hk : k % 2 = 1) :
    -((base.natAbs ^ k : Nat) : Int) = base ^ k := by
  rw [Nat.cast_pow, Int.natCast_natAbs, abs_of_neg hb, (Nat.odd_iff.2 hk).neg_pow, neg_neg]

/-- The power of the absolute value of a base that is not negative, or with an even exponent. -/
theorem natCast_natAbs_pow {base : Int} {k : Nat} (h : ¬(base < 0 ∧ k % 2 = 1)) :
    ((base.natAbs ^ k : Nat) : Int) = base ^ k := by
  rw [Nat.cast_pow, Int.natCast_natAbs]
  rcases le_or_gt 0 base with hb | hb
  · rw [abs_of_nonneg hb]
  · have hk : Even k := Nat.even_iff.2 (by omega)
    exact hk.pow_abs base

/-- `intPower` is the power. -/
theorem intPower_eq (base : Int) (exponent : Nat) : intPower base exponent = base ^ exponent := by
  unfold intPower
  split_ifs with h0 hk h1 h2 hk h
  · simp [h0, hk]
  · simp [h0, hk]
  · simp [h1]
  · rw [h2, (Nat.even_iff.2 hk).neg_one_pow]
  · rw [h2, (Nat.odd_iff.2 (by omega)).neg_one_pow]
  · exact neg_natCast_natAbs_pow h.1 h.2
  · exact natCast_natAbs_pow h

end InfixCalculator.Number
