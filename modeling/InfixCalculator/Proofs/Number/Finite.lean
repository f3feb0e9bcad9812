import InfixCalculator.Number.Literal
import Mathlib

/-!
# Literals are finite

A double is finite if its bit pattern without sign is below that of infinity.
Rounding gives up when the pattern reaches it (`Binary64.nearest?`), so the double of a literal is
finite (`isFinite_of_literal?`).
-/

namespace InfixCalculator

namespace Binary64

open Float.Model

variable {b : BitVec Format.binary64.numBits}

/-- The exponent field of a pattern below infinity is not full. -/
lemma unpackExponent_ne (h : b.toNat < infinityBits) :
    UnpackedFloat.unpackExponent b ≠ -BitVec.ofNat Format.binary64.exponentBits 1 := by
  intro hfull
  have hfield : b.toNat / 2 ^ 52 % 2 ^ 11 = 2047 := by
    have htoNat := congrArg BitVec.toNat hfull
    rw [UnpackedFloat.unpackExponent_def, BitVec.extractLsb'_toNat, Nat.shiftRight_eq_div_pow]
      at htoNat
    exact htoNat
  have hdiv : b.toNat / 2 ^ 52 < 2047 := Nat.div_lt_of_lt_mul (by rw [mul_comm]; exact h)
  omega

/-- A pattern below infinity is no NaN, so a double keeps it. -/
lemma pack_unpack_of_lt (h : b.toNat < infinityBits) :
    UnpackedFloat.pack Format.binary64 (UnpackedFloat.unpack Format.binary64 b) = b := by
  have hnan : UnpackedFloat.isNaNBits b = false :=
    decide_eq_false fun hb => unpackExponent_ne h hb.1
  rw [UnpackedFloat.pack_unpack, hnan, if_neg Bool.false_ne_true]

lemma isFinite_unpack (h : b.toNat < infinityBits) :
    (UnpackedFloat.unpack Format.binary64 b).isFinite = true := by
  rw [UnpackedFloat.unpack]
  simp only [if_neg (unpackExponent_ne h)]
  split_ifs <;> rfl

/-- A pattern below infinity takes no more room than there is. -/
lemma toNat_toBitVec {bits : Nat} (h : bits < infinityBits) :
    bits.toUInt64.toBitVec.toNat = bits := by
  rw [UInt64.toNat_toBitVec]
  exact Nat.mod_eq_of_lt (h.trans (by decide))

/-- A double whose pattern is below infinity is what the pattern says. -/
lemma unpack_ofBits {bits : Nat} (h : bits < infinityBits) :
    (Float.ofBits bits.toUInt64).toModel.unpack =
      UnpackedFloat.unpack Format.binary64 bits.toUInt64.toBitVec :=
  congrArg (UnpackedFloat.unpack Format.binary64) (pack_unpack_of_lt (by rwa [toNat_toBitVec h]))

/-- A pattern below infinity is that of a finite double. -/
lemma isFinite_ofBits {bits : Nat} (h : bits < infinityBits) :
    (Float.ofBits bits.toUInt64).isFinite = true := by
  rw [Float.isFinite, Float.Model.isFinite, unpack_ofBits h]
  exact isFinite_unpack (by rwa [toNat_toBitVec h])

lemma isFinite_of_nearest? {num den : Nat} {x : Float} (h : nearest? num den = some x) :
    x.isFinite = true := by
  simp only [nearest?] at h
  split_ifs at h with hbits
  cases h
  exact isFinite_ofBits hbits

/-- A decimal that is read is not rounded to infinity. -/
lemma isFinite_of_decimal {d : Decimal} {x : Float} (h : d.nearest? = some x) :
    x.isFinite = true := by
  unfold Decimal.nearest? at h
  split_ifs at h <;> exact isFinite_of_nearest? h

end Binary64

namespace Number

lemma isFinite_of_literal? {s : List Char} {x : Float} (h : literal? s = some (.float x)) :
    x.isFinite = true := by
  unfold literal? at h
  split at h
  · split at h <;> exact absurd h (by simp)
  · split at h
    · obtain ⟨y, hy, hx⟩ := Option.map_eq_some_iff.1 h
      cases hx
      exact Binary64.isFinite_of_decimal hy
    · exact absurd h (by simp)

end Number

end InfixCalculator
