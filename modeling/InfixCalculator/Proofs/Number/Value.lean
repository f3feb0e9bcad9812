import InfixCalculator.Proofs.Number.Finite
import InfixCalculator.Proofs.Number.Rounding

/-!
# The values of doubles

A finite double is a sign, a significand and a power of two, and its value is what these make
(`value`).  The bit pattern without the sign tells how many units that is (`value_eq`).  The doubles
without sign are the patterns below that of infinity, each of which is one double (`eq_ofBits_iff`).
-/

namespace InfixCalculator.Binary64

open Float.Model

variable {x : Float} {bits : ℕ} {b : BitVec Format.binary64.numBits}

/-- The value of a double that has been taken apart; zero if it has none. -/
def unpackedValue : UnpackedFloat → ℚ
  | .finite sign mantissa exponent _ => sign.apply mantissa * 2 ^ exponent
  | _ => 0

/-- The value of a finite double. -/
def value (x : Float) : ℚ :=
  unpackedValue x.toModel.unpack

/-! ## Taking patterns apart -/

/-- The fields of a pattern: the exponent and the mantissa. -/
lemma toNat_fields (b : BitVec Format.binary64.numBits) :
    (UnpackedFloat.unpackExponent b).toNat = b.toNat % signBit / fieldUnit ∧
      (UnpackedFloat.unpackMantissa b).toNat = b.toNat % signBit % fieldUnit := by
  have hsign : signBit = 2 ^ 63 := rfl
  have hunit : fieldUnit = 2 ^ 52 := rfl
  constructor
  · rw [UnpackedFloat.unpackExponent_def, BitVec.extractLsb'_toNat, Nat.shiftRight_eq_div_pow,
      hsign, hunit]
    change b.toNat / 2 ^ 52 % 2 ^ 11 = _
    omega
  · rw [UnpackedFloat.unpackMantissa_def, BitVec.extractLsb'_toNat, Nat.shiftRight_zero, hsign,
      hunit]
    change b.toNat % 2 ^ 52 = _
    omega

/-- The sign of a pattern. -/
lemma unpackSign_eq (b : BitVec Format.binary64.numBits) :
    UnpackedFloat.Sign.ofBitVec (UnpackedFloat.unpackSign b) =
      if signBit ≤ b.toNat then .negative else .positive := by
  have hlt : b.toNat < 2 ^ 64 := b.isLt
  have hsign : signBit = 2 ^ 63 := rfl
  have hbit : (UnpackedFloat.unpackSign b).toNat = b.toNat / 2 ^ 63 % 2 ^ 1 := by
    rw [UnpackedFloat.unpackSign_def, BitVec.extractLsb'_toNat, Nat.shiftRight_eq_div_pow]
    rfl
  have hzero : UnpackedFloat.unpackSign b = 0#1 ↔ ¬signBit ≤ b.toNat := by
    rw [← BitVec.toNat_inj, hbit, hsign]
    simp only [BitVec.toNat_ofNat]
    omega
  rw [UnpackedFloat.Sign.ofBitVec]
  by_cases h : signBit ≤ b.toNat
  · rw [if_pos h, if_neg (fun hb => hzero.1 hb h)]
  · rw [if_neg h, if_pos (hzero.2 h)]

lemma toNat_one_append (m : BitVec 52) : (1#1 ++ m).toNat = fieldUnit + m.toNat := by
  rw [BitVec.toNat_append, ← Nat.shiftLeft_add_eq_or_of_lt m.isLt]
  rfl

/-- The exponent field is full from the pattern of infinity on. -/
lemma unpackExponent_eq_iff (b : BitVec Format.binary64.numBits) :
    UnpackedFloat.unpackExponent b = -BitVec.ofNat Format.binary64.exponentBits 1 ↔
      infinityBits ≤ b.toNat % signBit := by
  have hlt : b.toNat % signBit < 2 ^ 63 := Nat.mod_lt _ (by decide)
  have hinfinity : infinityBits = 2047 * 2 ^ 52 := rfl
  have hunit : fieldUnit = 2 ^ 52 := rfl
  have hfull : (-BitVec.ofNat Format.binary64.exponentBits 1).toNat = 2047 := rfl
  rw [← BitVec.toNat_inj, (toNat_fields b).1, hfull, hinfinity, hunit]
  omega

lemma isFinite_unpack_iff (b : BitVec Format.binary64.numBits) :
    (UnpackedFloat.unpack Format.binary64 b).isFinite = true ↔
      b.toNat % signBit < infinityBits := by
  rw [← not_le, ← unpackExponent_eq_iff, UnpackedFloat.unpack]
  by_cases h : UnpackedFloat.unpackExponent b = -BitVec.ofNat Format.binary64.exponentBits 1
  · simp only [if_pos h]
    split_ifs <;> exact iff_of_false Bool.false_ne_true (not_not.2 h)
  · simp only [if_neg h]
    split_ifs <;> exact iff_of_true rfl h

/-- The sign of a pattern as a factor. -/
def signFactor (b : BitVec Format.binary64.numBits) : ℚ :=
  if signBit ≤ b.toNat then -1 else 1

lemma cast_apply_sign (b : BitVec Format.binary64.numBits) (n : ℕ) :
    (((UnpackedFloat.Sign.ofBitVec (UnpackedFloat.unpackSign b)).apply n : ℤ) : ℚ) =
      signFactor b * n := by
  rw [unpackSign_eq, signFactor]
  split_ifs <;> simp [UnpackedFloat.Sign.apply]

/-- Without an exponent the mantissa is a number of units. -/
lemma unpackedValue_of_subnormal (h : UnpackedFloat.unpackExponent b = 0) :
    unpackedValue (UnpackedFloat.unpack Format.binary64 b) =
      signFactor b * ((UnpackedFloat.unpackMantissa b).toNat / 2 ^ 1074) := by
  have hfull : ¬UnpackedFloat.unpackExponent b = -BitVec.ofNat Format.binary64.exponentBits 1 := by
    rw [h]
    decide
  have hleast : (((UnpackedFloat.unpackExponent b).toNat : ℤ) - (Format.binary64.exponentBias +
      Format.binary64.mantissaBitsWithoutImplicit) + 1) = -(1074 : ℕ) := by
    rw [h]
    rfl
  rw [UnpackedFloat.unpack]
  simp only [if_neg hfull]
  split_ifs with hzero hmantissa
  · rw [hmantissa]
    simp [unpackedValue]
  · rw [unpackedValue, cast_apply_sign, hleast, zpow_neg, zpow_natCast, mul_assoc, div_eq_mul_inv]
  · exact absurd h hzero

/-- With an exponent there is a leading bit before the mantissa. -/
lemma unpackedValue_of_normal {exponent : ℕ}
    (h : (UnpackedFloat.unpackExponent b).toNat = exponent + 1)
    (hfull : UnpackedFloat.unpackExponent b ≠ -BitVec.ofNat Format.binary64.exponentBits 1) :
    unpackedValue (UnpackedFloat.unpack Format.binary64 b) =
      signFactor b *
        ((fieldUnit + (UnpackedFloat.unpackMantissa b).toNat : ℕ) * 2 ^ exponent / 2 ^ 1074) := by
  have hzero : ¬UnpackedFloat.unpackExponent b = 0 := by
    intro hzero
    rw [hzero] at h
    exact absurd h (by simp)
  have hbias : (((UnpackedFloat.unpackExponent b).toNat : ℤ) - (Format.binary64.exponentBias +
      Format.binary64.mantissaBitsWithoutImplicit)) = (exponent : ℤ) - (1074 : ℕ) := by
    have hconstant : (Format.binary64.exponentBias : ℤ) +
        Format.binary64.mantissaBitsWithoutImplicit = 1075 := rfl
    rw [h, hconstant]
    push_cast
    ring
  rw [UnpackedFloat.unpack]
  simp only [if_neg hfull]
  split_ifs with hfield
  · exact absurd hfield hzero
  · exact absurd hfield hzero
  · rw [unpackedValue, cast_apply_sign, hbias, zpow_sub₀ two_ne_zero, zpow_natCast, zpow_natCast,
      toNat_one_append, mul_assoc, mul_div_assoc]

/-- A double is its number of units, with the sign of its pattern. -/
lemma unpackedValue_unpack (h : b.toNat % signBit < infinityBits) :
    unpackedValue (UnpackedFloat.unpack Format.binary64 b) =
      signFactor b * (unitsAt (b.toNat % signBit) / 2 ^ 1074) := by
  obtain ⟨hexponent, hmantissa⟩ := toNat_fields b
  have hsplit := Nat.mod_add_div (b.toNat % signBit) fieldUnit
  have hmod := Nat.mod_lt (b.toNat % signBit) fieldUnit_pos
  rw [← hexponent, ← hmantissa] at hsplit
  rw [← hmantissa] at hmod
  rw [← hsplit]
  cases hfield : (UnpackedFloat.unpackExponent b).toNat with
  | zero =>
    have hbits : (UnpackedFloat.unpackMantissa b).toNat + fieldUnit * 0 =
        (UnpackedFloat.unpackMantissa b).toNat + 0 * fieldUnit := by ring
    rw [unpackedValue_of_subnormal (BitVec.eq_of_toNat_eq hfield), hbits,
      unitsAt_add (by omega) (.inl rfl), pow_zero, mul_one]
  | succ exponent =>
    have hfull : UnpackedFloat.unpackExponent b ≠ -BitVec.ofNat Format.binary64.exponentBits 1 := by
      rw [Ne, unpackExponent_eq_iff]
      omega
    have hbits : (UnpackedFloat.unpackMantissa b).toNat + fieldUnit * (exponent + 1) =
        fieldUnit + (UnpackedFloat.unpackMantissa b).toNat + exponent * fieldUnit := by ring
    rw [unpackedValue_of_normal hfield hfull, hbits,
      unitsAt_add (by omega) (.inr (Nat.le_add_right _ _))]
    push_cast
    rfl

/-! ## Patterns without sign -/

/-- The value of a bit pattern without sign.  Infinity has the value of the power that follows the
largest double. -/
def valueAt (bits : ℕ) : ℚ :=
  unitsAt bits / 2 ^ 1074

lemma valueAt_nonneg (bits : ℕ) : 0 ≤ valueAt bits := by
  unfold valueAt
  positivity

lemma strictMono_valueAt : StrictMono valueAt :=
  fun _ _ h => div_lt_div_of_pos_right (strictMono_unitsAt_cast h) (by positivity)

lemma valueAt_zero : valueAt 0 = 0 := by
  have hzero : unitsAt 0 = 0 := rfl
  rw [valueAt, hzero, Nat.cast_zero, zero_div]

/-- The pattern of infinity stands for the power of two after the largest double. -/
lemma valueAt_infinityBits : valueAt infinityBits = 2 ^ 1024 := by
  have hunit : (fieldUnit : ℚ) = 2 ^ 52 := by norm_num [fieldUnit]
  have hbits : infinityBits = fieldUnit + 2046 * fieldUnit := rfl
  have hexponent : 52 + 2046 = 1024 + 1074 := rfl
  rw [valueAt, hbits, unitsAt_add (by omega) (.inr le_rfl), div_eq_iff (by positivity),
    Nat.cast_mul, Nat.cast_pow, Nat.cast_ofNat, hunit, ← pow_add, ← pow_add, hexponent]

/-! ## Doubles and their patterns -/

lemma isFinite_iff : x.isFinite = true ↔ magnitudeBits x < infinityBits :=
  isFinite_unpack_iff x.toModel.toBits.toBitVec

/-- A finite double has the value of its pattern, with its sign. -/
lemma value_eq (h : x.isFinite = true) :
    value x = if isNegative x = true then -valueAt (magnitudeBits x) else valueAt (magnitudeBits x) := by
  have hvalue : value x = signFactor x.toModel.toBits.toBitVec * valueAt (magnitudeBits x) :=
    unpackedValue_unpack (isFinite_iff.1 h)
  have hsign : signFactor x.toModel.toBits.toBitVec = if isNegative x = true then -1 else 1 :=
    if_congr decide_eq_true_iff.symm rfl rfl
  rw [hvalue, hsign]
  split_ifs <;> simp

lemma toNat_toBits_ofBits (h : bits < infinityBits) :
    (Float.ofBits bits.toUInt64).toBits.toNat = bits := by
  have hpack : (Float.ofBits bits.toUInt64).toBits.toBitVec = bits.toUInt64.toBitVec :=
    pack_unpack_of_lt (by rwa [toNat_toBitVec h])
  rw [← UInt64.toNat_toBitVec, hpack, toNat_toBitVec h]

lemma toBits_injective : Function.Injective Float.toBits := by
  rintro ⟨⟨bits, hbits⟩⟩ ⟨⟨bits', hbits'⟩⟩ h
  obtain rfl : bits = bits' := h
  rfl

/-- A pattern below infinity has no sign bit. -/
lemma magnitudeBits_ofBits (h : bits < infinityBits) :
    magnitudeBits (Float.ofBits bits.toUInt64) = bits ∧
      isNegative (Float.ofBits bits.toUInt64) = false := by
  have hlt : bits < signBit := h.trans (by decide)
  rw [magnitudeBits, isNegative, toNat_toBits_ofBits h, Nat.mod_eq_of_lt hlt]
  exact ⟨rfl, decide_eq_false (Nat.not_le.2 hlt)⟩

lemma toNat_toBits_of_positive (h : isNegative x = false) : x.toBits.toNat = magnitudeBits x := by
  have hlt : x.toBits.toNat < signBit := Nat.not_le.1 (of_decide_eq_false h)
  rw [magnitudeBits, Nat.mod_eq_of_lt hlt]

/-- A finite double without sign is that of its pattern. -/
lemma eq_ofBits_iff (h : bits < infinityBits) :
    x = Float.ofBits bits.toUInt64 ↔ isNegative x = false ∧ magnitudeBits x = bits := by
  constructor
  · rintro rfl
    exact (magnitudeBits_ofBits h).symm
  · rintro ⟨hsign, hbits⟩
    apply toBits_injective
    apply UInt64.toNat_inj.1
    rw [toNat_toBits_of_positive hsign, hbits, toNat_toBits_ofBits h]

end InfixCalculator.Binary64
