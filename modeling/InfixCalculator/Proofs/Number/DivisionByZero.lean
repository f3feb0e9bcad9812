import InfixCalculator.Proofs.Number.Faults
import InfixCalculator.Proofs.Number.Finite
import InfixCalculator.Proofs.Number.Rounding
import InfixCalculator.Proofs.Number.Written

/-!
# What divides by zero

An integer other than zero is not rounded to a zero (`Binary64.eq_zero_of_ofInt?`), and one that is
not negative is not rounded to a double below zero (`Binary64.neg_of_ofInt?`).  So whether a divisor
is zero, or a base is zero and its exponent negative, can be told before the operands are made
doubles, and these are the only divisions by zero (`Operator.dividesByZero_of_apply`).  An integer
that is rounded at all is so short that it can be written (`Binary64.isWritable_of_ofInt?`).
-/

namespace InfixCalculator

namespace Binary64

open Float.Model

variable {bits : Nat} {x : Float} {n : Int}

/-! ## Zeros and signs -/

/-- The doubles that equal zero are the two zeros. -/
lemma beq_zero_iff : (x == 0) = true ↔ x = 0 ∨ x = -0 := by
  have hpos : (0 : Float) ≠ Float.nan := by decide +kernel
  have hneg : (-0 : Float) ≠ Float.nan := by decide +kernel
  rw [Float.beq_iff_ne_nan_and_eq]
  constructor
  · rintro ⟨-, -, rfl | ⟨rfl, -⟩ | ⟨rfl, -⟩⟩
    · exact .inl rfl
    · exact .inl rfl
    · exact .inr rfl
  · rintro (rfl | rfl)
    · exact ⟨hpos, hpos, .inl rfl⟩
    · exact ⟨hneg, hpos, .inr (.inr ⟨rfl, rfl⟩)⟩

lemma beq_zero_iff_unpack : (x == 0) = true ↔ ∃ s, x.toModel.unpack = .zero s := by
  change x.toModel.unpack.beq (.zero .positive) = true ↔ _
  rw [UnpackedFloat.beq_iff_ne_notANumber_and_eq]
  constructor
  · rintro ⟨-, -, h | ⟨-, h⟩ | ⟨h, -⟩⟩
    · exact ⟨_, h⟩
    · exact absurd h (by simp)
    · exact ⟨_, h⟩
  · rintro ⟨s | s, h⟩ <;> simp [h]

/-- A pattern is that of a zero if nothing but its sign is set. -/
lemma exists_unpack_eq_zero_iff {b : BitVec Format.binary64.numBits} :
    (∃ s, UnpackedFloat.unpack Format.binary64 b = .zero s) ↔
      UnpackedFloat.unpackExponent b = 0 ∧ UnpackedFloat.unpackMantissa b = 0 := by
  have hfull : (0 : BitVec Format.binary64.exponentBits) ≠ -BitVec.ofNat _ 1 := by decide
  rw [UnpackedFloat.unpack]
  split_ifs with hinf hmant hexp hmant
  · simp [hinf]
  · simp [hinf]
  · simpa [hexp] using hmant
  · simpa [hexp] using hmant
  · simpa using fun h => absurd h hexp

/-- Changing the sign leaves the rest of a pattern as it is. -/
lemma fields_pack_neg (spec : Format) (u : UnpackedFloat) :
    UnpackedFloat.unpackExponent (u.neg.pack spec) = UnpackedFloat.unpackExponent (u.pack spec) ∧
      UnpackedFloat.unpackMantissa (u.neg.pack spec) =
        UnpackedFloat.unpackMantissa (u.pack spec) := by
  cases u with
  | notANumber => exact ⟨rfl, rfl⟩
  | infinity s => simp [UnpackedFloat.neg, UnpackedFloat.pack, UnpackedFloat.packedInfinity]
  | zero s => simp [UnpackedFloat.neg, UnpackedFloat.pack, UnpackedFloat.packedZero]
  | finite s m e hm =>
    simp only [UnpackedFloat.neg, UnpackedFloat.pack, UnpackedFloat.packedInfinity]
    split_ifs <;> simp

lemma neg_beq_zero : (-x == 0) = true ↔ (x == 0) = true := by
  have hx : x.toModel.unpack.pack Format.binary64 = x.toModel.toBits.toBitVec :=
    UnpackedFloat.pack_unpack_of_valid x.toModel.valid
  have hneg : (-x).toModel.unpack =
      UnpackedFloat.unpack Format.binary64 (x.toModel.unpack.neg.pack Format.binary64) := rfl
  obtain ⟨hexponent, hmantissa⟩ := fields_pack_neg Format.binary64 x.toModel.unpack
  rw [beq_zero_iff_unpack, beq_zero_iff_unpack, hneg, exists_unpack_eq_zero_iff, hexponent, hmantissa,
    hx, ← exists_unpack_eq_zero_iff]
  rfl

/-- Below infinity, only the pattern zero is that of a zero. -/
lemma eq_zero_of_ofBits (h : bits < infinityBits) (hz : (Float.ofBits bits.toUInt64 == 0) = true) :
    bits = 0 := by
  rw [beq_zero_iff_unpack, unpack_ofBits h, exists_unpack_eq_zero_iff] at hz
  have hexponent : bits / 2 ^ 52 % 2 ^ 11 = 0 := by
    have htoNat := congrArg BitVec.toNat hz.1
    rw [UnpackedFloat.unpackExponent_def, BitVec.extractLsb'_toNat, Nat.shiftRight_eq_div_pow,
      toNat_toBitVec h] at htoNat
    exact htoNat
  have hmantissa : bits % 2 ^ 52 = 0 := by
    have htoNat := congrArg BitVec.toNat hz.2
    rw [UnpackedFloat.unpackMantissa_def, BitVec.extractLsb'_toNat, Nat.shiftRight_zero,
      toNat_toBitVec h] at htoNat
    exact htoNat
  have hlt : bits < 2047 * 2 ^ 52 := h
  omega

/-- A pattern below infinity has no sign. -/
lemma unpackSign_of_lt {b : BitVec Format.binary64.numBits} (h : b.toNat < infinityBits) :
    UnpackedFloat.unpackSign b = 0 := by
  have hlt : b.toNat < 2047 * 2 ^ 52 := h
  have hbit : b.toNat / 2 ^ 63 % 2 ^ 1 = 0 := by omega
  apply BitVec.eq_of_toNat_eq
  rw [UnpackedFloat.unpackSign_def, BitVec.extractLsb'_toNat, Nat.shiftRight_eq_div_pow]
  exact hbit

lemma not_ofBits_lt_zero (h : bits < infinityBits) : ¬Float.ofBits bits.toUInt64 < 0 := by
  have hsign := unpackSign_of_lt (show bits.toUInt64.toBitVec.toNat < infinityBits by
    rwa [toNat_toBitVec h])
  change ¬decide ((Float.ofBits bits.toUInt64).toModel.unpack.lt (.zero .positive) = true) = true
  rw [unpack_ofBits h, UnpackedFloat.unpack]
  simp only [hsign]
  split_ifs <;> simp [UnpackedFloat.lt, UnpackedFloat.compare, UnpackedFloat.Sign.ofBitVec]

/-! ## Rounding -/

lemma unitsPerOne_pos : 0 < unitsPerOne := by
  unfold unitsPerOne
  generalize 1074 = k
  exact Nat.pow_pos two_pos

/-- The significand of a number that is not zero is not zero. -/
lemma nearestBits_ne_zero {n : Nat} (hn : n ≠ 0) : nearestBits n 1 ≠ 0 := by
  have hscaled : n * unitsPerOne ≠ 0 := Nat.mul_ne_zero hn unitsPerOne_pos.ne'
  rw [nearestBits]
  generalize n * unitsPerOne = scaled at hscaled
  have hpow : 2 ^ ((scaled / 1).log2 - 52) ≤ scaled := by
    rw [Nat.div_one]
    exact (Nat.pow_le_pow_right two_pos (Nat.sub_le _ _)).trans (Nat.log2_self_le hscaled)
  have hpos : 0 < scaled / (1 * Nat.pow 2 ((scaled / 1).log2 - 52)) := by
    rw [one_mul]
    exact Nat.div_pos hpow (Nat.pow_pos two_pos)
  have hround := (roundHalfEven_bounds scaled (1 * Nat.pow 2 ((scaled / 1).log2 - 52))).1
  omega

/-- The exponent field tells how many binary digits there are, units included. -/
lemma lt_two_pow_of_nearestBits {n : Nat} (h : nearestBits n 1 < infinityBits) : n < 2 ^ 2099 := by
  rcases Nat.eq_zero_or_pos n with rfl | hn
  · positivity
  have hscaled : n * unitsPerOne ≠ 0 := Nat.mul_ne_zero hn.ne' unitsPerOne_pos.ne'
  have hle : n ≤ n * unitsPerOne := Nat.le_mul_of_pos_right n unitsPerOne_pos
  rw [nearestBits, Nat.div_one] at h
  have hfield : ((n * unitsPerOne).log2 - 52) * fieldUnit < 2047 * fieldUnit :=
    lt_of_le_of_lt (Nat.le_add_left _ _) h
  have hexponent : (n * unitsPerOne).log2 - 52 < 2047 := Nat.lt_of_mul_lt_mul_right hfield
  have hlog {m k : Nat} (hm : m ≠ 0) (hk : m.log2 < k) : m < 2 ^ k := (Nat.log2_lt hm).1 hk
  exact hle.trans_lt (hlog hscaled (by omega))

lemma nearest?_eq_some {num den : Nat} (h : nearest? num den = some x) :
    nearestBits num den < infinityBits ∧ x = Float.ofBits (nearestBits num den).toUInt64 := by
  simp only [nearest?] at h
  split_ifs at h with hbits
  exact ⟨hbits, (Option.some.inj h).symm⟩

lemma ofInt?_eq_some (h : ofInt? n = some x) :
    nearestBits n.natAbs 1 < infinityBits ∧
      x = if n < 0 then -Float.ofBits (nearestBits n.natAbs 1).toUInt64
        else Float.ofBits (nearestBits n.natAbs 1).toUInt64 := by
  obtain ⟨y, hy, rfl⟩ := Option.map_eq_some_iff.1 h
  obtain ⟨hbits, rfl⟩ := nearest?_eq_some hy
  exact ⟨hbits, rfl⟩

lemma eq_zero_of_ofInt? (h : ofInt? n = some x) (hz : (x == 0) = true) : n = 0 := by
  obtain ⟨hbits, rfl⟩ := ofInt?_eq_some h
  have hzero : (Float.ofBits (nearestBits n.natAbs 1).toUInt64 == 0) = true := by
    split_ifs at hz
    · exact neg_beq_zero.1 hz
    · exact hz
  by_contra hn
  exact nearestBits_ne_zero (Int.natAbs_ne_zero.2 hn) (eq_zero_of_ofBits hbits hzero)

lemma neg_of_ofInt? (h : ofInt? n = some x) (hneg : x < 0) : n < 0 := by
  obtain ⟨hbits, rfl⟩ := ofInt?_eq_some h
  by_contra hn
  rw [if_neg hn] at hneg
  exact not_ofBits_lt_zero hbits hneg

lemma isWritable_of_ofInt? (h : ofInt? n = some x) : Numeral.isWritable n = true := by
  have hlt : n.natAbs < 2 ^ 2099 := lt_two_pow_of_nearestBits (ofInt?_eq_some h).1
  have hle : 2 ^ 2099 ≤ 2 ^ 14190 := pow_le_pow_right₀ one_le_two (by norm_num)
  exact Numeral.isWritable_of_natAbs_lt (hlt.trans_le hle)

lemma power_eq_divisionByZero {y : Float} (h : power x y = .error .divisionByZero) :
    (x == 0) = true ∧ y < 0 := by
  unfold power at h
  split_ifs at h with _ _ _ _ _ hx hy
  · exact ⟨hx, hy⟩
  · unfold ordinaryPower at h
    simp only at h
    split_ifs at h <;> exact absurd h (by simp)

end Binary64

namespace Number

/-- The numbers that equal zero: an integer and two doubles. -/
def zeros : List Number :=
  [int 0, float 0, float (-0)]

/-- The integers in the text of a number. -/
def integers : Number → List Int
  | int n => [n]
  | float _ => []

variable {left right n : Number} {x : Float}

lemma isZero_iff : n.isZero = true ↔ n ∈ zeros := by
  cases n with
  | int n => simp [isZero, zeros]
  | float x => simp [isZero, zeros, Binary64.beq_zero_iff]

/-! ## Operands that are made doubles -/

lemma isZero_of_toFloat (h : n.toFloat = .ok x) (hz : (x == 0) = true) : n.isZero = true := by
  rcases toFloat_eq_ok h with ⟨k, rfl, hk⟩ | rfl
  · simp [isZero, Binary64.eq_zero_of_ofInt? hk hz]
  · exact hz

lemma isNegative_of_toFloat (h : n.toFloat = .ok x) (hneg : x < 0) : n.isNegative = true := by
  rcases toFloat_eq_ok h with ⟨k, rfl, hk⟩ | rfl
  · exact decide_eq_true (Binary64.neg_of_ofInt? hk hneg)
  · exact decide_eq_true hneg

lemma isWritable_of_toFloat (h : n.toFloat = .ok x) :
    ∀ k ∈ n.integers, Numeral.isWritable k = true := by
  rcases toFloat_eq_ok h with ⟨k, rfl, hk⟩ | rfl
  · exact List.forall_mem_singleton.2 (Binary64.isWritable_of_ofInt? hk)
  · exact List.forall_mem_nil _

/-! ## Operations -/

lemma isZero_of_div (h : Number.div left right = .error .divisionByZero) :
    right.isZero = true := by
  unfold Number.div at h
  split at h
  · unfold intQuotient at h
    split_ifs at h with hb
    · simp [isZero, hb]
    · split at h <;> exact absurd h (by simp)
  · rcases inDoubles_eq_error h with hf | ⟨x, y, -, hy, hxy⟩
    · exact absurd hf (by simp)
    · split_ifs at hxy with hz
      exact isZero_of_toFloat hy hz

lemma isZero_of_power (h : inDoubles Binary64.power left right = .error .divisionByZero) :
    left.isZero = true ∧ right.isNegative = true := by
  rcases inDoubles_eq_error h with hf | ⟨x, y, hx, hy, hxy⟩
  · exact absurd hf (by simp)
  · obtain ⟨hz, hneg⟩ := Binary64.power_eq_divisionByZero hxy
    exact ⟨isZero_of_toFloat hx hz, isNegative_of_toFloat hy hneg⟩

lemma isZero_of_pow (h : Number.pow left right = .error .divisionByZero) :
    left.isZero = true ∧ right.isNegative = true := by
  unfold Number.pow at h
  split at h
  · split_ifs at h
    exact isZero_of_power h
  · exact isZero_of_power h

end Number

namespace Operator

variable {op : Operator} {left right : Number}

/-- The operation is a quotient whose divisor equals zero, or a negative power of a base that does. -/
def DividesByZero (op : Operator) (left right : Number) : Prop :=
  op = .div ∧ right ∈ Number.zeros ∨
    op = .pow ∧ left ∈ Number.zeros ∧ right.isNegative = true

lemma dividesByZero_iff :
    op.DividesByZero left right ↔
      op = .div ∧ right.isZero = true ∨
        op = .pow ∧ left.isZero = true ∧ right.isNegative = true := by
  rw [DividesByZero, ← Number.isZero_iff, ← Number.isZero_iff]

lemma dividesByZero_of_apply (h : op.apply left right = .error .divisionByZero) :
    op.DividesByZero left right := by
  rw [dividesByZero_iff]
  rcases apply_eq_error h with hf | ⟨-, rfl | rfl⟩ | ⟨hf, -⟩
  · exact absurd hf (by simp)
  · exact .inl ⟨rfl, Number.isZero_of_div h⟩
  · exact .inr ⟨rfl, Number.isZero_of_pow h⟩
  · exact absurd hf (by simp)

/-- The operands of a power off the real line have been made doubles, so they are not too long. -/
lemma isWritable_of_notReal (h : op.apply left right = .error .notReal) :
    ∀ k ∈ left.integers ++ right.integers, Numeral.isWritable k = true := by
  have hdoubles (h : Number.inDoubles Binary64.power left right = .error .notReal) :
      ∀ k ∈ left.integers ++ right.integers, Numeral.isWritable k = true := by
    rcases Number.inDoubles_eq_error h with hf | ⟨x, y, hx, hy, -⟩
    · exact absurd hf (by simp)
    · exact List.forall_mem_append.2
        ⟨Number.isWritable_of_toFloat hx, Number.isWritable_of_toFloat hy⟩
  rcases apply_eq_error h with hf | ⟨hf, -⟩ | ⟨-, rfl⟩
  · exact absurd hf (by simp)
  · exact absurd hf (by simp)
  · simp only [apply, Number.pow] at h
    split at h
    · split_ifs at h
      exact hdoubles h
    · exact hdoubles h

end Operator

end InfixCalculator
