import InfixCalculator.Binary64.Decimal
import InfixCalculator.Proofs.Number.Value

/-!
# The double nearest to a number

A double is nearest to a number if no finite double is nearer; where two are equally near, the last bit
of its pattern is not set.  A number is not rounded to the largest double if it is as near to the power
of two that would be the next one (`IsNearest`).  So a number has at most one nearest double, and it has
one if it lies below the middle between the largest double and that power (`exists_isNearest_iff`).

Quotients are rounded to their nearest doubles (`nearest?_eq_some_iff`), and decimals are read as theirs
(`Decimal.nearest?_eq_some_iff`).
-/

namespace InfixCalculator.Binary64

variable {x y : Float} {bits : ℕ} {v : ℚ}

/-! ## The nearest double -/

/-- The double is nearest to a number that is not negative.  Of two doubles that are equally near it is
the one whose last bit is not set, and the power of two after the largest double counts as one whose
last bit is not set. -/
structure IsNearest (v : ℚ) (x : Float) : Prop where
  isFinite : x.isFinite = true
  positive : isNegative x = false
  le : ∀ y : Float, y.isFinite = true → |v - value x| ≤ |v - value y|
  even : ∀ y : Float, y.isFinite = true → |v - value x| = |v - value y| →
    value y = value x ∨ Even x.toBits.toNat
  lt : |v - value x| < |v - 2 ^ 1024|

/-- Without its sign, a double is no further away from a number that is not negative. -/
lemma abs_sub_valueAt_le (hv : 0 ≤ v) (hy : y.isFinite = true) :
    |v - valueAt (magnitudeBits y)| ≤ |v - value y| := by
  have hnonneg := valueAt_nonneg (magnitudeBits y)
  rw [value_eq hy]
  split_ifs
  · rw [sub_neg_eq_add, abs_of_nonneg (add_nonneg hv hnonneg), abs_le]
    constructor <;> linarith
  · exact le_rfl

/-- The last finite pattern is odd, so a number is rounded to infinity from half-way between the two. -/
lemma Nearest.lt_succ_iff {f : ℕ → ℚ} {q : ℚ} {a n : ℕ} (hf : StrictMono f) (h : Nearest f q a)
    (hn : ¬Even n) : a < n + 1 ↔ q < (f n + f (n + 1)) / 2 := by
  have hstep : f n < f (n + 1) := hf (Nat.lt_succ_self n)
  constructor
  · intro hlt
    have hle : f a ≤ f n := hf.monotone (Nat.le_of_lt_succ hlt)
    have hnear := h.le (n + 1)
    by_contra hge
    push Not at hge
    have hbeyond : |q - f (n + 1)| ≤ q - f n := by
      rw [abs_le]
      constructor <;> linarith
    have habs : |q - f a| = q - f a := abs_of_nonneg (by linarith)
    have hsame : f a = f n := by linarith
    obtain rfl : a = n := hf.injective hsame
    rcases h.even (a + 1) (by linarith) with hcontra | heven
    · omega
    · exact hn heven
  · intro hlt
    by_contra hge
    have hle : f (n + 1) ≤ f a := hf.monotone (Nat.not_lt.1 hge)
    have hnear := h.le n
    have habs : |q - f a| = f a - q := by
      rw [abs_sub_comm]
      exact abs_of_nonneg (by linarith)
    have hcloser : |q - f n| < f (n + 1) - q := by
      rw [abs_lt]
      constructor <;> linarith
    linarith

/-- The pattern of the largest double is the one before that of infinity. -/
lemma exists_lastBits :
    ∃ last, infinityBits = last + 1 ∧ ¬Even last ∧ valueAt last = 2 ^ 1024 - 2 ^ 971 := by
  have hbits : infinityBits - 1 = 2 * fieldUnit - 1 + 2045 * fieldUnit := rfl
  have hunit : ((2 * fieldUnit - 1 : ℕ) : ℚ) = 2 ^ 53 - 1 := by norm_num [fieldUnit]
  refine ⟨infinityBits - 1, rfl, by decide, ?_⟩
  rw [valueAt, hbits, unitsAt_add (by omega) (.inr (by decide)), div_eq_iff (by positivity),
    Nat.cast_mul, Nat.cast_pow, Nat.cast_ofNat, hunit]
  have hlow : 2045 = 971 + 1074 := rfl
  have hhigh : 1024 = 53 + 971 := rfl
  rw [hlow, hhigh, pow_add, pow_add (2 : ℚ) 53]
  generalize (2 : ℚ) ^ 971 = low
  generalize (2 : ℚ) ^ 1074 = unit
  ring

lemma value_of_positive (h : x.isFinite = true) (hsign : isNegative x = false) :
    value x = valueAt (magnitudeBits x) := by
  rw [value_eq h, hsign, if_neg Bool.false_ne_true]

lemma value_ofBits (h : bits < infinityBits) :
    value (Float.ofBits bits.toUInt64) = valueAt bits := by
  obtain ⟨hbits, hsign⟩ := magnitudeBits_ofBits h
  rw [value_of_positive (isFinite_ofBits h) hsign, hbits]

/-- What is nearest lies below the power of two after the largest double, and is nearer than that. -/
lemma IsNearest.lt_infinity (h : IsNearest v x) :
    v < valueAt infinityBits ∧ |v - valueAt (magnitudeBits x)| < valueAt infinityBits - v := by
  have hless : valueAt (magnitudeBits x) < valueAt infinityBits :=
    strictMono_valueAt (isFinite_iff.1 h.isFinite)
  have hlt := h.lt
  rw [value_of_positive h.isFinite h.positive, ← valueAt_infinityBits] at hlt
  rcases lt_or_ge v (valueAt infinityBits) with hbelow | hge
  · refine ⟨hbelow, ?_⟩
    rwa [abs_of_neg (show v - valueAt infinityBits < 0 by linarith), neg_sub] at hlt
  · rw [abs_of_nonneg (by linarith), abs_of_nonneg (by linarith)] at hlt
    linarith

/-- From infinity on, patterns are further away than the nearest double. -/
lemma IsNearest.lt_of_infinityBits_le (h : IsNearest v x) (hbits : infinityBits ≤ bits) :
    |v - valueAt (magnitudeBits x)| < |v - valueAt bits| := by
  have hle : valueAt infinityBits ≤ valueAt bits := strictMono_valueAt.monotone hbits
  obtain ⟨hbelow, hlt⟩ := h.lt_infinity
  rw [abs_of_neg (show v - valueAt bits < 0 by linarith)]
  linarith

lemma IsNearest.nearest (h : IsNearest v x) : Nearest valueAt v (magnitudeBits x) := by
  have hvalue := value_of_positive h.isFinite h.positive
  constructor
  · intro bits
    rcases lt_or_ge bits infinityBits with hlt | hge
    · have hle := h.le _ (isFinite_ofBits hlt)
      rwa [hvalue, value_ofBits hlt] at hle
    · exact (h.lt_of_infinityBits_le hge).le
  · intro bits hsame
    rcases lt_or_ge bits infinityBits with hlt | hge
    · have heven := h.even _ (isFinite_ofBits hlt) (by rwa [hvalue, value_ofBits hlt])
      rw [hvalue, value_ofBits hlt, toNat_toBits_of_positive h.positive] at heven
      exact heven.imp_left fun heq => strictMono_valueAt.injective heq
    · exact absurd hsame (h.lt_of_infinityBits_le hge).ne

/-- Where a number that is not negative is as near to a value as to the opposite value, that value is
zero. -/
lemma eq_zero_of_abs_sub_eq {w : ℚ} (hv : 0 ≤ v) (hw : 0 ≤ w) (hle : |v - w| ≤ |v - 0|)
    (h : |v - w| = |v - -w|) : w = 0 := by
  rw [sub_zero, abs_of_nonneg hv] at hle
  rw [sub_neg_eq_add, abs_of_nonneg (add_nonneg hv hw)] at h
  linarith

/-- Which double is nearest is a matter of the patterns without sign. -/
lemma isNearest_iff (hv : 0 ≤ v) : IsNearest v x ↔
    isNegative x = false ∧ magnitudeBits x < infinityBits ∧ Nearest valueAt v (magnitudeBits x) := by
  constructor
  · intro h
    exact ⟨h.positive, isFinite_iff.1 h.isFinite, h.nearest⟩
  rintro ⟨hsign, hlt, hnear⟩
  have hfinite : x.isFinite = true := isFinite_iff.2 hlt
  have hvalue := value_of_positive hfinite hsign
  refine ⟨hfinite, hsign, fun y hy => ?_, fun y hy hsame => ?_, ?_⟩
  · rw [hvalue]
    exact (hnear.le _).trans (abs_sub_valueAt_le hv hy)
  · rw [hvalue] at hsame ⊢
    rw [toNat_toBits_of_positive hsign]
    have hle := abs_sub_valueAt_le hv hy
    refine (hnear.even (magnitudeBits y) (le_antisymm (hnear.le _) (hsame ▸ hle))).imp_left ?_
    intro hbits
    rw [value_eq hy, hbits] at hsame ⊢
    split_ifs at hsame ⊢
    -- the opposite double is as near only if both are zero
    · have hle := hnear.le 0
      rw [valueAt_zero] at hle
      rw [eq_zero_of_abs_sub_eq hv (valueAt_nonneg _) hle hsame, neg_zero]
    · rfl
  · obtain ⟨last, hlast, hodd, -⟩ := exists_lastBits
    have hstep : valueAt last < valueAt (last + 1) := strictMono_valueAt (Nat.lt_succ_self last)
    rw [hlast, hnear.lt_succ_iff strictMono_valueAt hodd] at hlt
    rw [hvalue, ← valueAt_infinityBits, hlast]
    refine (hnear.le last).trans_lt ?_
    rw [abs_of_neg (show v - valueAt (last + 1) < 0 by linarith), abs_lt]
    constructor <;> linarith

lemma cast_unitsPerOne : (unitsPerOne : ℚ) = 2 ^ 1074 := by
  unfold unitsPerOne
  generalize 1074 = k
  exact Nat.cast_pow 2 k

lemma nearest_valueAt_nearestBits (num : ℕ) {den : ℕ} (hden : 0 < den) :
    Nearest valueAt (num / den) (nearestBits num den) := by
  have hpos : (0 : ℚ) < (2 ^ 1074)⁻¹ := by positivity
  have hscaled := (nearest_nearestBits num hden).mul_right hpos
  rwa [cast_unitsPerOne, mul_inv_cancel_right₀ (by positivity)] at hscaled

lemma isNearest_iff_of_nearest {bits : ℕ} (hv : 0 ≤ v) (h : Nearest valueAt v bits) :
    IsNearest v x ↔ bits < infinityBits ∧ x = Float.ofBits bits.toUInt64 := by
  rw [isNearest_iff hv]
  constructor
  · rintro ⟨hsign, hlt, hnear⟩
    obtain rfl := hnear.eq strictMono_valueAt h
    exact ⟨hlt, (eq_ofBits_iff hlt).2 ⟨hsign, rfl⟩⟩
  · rintro ⟨hlt, hx⟩
    obtain ⟨hsign, rfl⟩ := (eq_ofBits_iff hlt).1 hx
    exact ⟨hsign, hlt, h⟩

/-- A quotient is rounded to the double that is nearest to it. -/
lemma nearest?_eq_some_iff (num : ℕ) {den : ℕ} (hden : 0 < den) :
    nearest? num den = some x ↔ IsNearest (num / den) x := by
  rw [isNearest_iff_of_nearest (by positivity) (nearest_valueAt_nearestBits num hden)]
  simp only [nearest?]
  split_ifs with h
  · simp [h, eq_comm]
  · simp [h]

/-- The numbers that have a nearest double are those below the middle between the largest double and the
power of two after it. -/
lemma exists_isNearest_iff (hv : 0 ≤ v) : (∃ x, IsNearest v x) ↔ v < 2 ^ 1024 - 2 ^ 970 := by
  have hquotient : (v.num.toNat : ℚ) / v.den = v := by
    have hnum : ((v.num.toNat : ℤ) : ℚ) = v.num := by rw [Int.toNat_of_nonneg (Rat.num_nonneg.2 hv)]
    rw [← Int.cast_natCast, hnum, Rat.num_div_den]
  have hnear := nearest_valueAt_nearestBits v.num.toNat v.den_pos
  rw [hquotient] at hnear
  obtain ⟨last, hlast, hodd, hvalue⟩ := exists_lastBits
  have hmiddle : (valueAt last + valueAt (last + 1)) / 2 = 2 ^ 1024 - 2 ^ 970 := by
    have hhalf : (2 : ℚ) ^ 971 = 2 ^ 970 * 2 := pow_succ 2 970
    rw [← hlast, hvalue, valueAt_infinityBits, hhalf]
    generalize (2 : ℚ) ^ 1024 = bound
    generalize (2 : ℚ) ^ 970 = half
    ring
  rw [← hmiddle, ← hnear.lt_succ_iff strictMono_valueAt hodd, ← hlast]
  simp only [isNearest_iff_of_nearest hv hnear, exists_and_left, exists_eq, and_true]

/-! ## Decimals -/

/-- The value of a decimal. -/
def Decimal.value (d : Decimal) : ℚ :=
  d.significand * 10 ^ d.exponent

lemma Decimal.value_nonneg (d : Decimal) : 0 ≤ d.value := by
  unfold value
  positivity

/-- A number less than half a unit is rounded to zero. -/
lemma nearest_zero (hv : 0 ≤ v) (h : v < valueAt 1 / 2) : Nearest valueAt v 0 := by
  have hfar {bits : ℕ} (hne : bits ≠ 0) : |v - valueAt 0| < |v - valueAt bits| := by
    have hle : valueAt 1 ≤ valueAt bits :=
      strictMono_valueAt.monotone (Nat.one_le_iff_ne_zero.2 hne)
    rw [valueAt_zero, sub_zero, abs_of_nonneg hv, abs_sub_comm, abs_of_nonneg (by linarith)]
    linarith
  constructor
  · intro bits
    rcases eq_or_ne bits 0 with rfl | hne
    · exact le_rfl
    · exact (hfar hne).le
  · intro bits _
    exact .inr Even.zero

/-- Ten to a power is at least two to three times that power. -/
lemma two_pow_three_mul_le (k : ℕ) : (2 : ℚ) ^ (3 * k) ≤ 10 ^ k := by
  rw [pow_mul]
  exact pow_le_pow_left₀ (by norm_num) (by norm_num) k

lemma Decimal.two_pow_le_value {d : Decimal} (hs : d.significand ≠ 0) (he : 400 < d.exponent) :
    2 ^ 1024 ≤ d.value := by
  have hone : (1 : ℚ) ≤ d.significand := by exact_mod_cast Nat.one_le_iff_ne_zero.2 hs
  calc (2 : ℚ) ^ 1024 ≤ 2 ^ (3 * 400) := pow_le_pow_right₀ one_le_two (by norm_num)
    _ ≤ 10 ^ 400 := two_pow_three_mul_le 400
    _ = 10 ^ (400 : ℤ) := (zpow_natCast 10 400).symm
    _ ≤ 10 ^ d.exponent := zpow_le_zpow_right₀ (by norm_num) he.le
    _ ≤ d.significand * 10 ^ d.exponent := le_mul_of_one_le_left (by positivity) hone

lemma Decimal.value_lt_of_small {d : Decimal}
    (h : (d.significand.log2 / 3 + 1 : ℕ) + d.exponent < -400) : d.value < valueAt 1 / 2 := by
  have hdigits : (d.significand : ℚ) < 10 ^ (d.significand.log2 / 3 + 1) := by
    have hlog : d.significand < 2 ^ (3 * (d.significand.log2 / 3 + 1)) :=
      Nat.lt_log2_self.trans_le (Nat.pow_le_pow_right two_pos (by omega))
    calc (d.significand : ℚ) < 2 ^ (3 * (d.significand.log2 / 3 + 1)) := by exact_mod_cast hlog
      _ ≤ 10 ^ (d.significand.log2 / 3 + 1) := two_pow_three_mul_le _
  have hone : unitsAt 1 = 1 := rfl
  have hbound : ((10 : ℚ) ^ 400)⁻¹ ≤ valueAt 1 / 2 := by
    rw [valueAt, hone, Nat.cast_one, div_div, ← pow_succ, one_div]
    refine inv_anti₀ (by positivity) ?_
    exact (pow_le_pow_right₀ one_le_two (by norm_num)).trans (two_pow_three_mul_le 400)
  refine lt_of_lt_of_le ?_ hbound
  calc (d.significand : ℚ) * 10 ^ d.exponent
      < 10 ^ (d.significand.log2 / 3 + 1) * 10 ^ d.exponent :=
        mul_lt_mul_of_pos_right hdigits (by positivity)
    _ = 10 ^ (((d.significand.log2 / 3 + 1 : ℕ) : ℤ) + d.exponent) := by
        rw [zpow_add₀ (by norm_num), zpow_natCast]
    _ ≤ 10 ^ (-400 : ℤ) := zpow_le_zpow_right₀ (by norm_num) h.le
    _ = ((10 : ℚ) ^ 400)⁻¹ := zpow_neg_coe_of_pos 10 (by norm_num)

/-- A decimal is read as the double that is nearest to it.  Decimals far above the largest double or far
below the least one are known by their size. -/
lemma Decimal.nearest?_eq_some_iff {d : Decimal} : d.nearest? = some x ↔ IsNearest d.value x := by
  have hpos : 0 < valueAt 1 := valueAt_zero ▸ strictMono_valueAt Nat.zero_lt_one
  have hzero : Nearest valueAt 0 0 := nearest_zero le_rfl (half_pos hpos)
  have hnone : Binary64.nearest? 0 1 = some x ↔ IsNearest 0 x := by
    have h := Binary64.nearest?_eq_some_iff (x := x) 0 Nat.one_pos
    rwa [Nat.cast_zero, zero_div] at h
  unfold nearest?
  split_ifs with hs hlarge hsmall hexponent
  · rw [hnone, value, hs, Nat.cast_zero, zero_mul]
  · have hbig := two_pow_le_value hs hlarge
    refine iff_of_false (by simp) fun h => ?_
    have hlt := h.lt_infinity.1
    rw [valueAt_infinityBits] at hlt
    exact absurd hbig hlt.not_ge
  · rw [hnone, isNearest_iff_of_nearest le_rfl hzero,
      isNearest_iff_of_nearest d.value_nonneg (nearest_zero d.value_nonneg (value_lt_of_small hsmall))]
  · obtain ⟨k, hk⟩ := Int.eq_ofNat_of_zero_le hexponent
    rw [Binary64.nearest?_eq_some_iff _ Nat.one_pos, value, hk, zpow_natCast, Int.toNat_natCast,
      Nat.cast_mul, Nat.pow_eq, Nat.cast_pow, Nat.cast_ofNat, Nat.cast_one, div_one]
  · obtain ⟨k, hk⟩ := Int.eq_ofNat_of_zero_le (show 0 ≤ -d.exponent by omega)
    have hneg : d.exponent = -k := by omega
    have hden : 0 < Nat.pow 10 (-d.exponent).toNat := Nat.pow_pos (by norm_num)
    rw [Binary64.nearest?_eq_some_iff _ hden, value, hk, hneg, zpow_neg, zpow_natCast,
      Int.toNat_natCast, Nat.pow_eq, Nat.cast_pow, Nat.cast_ofNat, div_eq_mul_inv]

end InfixCalculator.Binary64
