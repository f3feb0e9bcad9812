import InfixCalculator.Binary64.Nearest
import Mathlib

/-!
# Rounding to the nearest bit pattern

The doubles without sign are a sequence: their bit patterns count them upwards, and the pattern tells
how many units a double is (`unitsAt`).  Going on beyond the finite doubles, the sequence has the power
`2 ^ 1024` where the pattern of infinity is.

`Nearest` says that a member of such a sequence is nearest to a number and that its index is even if
another member is as near.  There is at most one such member (`Nearest.eq`).  The whole numbers have it
at the rounded quotient (`nearest_roundHalfEven`), and from this it follows for the patterns, for the
members of the sequence that have one exponent are whole multiples of one power of two
(`nearest_nearestBits`).
-/

namespace InfixCalculator.Binary64

/-! ## The nearest member of a sequence -/

/-- The member of a sequence with index `a` is nearest to `q`.  If another one is as near, the index is
even. -/
structure Nearest (f : ℕ → ℚ) (q : ℚ) (a : ℕ) : Prop where
  le : ∀ b, |q - f a| ≤ |q - f b|
  even : ∀ b, |q - f a| = |q - f b| → b = a ∨ Even a

variable {f : ℕ → ℚ} {q : ℚ} {a b : ℕ}

/-- Of two members that are equally near, one has an odd index, or there is one in between that is
nearer. -/
lemma Nearest.eq (hf : StrictMono f) (ha : Nearest f q a) (hb : Nearest f q b) : a = b := by
  by_contra hne
  wlog hlt : a < b generalizing a b
  · exact this hb ha (Ne.symm hne) (by omega)
  have hsame : |q - f a| = |q - f b| := le_antisymm (ha.le b) (hb.le a)
  have haeven : Even a := (ha.even b hsame).resolve_left (Ne.symm hne)
  have hbeven : Even b := (hb.even a hsame.symm).resolve_left hne
  have hgap : a + 1 < b := by
    rw [Nat.even_iff] at haeven hbeven
    omega
  have hlow : f a < f (a + 1) := hf (Nat.lt_succ_self a)
  have hhigh : f (a + 1) < f b := hf hgap
  have hmiddle : q - f a = -(q - f b) := by
    rcases abs_eq_abs.1 hsame with h | h
    · linarith
    · exact h
  have hnear := ha.le (a + 1)
  rw [abs_of_pos (show 0 < q - f a by linarith)] at hnear
  rcases abs_cases (q - f (a + 1)) with ⟨h, -⟩ | ⟨h, -⟩ <;> linarith

/-- Multiplying by a positive factor keeps what is nearest. -/
lemma Nearest.mul_right {c : ℚ} (hc : 0 < c) (h : Nearest f q a) :
    Nearest (fun b => f b * c) (q * c) a := by
  have hscale (b : ℕ) : |q * c - f b * c| = |q - f b| * c := by
    rw [← sub_mul, abs_mul, abs_of_pos hc]
  constructor
  · intro b
    rw [hscale, hscale]
    exact mul_le_mul_of_nonneg_right (h.le b) hc.le
  · intro b hb
    rw [hscale, hscale] at hb
    exact h.even b (mul_right_cancel₀ hc.ne' hb)

/-! ## Whole numbers -/

/-- A whole number is nearest if it is at most one half away, and even if it is exactly one half
away. -/
lemma nearest_of_abs_le_half (h : |q - a| ≤ 1 / 2) (heven : |q - a| = 1 / 2 → Even a) :
    Nearest (fun b => (b : ℚ)) q a := by
  have hfar {b : ℕ} (hne : b ≠ a) : 1 ≤ |q - a| + |q - b| := by
    have hone : (1 : ℤ) ≤ |(b : ℤ) - a| := Int.one_le_abs (sub_ne_zero.2 (by exact_mod_cast hne))
    have hcast : (1 : ℚ) ≤ |(b : ℚ) - a| := by exact_mod_cast hone
    have htriangle := abs_sub_le (b : ℚ) q a
    rw [abs_sub_comm (b : ℚ) q] at htriangle
    linarith
  constructor
  · intro b
    rcases eq_or_ne b a with rfl | hne
    · exact le_rfl
    · have hdistance := hfar hne
      linarith
  · intro b hb
    refine or_iff_not_imp_left.2 fun hne => heven ?_
    have hdistance := hfar hne
    linarith

/-- A quotient is its integer part and what the remainder makes of it. -/
lemma cast_div_eq_add (num : ℕ) {den : ℕ} (hden : 0 < den) :
    (num : ℚ) / den = (num / den : ℕ) + ((num % den : ℕ) : ℚ) / den := by
  have hpos : (0 : ℚ) < den := by exact_mod_cast hden
  have hnat : ((den * (num / den) + num % den : ℕ) : ℚ) = num := by rw [Nat.div_add_mod]
  push_cast at hnat
  field_simp
  linarith

lemma cast_div_le_half_iff {k den : ℕ} (hden : 0 < den) : (k : ℚ) / den ≤ 1 / 2 ↔ 2 * k ≤ den := by
  rw [div_le_div_iff₀ (by exact_mod_cast hden) two_pos]
  norm_cast
  omega

lemma cast_div_eq_half_iff {k den : ℕ} (hden : 0 < den) : (k : ℚ) / den = 1 / 2 ↔ 2 * k = den := by
  rw [div_eq_div_iff (by exact_mod_cast hden.ne') two_ne_zero]
  norm_cast
  omega

/-- A quotient is rounded to the nearest whole number, half-way to the even one. -/
lemma nearest_roundHalfEven (num : ℕ) {den : ℕ} (hden : 0 < den) :
    Nearest (fun k => (k : ℚ)) (num / den) (roundHalfEven num den) := by
  have hsplit := cast_div_eq_add num hden
  have hle := cast_div_le_half_iff (k := num % den) hden
  have heq := cast_div_eq_half_iff (k := num % den) hden
  have hnonneg : (0 : ℚ) ≤ ((num % den : ℕ) : ℚ) / den := by positivity
  have hrest : ((num % den : ℕ) : ℚ) / den < 1 := by
    rw [div_lt_one (by exact_mod_cast hden)]
    exact_mod_cast Nat.mod_lt num hden
  simp only [roundHalfEven]
  split_ifs with h
  · -- rounded down
    have hdiff : (num : ℚ) / den - (num / den : ℕ) = ((num % den : ℕ) : ℚ) / den := by
      rw [hsplit]
      ring
    apply nearest_of_abs_le_half
    · rw [hdiff, abs_of_nonneg hnonneg]
      exact hle.2 (by omega)
    · rw [hdiff, abs_of_nonneg hnonneg]
      intro hmid
      have hmid := heq.1 hmid
      rw [Nat.even_iff]
      omega
  · -- rounded up
    have hdiff : (num : ℚ) / den - (num / den + 1 : ℕ) = -(1 - ((num % den : ℕ) : ℚ) / den) := by
      rw [hsplit]
      push_cast
      ring
    have hge : 1 / 2 ≤ ((num % den : ℕ) : ℚ) / den := by
      rcases lt_or_ge (((num % den : ℕ) : ℚ) / den) (1 / 2) with hlt | hge
      · have hless : 2 * (num % den) ≤ den := hle.1 hlt.le
        have hne : 2 * (num % den) ≠ den := fun hmid => hlt.ne (heq.2 hmid)
        omega
      · exact hge
    apply nearest_of_abs_le_half
    · rw [hdiff, abs_neg, abs_of_nonneg (by linarith)]
      linarith
    · rw [hdiff, abs_neg, abs_of_nonneg (by linarith)]
      intro hmid
      have hmid := heq.1 (by linarith)
      rw [Nat.even_iff]
      omega

/-! ## Bit patterns -/

/-- The number of units that a bit pattern without sign stands for. -/
def unitsAt (bits : ℕ) : ℕ :=
  (Magnitude.ofBits bits).units

lemma fieldUnit_pos : 0 < fieldUnit := by decide

/-- A pattern is made of a significand and an exponent.  A significand of one bit more carries into the
exponent, and nothing is lost. -/
lemma unitsAt_add {significand exponent : ℕ} (hle : significand ≤ 2 * fieldUnit)
    (hfull : exponent = 0 ∨ fieldUnit ≤ significand) :
    unitsAt (significand + exponent * fieldUnit) = significand * 2 ^ exponent := by
  have hpos := fieldUnit_pos
  simp only [unitsAt, Magnitude.ofBits, Magnitude.units, Nat.pow_eq]
  generalize fieldUnit = unit at *
  rcases lt_or_ge significand unit with hlt | hge
  · obtain rfl : exponent = 0 := hfull.resolve_right (by omega)
    rw [zero_mul, add_zero, if_pos hlt]
  · have hbits : ¬significand + exponent * unit < unit := by
      have hzero := Nat.zero_le (exponent * unit)
      omega
    rw [if_neg hbits]
    rcases lt_or_eq_of_le hle with hlt | rfl
    · -- the leading bit of the significand is the last one of the exponent field
      obtain ⟨rest, rfl⟩ := Nat.exists_eq_add_of_le hge
      have hsum : unit + rest + exponent * unit = rest + unit * (exponent + 1) := by ring
      have hrest : rest < unit := by omega
      rw [hsum, Nat.add_mul_mod_self_left, Nat.mod_eq_of_lt hrest, Nat.add_mul_div_left _ _ hpos,
        Nat.div_eq_of_lt hrest, Nat.zero_add, Nat.add_sub_cancel]
    · have hsum : 2 * unit + exponent * unit = unit * (exponent + 2) := by ring
      rw [hsum, Nat.mul_mod_right, Nat.mul_div_cancel_left _ hpos, add_zero,
        show exponent + 2 - 1 = exponent + 1 from rfl, pow_succ]
      ring

/-- Every pattern is made in this way. -/
lemma exists_significand (bits : ℕ) :
    ∃ significand exponent, bits = significand + exponent * fieldUnit ∧
      significand < 2 * fieldUnit ∧ (exponent = 0 ∨ fieldUnit ≤ significand) := by
  have hpos := fieldUnit_pos
  generalize fieldUnit = unit at *
  rcases lt_or_ge bits unit with hlt | hge
  · exact ⟨bits, 0, by simp, by omega, .inl rfl⟩
  · have hmod := Nat.mod_lt bits hpos
    have hone : 1 ≤ bits / unit := Nat.div_pos hge hpos
    obtain ⟨exponent, hexponent⟩ := Nat.exists_eq_add_of_le' hone
    have hsplit := Nat.div_add_mod bits unit
    rw [hexponent] at hsplit
    refine ⟨unit + bits % unit, exponent, ?_, by omega, .inr (Nat.le_add_right _ _)⟩
    linarith

/-- The next pattern stands for more. -/
lemma strictMono_unitsAt : StrictMono unitsAt := by
  refine strictMono_nat_of_lt_succ fun bits => ?_
  obtain ⟨significand, exponent, rfl, hlt, hfull⟩ := exists_significand bits
  have hnext : significand + exponent * fieldUnit + 1 = significand + 1 + exponent * fieldUnit := by
    ring
  rw [hnext, unitsAt_add hlt.le hfull, unitsAt_add hlt (hfull.imp_right Nat.le_succ_of_le)]
  exact Nat.mul_lt_mul_of_pos_right (Nat.lt_succ_self _) (Nat.two_pow_pos _)

lemma strictMono_unitsAt_cast : StrictMono fun bits => (unitsAt bits : ℚ) :=
  fun _ _ h => Nat.cast_lt.2 (strictMono_unitsAt h)

/-- A pattern stands for a multiple of a power of two, if it does not stand for less than the patterns
with that exponent do. -/
lemma multiple_or_lt_unitsAt (exponent bits : ℕ) :
    (∃ k, unitsAt bits = k * 2 ^ exponent) ∨
      exponent ≠ 0 ∧ unitsAt bits < fieldUnit * 2 ^ exponent := by
  obtain ⟨significand, exponent', rfl, hlt, hfull⟩ := exists_significand bits
  rw [unitsAt_add hlt.le hfull]
  rcases le_or_gt exponent exponent' with hge | hless
  · left
    obtain ⟨more, rfl⟩ := Nat.exists_eq_add_of_le hge
    exact ⟨significand * 2 ^ more, by ring⟩
  · right
    obtain ⟨more, rfl⟩ := Nat.exists_eq_add_of_lt hless
    refine ⟨by omega, ?_⟩
    calc significand * 2 ^ exponent'
        < 2 * fieldUnit * 2 ^ exponent' := Nat.mul_lt_mul_of_pos_right hlt (Nat.two_pow_pos _)
      _ = fieldUnit * 2 ^ (exponent' + 1) := by ring
      _ ≤ fieldUnit * 2 ^ (exponent' + more + 1) :=
        Nat.mul_le_mul_left _ (Nat.pow_le_pow_right two_pos (by omega))

/-- What is nearest among the multiples of a power of two is nearest among all patterns, if the number
is not below the patterns of that exponent: any pattern that is no such multiple is further away than
the first pattern of the exponent. -/
lemma Nearest.of_multiples {significand exponent : ℕ}
    (h : Nearest (fun k => (k : ℚ) * 2 ^ exponent) q significand)
    (hle : significand ≤ 2 * fieldUnit) (hfull : exponent = 0 ∨ fieldUnit ≤ significand)
    (hq : exponent = 0 ∨ (fieldUnit : ℚ) * 2 ^ exponent ≤ q) :
    Nearest (fun bits => (unitsAt bits : ℚ)) q (significand + exponent * fieldUnit) := by
  have hself : (unitsAt (significand + exponent * fieldUnit) : ℚ) = significand * 2 ^ exponent := by
    rw [unitsAt_add hle hfull]
    push_cast
    rfl
  have hcases (bits : ℕ) : (∃ k : ℕ, (unitsAt bits : ℚ) = k * 2 ^ exponent) ∨
      |q - significand * 2 ^ exponent| < |q - unitsAt bits| := by
    rcases multiple_or_lt_unitsAt exponent bits with ⟨k, hk⟩ | ⟨hne, hlt⟩
    · exact .inl ⟨k, by rw [hk]; push_cast; rfl⟩
    · right
      have hge := hq.resolve_left hne
      have hless : (unitsAt bits : ℚ) < fieldUnit * 2 ^ exponent := by exact_mod_cast hlt
      calc |q - significand * 2 ^ exponent|
          ≤ |q - fieldUnit * 2 ^ exponent| := h.le fieldUnit
        _ = q - fieldUnit * 2 ^ exponent := abs_of_nonneg (by linarith)
        _ < q - unitsAt bits := by linarith
        _ = |q - unitsAt bits| := (abs_of_pos (by linarith)).symm
  constructor
  · intro bits
    rw [hself]
    rcases hcases bits with ⟨k, hk⟩ | hlt
    · rw [hk]
      exact h.le k
    · exact hlt.le
  · intro bits hbits
    rw [hself] at hbits
    rcases hcases bits with ⟨k, hk⟩ | hlt
    · rw [hk] at hbits
      rcases h.even k hbits with rfl | heven
      · exact .inl (strictMono_unitsAt_cast.injective (hk.trans hself.symm))
      · have hunit : Even fieldUnit := by decide
        exact .inr (heven.add (hunit.mul_left exponent))
    · exact absurd hbits hlt.ne

lemma roundHalfEven_bounds (num den : ℕ) :
    num / den ≤ roundHalfEven num den ∧ roundHalfEven num den ≤ num / den + 1 := by
  simp only [roundHalfEven]
  split_ifs <;> omega

/-- The pattern that is computed for a quotient is nearest to it. -/
lemma nearest_nearestBits (num : ℕ) {den : ℕ} (hden : 0 < den) :
    Nearest (fun bits => (unitsAt bits : ℚ)) (num / den * unitsPerOne) (nearestBits num den) := by
  have hposq : (0 : ℚ) < den := by exact_mod_cast hden
  simp only [nearestBits, Nat.pow_eq]
  have hscaled : (num : ℚ) / den * unitsPerOne = ((num * unitsPerOne : ℕ) : ℚ) / den := by
    push_cast
    ring
  rw [hscaled]
  generalize num * unitsPerOne = scaled
  generalize hexponent : (scaled / den).log2 - 52 = exponent
  have hfloor : scaled / (den * 2 ^ exponent) = scaled / den / 2 ^ exponent :=
    (Nat.div_div_eq_div_mul scaled den (2 ^ exponent)).symm
  obtain ⟨hlow, hhigh⟩ := roundHalfEven_bounds scaled (den * 2 ^ exponent)
  rw [hfloor] at hlow hhigh
  have hbelow : scaled / den / 2 ^ exponent < 2 * fieldUnit := by
    have hlog : scaled / den < 2 ^ (53 + exponent) :=
      Nat.lt_log2_self.trans_le (Nat.pow_le_pow_right two_pos (by omega))
    rw [pow_add] at hlog
    exact Nat.div_lt_of_lt_mul (by rwa [mul_comm] at hlog)
  have habove : exponent = 0 ∨ fieldUnit * 2 ^ exponent ≤ scaled / den := by
    refine or_iff_not_imp_left.2 fun hne => ?_
    have hlog : (scaled / den).log2 = 52 + exponent := by omega
    have hnz : scaled / den ≠ 0 := by
      intro hzero
      rw [hzero] at hlog
      simp at hlog
      omega
    have hself := Nat.log2_self_le hnz
    rwa [hlog, pow_add] at hself
  refine Nearest.of_multiples ?_ (by omega) ?_ ?_
  · have hdenpos : 0 < den * 2 ^ exponent := Nat.mul_pos hden (Nat.two_pow_pos _)
    have hround := (nearest_roundHalfEven scaled hdenpos).mul_right (c := 2 ^ exponent)
      (by positivity)
    have hq : (scaled : ℚ) / (den * 2 ^ exponent : ℕ) * 2 ^ exponent = scaled / den := by
      push_cast
      field_simp
    rwa [hq] at hround
  · refine habove.imp_right fun hle => hlow.trans' ?_
    rwa [Nat.le_div_iff_mul_le (Nat.two_pow_pos _)]
  · refine habove.imp_right fun hle => ?_
    rw [le_div_iff₀ hposq]
    have hmul := (Nat.mul_le_mul_right den hle).trans (Nat.div_mul_le_self scaled den)
    exact_mod_cast hmul

end InfixCalculator.Binary64
