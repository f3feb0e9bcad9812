import InfixCalculator.Number.Display
import InfixCalculator.Proofs.Number.Exact
import InfixCalculator.Proofs.Number.Size

/-!
# Which integers can be written

An integer can be written if it has at most `Numeral.maxDigits` decimal digits.  A decimal digit is
worth more than three binary ones, so 14190 binary digits are few enough (`isWritable_of_natAbs_lt`).
That leaves some room above the size that settings allow, for the numbers in messages are made from
such integers.  A double is written as an integer only if it is a short one, so every double has a
text (`exists_display_float`).
-/

namespace InfixCalculator

namespace Numeral

lemma isWritable_iff {n : Int} : isWritable n = true ↔ n.natAbs < writableBound :=
  decide_eq_true_iff

lemma isWritable_natCast {n : Nat} (h : n < writableBound) : isWritable n = true :=
  isWritable_iff.2 h

lemma writableBound_eq : writableBound = 10 ^ maxDigits := by
  unfold writableBound
  with_reducible exact Nat.pow_eq

/-- Ten decimal digits are worth 33 binary ones. -/
lemma two_pow_le_writableBound : 2 ^ 14190 ≤ writableBound := by
  have hbits : 14190 = 33 * (maxDigits / 10) := rfl
  have hdigits : 10 * (maxDigits / 10) = maxDigits := rfl
  calc 2 ^ 14190 = (2 ^ 33) ^ (maxDigits / 10) := by rw [hbits, pow_mul]
    _ ≤ (10 ^ 10) ^ (maxDigits / 10) := Nat.pow_le_pow_left (by norm_num) _
    _ = 10 ^ maxDigits := by rw [← pow_mul, hdigits]
    _ = writableBound := writableBound_eq.symm

lemma isWritable_of_natAbs_lt {n : Int} (h : n.natAbs < 2 ^ 14190) : isWritable n = true :=
  isWritable_iff.2 (h.trans_le two_pow_le_writableBound)

/-- An integer that lies between zero and one that can be written can be written. -/
lemma isWritable_of_le {m n : Int} (hm : 0 ≤ m) (hle : m ≤ n) (hn : isWritable n = true) :
    isWritable m = true := by
  rw [isWritable_iff] at hn ⊢
  omega

lemma write_of_isWritable {n : Int} (h : isWritable n = true) : write n = .ok (text n) := by
  rw [write, if_pos h]

/-- An ASCII digit is worth less than ten. -/
lemma digitValue_lt {c : Char} (h : c.isDigit = true) : digitValue c < 10 := by
  have hle : c.toNat ≤ 57 := of_decide_eq_true (Bool.and_eq_true_iff.1 h).2
  change c.toNat - 48 < 10
  omega

lemma digits_ne_nil (n : Nat) : digits n ≠ [] :=
  Nat.toDigits_ne_nil

lemma isDigit_of_mem_digits {n : Nat} {c : Char} (h : c ∈ digits n) : c.isDigit = true :=
  Nat.isDigit_of_mem_toDigits (by norm_num) (by norm_num) h

end Numeral

namespace Number

open Numeral

/-- Digits that are not too many denote a number that can be written. -/
lemma decimalValue_lt {s : List Char} (hd : isDigits s = true) (hl : s.length ≤ maxDigits) :
    decimalValue s < writableBound := by
  have hdigit : ∀ d ∈ (s.map digitValue).reverse, d < 10 := by
    intro d hmem
    obtain ⟨c, hc, rfl⟩ := List.mem_map.1 (List.mem_reverse.1 hmem)
    exact digitValue_lt (List.all_eq_true.1 (Bool.and_eq_true_iff.1 hd).2 c hc)
  calc decimalValue s < 10 ^ (s.map digitValue).reverse.length :=
        Nat.ofDigits_lt_base_pow_length (by norm_num) hdigit
    _ = 10 ^ s.length := by rw [List.length_reverse, List.length_map]
    _ ≤ 10 ^ maxDigits := Nat.pow_le_pow_right (by norm_num) hl
    _ = writableBound := writableBound_eq.symm

/-- The digits of a number that can be written are a literal with this value. -/
lemma literal?_digits {n : Nat} (h : n < writableBound) :
    literal? (Numeral.digits n) = some (.int n) := by
  have hd : isDigits (Numeral.digits n) = true := by
    rw [isDigits, Bool.and_eq_true_iff]
    exact ⟨by simp [digits_ne_nil], List.all_eq_true.2 fun c hc => isDigit_of_mem_digits hc⟩
  have hl : (Numeral.digits n).length ≤ maxDigits := by
    rw [writableBound_eq] at h
    exact (Nat.length_toDigits_le_iff (by norm_num) (by decide)).2 h
  have hvalue : Numeral.ofDigits (Numeral.digits n) = n := Nat.ofDigitChars_ten_toDigits
  rw [literal?, hd, if_pos rfl, if_pos hl, hvalue]

lemma display_int {n : Int} (h : isWritable n = true) : (int n).display = .ok (Numeral.text n) :=
  write_of_isWritable h

/-- A short integer has at most sixteen digits. -/
lemma isWritable_toInt {x : Float} (h : isShortInteger x = true) :
    isWritable (Binary64.toInt x) = true := by
  have hunits : Binary64.units x < Nat.pow 10 16 * Binary64.unitsPerOne :=
    of_decide_eq_true (Bool.and_eq_true_iff.1 h).2
  have hquot : Binary64.units x / Binary64.unitsPerOne < Nat.pow 10 16 :=
    Nat.div_lt_of_lt_mul (by rwa [mul_comm] at hunits)
  have hshort : Nat.pow 10 16 ≤ 10 ^ maxDigits := by
    have hdigits : 16 ≤ maxDigits := by decide
    generalize maxDigits = digits at hdigits
    exact Nat.pow_le_pow_right (by norm_num) hdigits
  rw [isWritable_iff, writableBound_eq, Binary64.toInt]
  split
  · rw [Int.natAbs_neg, Int.natAbs_natCast]
    exact hquot.trans_le hshort
  · exact hquot.trans_le hshort

lemma exists_display_float (x : Float) : ∃ text, (float x).display = .ok text := by
  simp only [display]
  split
  · next h => exact ⟨_, write_of_isWritable (isWritable_toInt h)⟩
  · exact ⟨_, rfl⟩

end Number

end InfixCalculator
