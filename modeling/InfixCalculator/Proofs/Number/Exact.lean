import InfixCalculator.Number.Lemmas
import InfixCalculator.Number.Literal
import InfixCalculator.Operator

/-!
# Integers are computed exactly

An operator has an integer as its result exactly when both operands are integers and the operation on
rational numbers is defined there and has that integer as its value (`apply_eq_ok_int_iff`).  So one
double among the operands makes the result a double, a quotient is an integer only if nothing is left
over, and a power only if its exponent is not negative.

Likewise a literal is an integer exactly when its text is a run of digits that is not too long, and it
is then the number that the digits denote (`literal?_eq_some_int_iff`).
-/

namespace InfixCalculator

namespace Number

/-! ## Literals -/

/-- The number that a run of decimal digits denotes, the last digit being that of the ones. -/
def decimalValue (s : List Char) : Nat :=
  Nat.ofDigits 10 (s.map Numeral.digitValue).reverse

/-- Reading digits from left to right gives the number that they denote. -/
lemma ofDigits_eq_decimalValue (s : List Char) : Numeral.ofDigits s = decimalValue s := by
  induction s using List.reverseRecOn with
  | nil => rfl
  | append_singleton s c ih =>
    rw [Numeral.ofDigits_concat, ih, decimalValue, decimalValue, List.map_append,
      List.reverse_append, List.map_singleton, List.reverse_singleton, List.singleton_append,
      Nat.ofDigits_cons]
    ring

lemma literal?_eq_some_int_iff {s : List Char} {n : Int} :
    literal? s = some (.int n) ↔
      isDigits s = true ∧ s.length ≤ Numeral.maxDigits ∧ n = decimalValue s := by
  unfold literal?
  split_ifs with hd hl
  · simp only [hd, hl, true_and, Option.some.injEq, Number.int.injEq, ofDigits_eq_decimalValue]
    exact eq_comm
  · simp [hl]
  · refine ⟨fun h => ?_, fun h => absurd h.1 hd⟩
    split at h
    · obtain ⟨x, -, hx⟩ := Option.map_eq_some_iff.1 h
      exact absurd hx (by simp)
    · exact absurd h (by simp)

/-! ## Operations -/

/-- What is computed in doubles is a double. -/
lemma inDoubles_ne_int {op : Float → Float → Except Fault Float} {left right : Number} {n : Int} :
    inDoubles op left right ≠ .ok (.int n) := by
  unfold inDoubles
  split
  · simp
  · split
    · simp
    · cases op _ _ <;> simp [Except.map]

/-- A quotient of integers is an integer if it is one. -/
lemma intQuotient_eq_ok_int_iff {a b n : Int} :
    intQuotient a b = .ok (.int n) ↔ b ≠ 0 ∧ a = n * b := by
  unfold intQuotient
  split_ifs with hb hm
  · simp [hb]
  -- nothing is left over
  · have hdiv : a / b * b = a := Int.ediv_mul_cancel (Int.dvd_of_emod_eq_zero hm)
    simp only [Except.ok.injEq, Number.int.injEq]
    constructor
    · rintro rfl
      exact ⟨hb, hdiv.symm⟩
    · rintro ⟨-, h⟩
      exact mul_right_cancel₀ hb (hdiv.trans h)
  -- otherwise the quotient is a double, and no integer times the divisor is the dividend
  · refine ⟨fun h => ?_, fun h => absurd ?_ hm⟩
    · split at h <;> exact absurd h (by simp)
    · rw [h.2, Int.mul_emod_left]

/-- A power of integers is an integer if the exponent is not negative. -/
lemma pow_eq_ok_int_iff {a b n : Int} :
    Number.pow (.int a) (.int b) = .ok (.int n) ↔ 0 ≤ b ∧ a ^ b.toNat = n := by
  simp only [Number.pow]
  split_ifs with hb
  · simp [intPower_eq, hb]
  · simp [inDoubles_ne_int, hb]

end Number

namespace Operator

/-- The result of an operator on rational numbers.  There is none for a division by zero, and none
for a power whose exponent is negative or no integer. -/
def rational? : Operator → ℚ → ℚ → Option ℚ
  | add, x, y => some (x + y)
  | sub, x, y => some (x - y)
  | mul, x, y => some (x * y)
  | div, x, y => if y = 0 then none else some (x / y)
  | pow, x, y => if y.isInt ∧ 0 ≤ y then some (x ^ y.num.toNat) else none

lemma rational?_eq_some_int_iff {op : Operator} {a b n : Int} :
    op.rational? a b = some (n : ℚ) ↔ op.apply (.int a) (.int b) = .ok (.int n) := by
  cases op with
  | add =>
    simp only [rational?, apply, Number.add, Option.some.injEq, Except.ok.injEq, Number.int.injEq]
    norm_cast
  | sub =>
    simp only [rational?, apply, Number.sub, Option.some.injEq, Except.ok.injEq, Number.int.injEq]
    norm_cast
  | mul =>
    simp only [rational?, apply, Number.mul, Option.some.injEq, Except.ok.injEq, Number.int.injEq]
    norm_cast
  | div =>
    have hcast : (b : ℚ) = 0 ↔ b = 0 := by norm_cast
    simp only [rational?, apply, Number.div, Number.intQuotient_eq_ok_int_iff, hcast]
    split_ifs with hb
    · simp [hb]
    · have hb' : (b : ℚ) ≠ 0 := by exact_mod_cast hb
      rw [Option.some.injEq, div_eq_iff hb']
      norm_cast
      simp [hb]
  | pow =>
    have hint : ((b : ℚ).isInt = true ∧ 0 ≤ (b : ℚ)) ↔ 0 ≤ b := by simp [Rat.isInt]
    simp only [rational?, apply, Number.pow_eq_ok_int_iff, hint, Rat.num_intCast]
    split_ifs with hb
    · simp only [Option.some.injEq, hb, true_and]
      norm_cast
    · simp [hb]

/-- An operator has an integer result exactly on integers, where it is the exact one. -/
lemma apply_eq_ok_int_iff {op : Operator} {left right : Number} {n : Int} :
    op.apply left right = .ok (.int n) ↔
      ∃ a b : Int, left = .int a ∧ right = .int b ∧ op.rational? a b = some (n : ℚ) := by
  cases left with
  | int a =>
    cases right with
    | int b => simp [rational?_eq_some_int_iff]
    | float y => cases op <;> simp [apply, Number.add, Number.sub, Number.mul, Number.div,
        Number.pow, Number.inDoubles_ne_int]
  | float x => cases op <;> simp [apply, Number.add, Number.sub, Number.mul, Number.div,
      Number.pow, Number.inDoubles_ne_int]

end Operator

end InfixCalculator
