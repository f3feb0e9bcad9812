import InfixCalculator.Proofs.Computation.Relocation
import InfixCalculator.Proofs.Token.Seam

/-!
# Separators between tokens

Separators may be put in or left out wherever no literal reaches across the place.  The expression has
the same value then, or the same error: only the positions behind the place are other ones
(`compute_separators`).  Because of the limit on the length of expressions this needs the longer one
to be admitted; the limit on tokens does not matter, for separators are no tokens.
-/

namespace InfixCalculator

open Token

variable {limits : Limits} {u v w : String}

/-- Separators do not make an expression blank, or keep it from being so. -/
lemma isBlank_separators (hw : ∀ c ∈ w.toList, Text.isSeparator c = true) :
    isBlank (u ++ w ++ v) = isBlank (u ++ v) := by
  have hall : w.toList.all Text.isSeparator = true := List.all_eq_true.2 hw
  simp only [isBlank, String.toList_append, List.all_append, hall, Bool.and_true]

/-- The tokens of the longer expression are those of the shorter one, further on, so it has the same
value or the same failure. -/
lemma calculate_separators (h : Parted u.toList v.toList)
    (hw : ∀ c ∈ w.toList, Text.isSeparator c = true)
    (hlength : ((u ++ w ++ v).length : Int) ≤ limits.expressionLength) :
    calculate limits (u ++ w ++ v) =
      (calculate limits (u ++ v)).mapError
        (Failure.relocate (shiftFrom u.length w.length) (u ++ w ++ v)) := by
  have hcheck : limits.checkLength (u ++ w ++ v) = .ok () := Limits.check_of_le hlength
  have hshorter : limits.checkLength (u ++ v) = .ok () := by
    refine Limits.check_of_le (Int.le_trans ?_ hlength)
    simp only [String.length_append]
    omega
  have hblank : isBlank (u ++ w ++ v) = isBlank (u ++ v) := isBlank_separators hw
  have hinsert : segments 0 [] (u ++ w ++ v).toList =
      (segments 0 [] (u ++ v).toList).relocate (shiftFrom u.length w.length) := by
    simp only [String.toList_append, List.append_assoc]
    exact segments_insert h hw
  cases hb : isBlank (u ++ v) with
  | true =>
    rw [hb] at hblank
    simp only [calculate, progress, hb, hblank, if_true]
    rfl
  | false =>
    rw [hb] at hblank
    rw [calculate_eq_value hblank, calculate_eq_value hb, hcheck, hshorter, hinsert]
    exact Segments.value_relocate (u ++ v) _

/-- Let no literal reach from one part of an expression to the other.  With separators between them the
expression has the same value, or the same error; its position, if there is one, is the same in the
first part and further on in the second one by the number of separators.  If the error of one of them
cannot be worded, neither can that of the other. -/
theorem compute_separators (h : Parted u.toList v.toList)
    (hw : ∀ c ∈ w.toList, Text.isSeparator c = true)
    (hlength : ((u ++ w ++ v).length : Int) ≤ limits.expressionLength) :
    compute limits (u ++ w ++ v) =
      (compute limits (u ++ v)).map
        (Computation.relocate (shiftFrom u.length w.length) (u ++ w ++ v)) :=
  compute_relocate (calculate_separators h hw hlength)

/-- In `8/(3-3)` the division at position 1 is to blame; with three separators before it, it is at
position 4. -/
theorem compute_separators_sample :
    (Parted "8".toList "/(3-3)".toList ∧ ∀ c ∈ " \t\n".toList, Text.isSeparator c = true) ∧
      compute {} "8/(3-3)" = .ok ⟨"8/(3-3)", .error ⟨.divisionByZero, some 1, some "8/(3-3)"⟩⟩ ∧
      compute {} "8 \t\n/(3-3)" =
        .ok ⟨"8 \t\n/(3-3)", .error ⟨.divisionByZero, some 4, some "8 \t\n/(3-3)"⟩⟩ := by
  have hparted : Parted "8".toList "/(3-3)".toList := by
    refine Or.inr fun c hc => ?_
    obtain rfl : '/' = c := Option.mem_some_iff.1 hc
    rfl
  have hw : ∀ c ∈ " \t\n".toList, Text.isSeparator c = true := List.all_eq_true.1 rfl
  have hrun : compute {} ("8" ++ "/(3-3)") =
    .ok ⟨"8/(3-3)", .error ⟨.divisionByZero, some 1, some "8/(3-3)"⟩⟩ := rfl
  have hmoved := @compute_separators {} "8" "/(3-3)" " \t\n" hparted hw (by decide)
  rw [hrun] at hmoved
  exact ⟨⟨hparted, hw⟩, hrun, hmoved⟩

end InfixCalculator
