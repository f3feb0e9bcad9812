import InfixCalculator.Settings.Load
import Mathlib.Tactic.Lemma

/-!
# The limits of accepted settings

A limit may be any integer, but settings are accepted only if their limits are in a certain range
(`Limits.InRange`), wherever they come from (`inRange_of_load`).  What holds of all computations under
limits in this range therefore holds of every calculator that has started.
-/

namespace InfixCalculator

/-- Limits that settings may have: the exponent is not bounded by a negative number, nothing else by
zero or less, and integers have at most 14000 binary digits. -/
structure Limits.InRange (limits : Limits) : Prop where
  expressionLength_pos : 0 < limits.expressionLength
  tokenCount_pos : 0 < limits.tokenCount
  nestingDepth_pos : 0 < limits.nestingDepth
  exponent_nonneg : 0 ≤ limits.exponent
  integerBits_pos : 0 < limits.integerBits
  integerBits_le : limits.integerBits ≤ 14000

/-- No bound is negative. -/
lemma Limits.InRange.bound_nonneg {limits : Limits} (h : limits.InRange) (limit : Limit) :
    0 ≤ limits.bound limit := by
  cases limit with
  | expressionLength => exact Int.le_of_lt h.expressionLength_pos
  | tokenCount => exact Int.le_of_lt h.tokenCount_pos
  | nestingDepth => exact Int.le_of_lt h.nestingDepth_pos
  | exponent => exact h.exponent_nonneg
  | integerBits => exact Int.le_of_lt h.integerBits_pos

namespace Settings

open Yaml (Value)

variable {raw : Field → Option Value}

/-- Where there is no complaint, every value that is given for a limit is read. -/
lemma limit_eq_ok_of_complaints (h : complaints raw = []) {which : Limit} {value : Value}
    (hraw : raw (.limit which) = some value) : ∃ n, limit which value = .ok n := by
  have hfield := List.filterMap_eq_nil_iff.1 h (.limit which) (Field.mem_all _)
  cases hlimit : limit which value with
  | ok n => exact ⟨n, rfl⟩
  | error violation => simp [hraw, Field.violation?, hlimit, Except.map] at hfield

/-- Where there is no complaint, every limit is its default or passes the check of its range. -/
lemma inRange_bound_limitsOf (h : complaints raw = []) (which : Limit) :
    inRange which ((limitsOf raw).bound which) = .ok ((limitsOf raw).bound which) := by
  rw [bound_limitsOf]
  cases hraw : raw (.limit which) with
  | none => cases which <;> rfl
  | some value =>
    obtain ⟨n, hn⟩ := limit_eq_ok_of_complaints h hraw
    simp only [readOr, hn]
    unfold limit at hn
    split at hn
    · exact absurd hn (by simp)
    · obtain ⟨rfl, -⟩ := inRange_eq_ok_iff.1 hn
      exact hn

lemma inRange_limitsOf (h : complaints raw = []) : (limitsOf raw).InRange := by
  have hbound (which : Limit) := (inRange_eq_ok_iff.1 (inRange_bound_limitsOf h which)).2
  exact ⟨(hbound .expressionLength).1, (hbound .tokenCount).1, (hbound .nestingDepth).1,
    (hbound .exponent).1, (hbound .integerBits).1, (hbound .integerBits).2 rfl⟩

/-- Whatever settings are loaded from, their limits are in range. -/
theorem inRange_of_load {around : Surroundings} {given : Option String} {s : Settings}
    (h : load around given = .ok s) : s.limits.InRange := by
  unfold load at h
  split at h
  · exact absurd h (by simp)
  · unfold ofLayers at h
    split at h
    · exact absurd h (by simp)
    · split at h
      · next hraw =>
          cases h
          obtain ⟨hnone, -, rfl⟩ := ofRaw_eq_ok_iff.1 hraw
          exact inRange_limitsOf hnone
      · exact absurd h (by simp)

end Settings

end InfixCalculator
