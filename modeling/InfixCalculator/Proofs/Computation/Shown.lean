import InfixCalculator.Proofs.Computation.Acceptance
import InfixCalculator.Proofs.Computation.Outcome
import InfixCalculator.Proofs.Evaluation.Raising
import InfixCalculator.Proofs.Evaluation.Wording
import InfixCalculator.Proofs.Token.Segments
import InfixCalculator.Session

/-!
# Every result can be shown

Under limits in range no computation is lost because its error cannot be worded, and no value is too
long to be shown.  The length of an expression bounds the number of its tokens, and that the depth of
its groups, so these quantities can be written; together with those of the evaluation every stage ends
with a message at worst (`worded_of_calculate`).  No fault of the arithmetic is lost either, for the
evaluation that may raise one ends as the computation does (`Rpn.Raising.agrees_of_stages`).  The line of
every computation is defined (`exists_line_of_inRange`).
-/

namespace InfixCalculator

open Numeral

variable {limits : Limits} {source : Option String} {failure : Failure}

/-! ## Tokens -/

namespace Token

lemma length_literalToken_le (position : Int) (pending : List Char) :
    (literalToken position pending).length ≤ pending.length := by
  cases pending <;> simp [literalToken]

lemma length_symbolToken_le (position : Int) (c : Char) : (symbolToken position c).length ≤ 1 := by
  unfold symbolToken
  split <;> simp

/-- A text has no more tokens than characters. -/
lemma length_segments_le (position : Int) (pending s : List Char) :
    (segments position pending s).tokens.length ≤ pending.length + s.length := by
  fun_induction segments position pending s with
  | case1 position pending => exact length_literalToken_le position pending
  | case2 position pending c rest hb ih =>
    have hliteral := length_literalToken_le position pending
    have hsymbol := length_symbolToken_le position c
    simp only [Segments.prepend, List.length_append, List.length_cons, List.length_nil] at ih ⊢
    omega
  | case3 position pending c rest hb hp ih =>
    simp only [List.length_cons] at ih ⊢
    omega
  | case4 position pending c rest hb hp => simp

lemma length_le_of_tokenize {expression : String} {tokens : List Token}
    (h : tokenize limits expression = .ok tokens) : tokens.length ≤ expression.length := by
  have hlength := length_segments_le 0 [] expression.toList
  obtain ⟨-, hsegments, -⟩ := tokenize_eq_ok_iff.1 h
  rwa [hsegments, List.length_nil, Nat.zero_add, String.length_toList] at hlength

lemma worded_of_tokenize (hlimits : limits.InRange) {expression : String}
    (hlength : expression.length < writableBound)
    (h : tokenize limits expression = .error failure) : failure.Worded := by
  have hcount := length_segments_le 0 [] expression.toList
  rw [List.length_nil, Nat.zero_add, String.length_toList] at hcount
  rw [tokenize_eq_verdict] at h
  split at h
  · next hcheck =>
      cases h
      exact hlimits.worded_of_check (isWritable_natCast hlength) hcheck
  · unfold Segments.verdict at h
    split at h
    -- one token too many is still no more than there are characters
    · next hlt =>
        have hactual : limits.tokenCount.toNat + 1 < writableBound := by omega
        rw [← Except.error.inj h]
        exact hlimits.worded_of_check (isWritable_natCast hactual) (check_tooMany limits)
    · split at h
      · cases h
        exact Failure.worded_atPosition _ _ _
      · exact absurd h (by simp)

end Token

namespace Rpn

/-! ## Postfix order -/

namespace Conversion

lemma worded_of_run (hlimits : limits.InRange) {tokens : List Token} {config : Conversion}
    (hdepth : config.depth + tokens.length < writableBound)
    (h : config.run limits source tokens = .error failure) : failure.Worded := by
  induction tokens generalizing config with
  | nil => exact absurd h (by simp)
  | cons token rest ih =>
    rw [List.length_cons] at hdepth
    rw [run_cons] at h
    split at h
    · next hstep =>
        cases h
        rcases step_eq_error hstep with ⟨-, hcheck⟩ | ⟨-, -, rfl⟩
        · exact hlimits.worded_of_check (isWritable_natCast (by omega)) hcheck
        · exact Failure.worded_atPosition _ _ _
    · next next hstep =>
        have hnext := depth_le_of_step hstep
        have hone : openGroups [token] ≤ 1 := List.countP_le_length
        exact ih (by omega) h

lemma worded_of_drain {stack : List Token} {output : Array Token}
    (h : drain source stack output = .error failure) : failure.Worded := by
  induction stack generalizing output with
  | nil => exact absurd h (by simp [drain])
  | cons top rest ih =>
    rw [drain] at h
    split at h
    · cases h
      exact Failure.worded_atPosition _ _ _
    · exact ih h

end Conversion

lemma worded_of_ofInfix (hlimits : limits.InRange) {tokens : List Token}
    (hlength : tokens.length < writableBound)
    (h : ofInfix limits source tokens = .error failure) : failure.Worded := by
  rcases ofInfix_eq_error h with hrun | ⟨config, -, hdrain⟩
  · exact Conversion.worded_of_run hlimits (by simpa [Conversion.initial] using hlength) hrun
  · exact Conversion.worded_of_drain hdrain

end Rpn

/-! ## Computations -/

variable {expression : String}

/-- An expression that reaches the evaluation ends as the evaluation does that may raise anything.  So no
fault of the arithmetic shows as an error here, and none gets past the computation. -/
theorem Rpn.Raising.agrees_of_stages {tokens postfixed : List Token}
    (hblank : Token.isBlank expression = false)
    (htokens : Token.tokenize limits expression = .ok tokens)
    (hpostfixed : ofInfix limits (some expression) tokens = .ok postfixed) :
    Agrees (evaluate limits (some expression) postfixed)
      (InfixCalculator.calculate limits expression) := by
  rw [calculate_eq_evaluate hblank htokens hpostfixed]
  exact agrees_evaluate limits (some expression) postfixed

/-- Under limits in range, every stage that fails can say why. -/
lemma worded_of_calculate (hlimits : limits.InRange) (hlength : expression.length < writableBound)
    (h : calculate limits expression = .error failure) : failure.Worded := by
  rcases stage_of_calculate_eq_error h with
    ⟨-, rfl⟩ | htokens | ⟨tokens, htokens, hrpn | ⟨rpn, -, hvalue⟩⟩
  · exact Failure.worded_overall _ _
  · exact Token.worded_of_tokenize hlimits hlength htokens
  · have hcount := Token.length_le_of_tokenize htokens
    exact Rpn.worded_of_ofInfix hlimits (hcount.trans_lt hlength) hrpn
  · exact Rpn.worded_of_evaluate hlimits hvalue

lemma exists_compute_of_inRange (hlimits : limits.InRange)
    (hlength : expression.length < writableBound) : ∃ c, compute limits expression = .ok c := by
  unfold compute
  split
  · exact ⟨_, rfl⟩
  · exact ⟨_, rfl⟩
  · next h => exact absurd rfl (worded_of_calculate hlimits hlength h)

lemma fits_of_calculate {value : Number} (h : calculate limits expression = .ok value) :
    value.Fits limits.integerBits := by
  obtain ⟨_, _, -, -, hvalue⟩ := stages_of_calculate h
  exact Rpn.fits_of_evaluate hvalue

lemma isWritable_of_fits (hlimits : limits.InRange) {n : Int}
    (h : (Number.int n).Fits limits.integerBits) : isWritable n = true := by
  have hmax := hlimits.integerBits_le
  simp only [Number.Fits] at h
  exact isWritable_of_natAbs_lt (Number.bitLength_le_iff.1 (by omega))

/-- A number that settings allow has a text. -/
lemma exists_display (hlimits : limits.InRange) {value : Number}
    (h : value.Fits limits.integerBits) : ∃ text, value.display = .ok text := by
  cases value with
  | int n => exact ⟨_, Number.display_int (isWritable_of_fits hlimits h)⟩
  | float x => exact Number.exists_display_float x

/-- Under limits in range a computation has a line. -/
lemma exists_line_of_compute (hlimits : limits.InRange) {c : Computation}
    (hc : compute limits expression = .ok c) : ∃ line, c.line = .ok line := by
  cases houtcome : c.outcome with
  | error e => exact ⟨_, by rw [Computation.line, houtcome]⟩
  | ok value =>
    obtain ⟨text, htext⟩ :=
      exists_display hlimits (fits_of_calculate (calculate_of_compute hc houtcome))
    refine ⟨c.expression ++ " = " ++ text, ?_⟩
    rw [Computation.line, houtcome]
    simp only [valueLine, htext]

/-- Under limits in range every expression has a computation, be it with a value or with an error, and
every computation has a line.  The expression itself must not be so long that its length cannot be
written. -/
theorem exists_line_of_inRange (hlimits : limits.InRange)
    (hlength : expression.length < writableBound) :
    ∃ c line, compute limits expression = .ok c ∧ c.line = .ok line := by
  obtain ⟨c, hc⟩ := exists_compute_of_inRange hlimits hlength
  obtain ⟨line, hline⟩ := exists_line_of_compute hlimits hc
  exact ⟨c, line, hc, hline⟩

/-- Limits in range that let every exponent pass which is not longer than integers may be. -/
def widestLimits : Limits := { exponent := 10 ^ 5000, integerBits := 14000 }

/-- The exponent is within its limit, and the estimate of the power has more than four thousand digits.
It can just be written. -/
theorem exists_line_of_inRange_sample :
    (widestLimits.InRange ∧ "(2^13999)^(2^13999)".length < writableBound) ∧
      ∃ c line, compute widestLimits "(2^13999)^(2^13999)" = .ok c ∧ c.line = .ok line :=
  have hlimits : widestLimits.InRange := by constructor <;> decide +kernel
  have hlength : "(2^13999)^(2^13999)".length < writableBound := by decide +kernel
  ⟨⟨hlimits, hlength⟩, exists_line_of_inRange hlimits hlength⟩

end InfixCalculator
