import InfixCalculator.Proofs.Conversion.Group
import InfixCalculator.Proofs.Conversion.Stack

/-!
# Only parentheses make a conversion fail

Whether a token list has a postfix order is decided by its parentheses alone, read from left to right
with the list of those that are open (`verdict`).  The first that closes nothing, or is nested too
deeply, ends the reading; if there is none, the parentheses must all be closed in the end, or the last
one that is open is at fault.

The conversion has its parentheses and its operators on one stack.  It keeps to the verdict because the
parentheses on the stack are those that are open, and the depth is their number (`finish_verdict`).
-/

namespace InfixCalculator

namespace Token

/-- What the parentheses of a token list come to. -/
inductive Verdict where
  /-- All are closed. -/
  | matched
  /-- The parenthesis at this position closes nothing. -/
  | unmatchedClose (position : Int)
  /-- A parenthesis is nested too deeply. -/
  | tooDeep
  /-- The parenthesis at this position is the last one that is still open in the end. -/
  | unmatchedOpen (position : Int)
  deriving DecidableEq, Repr

/-- The verdict on a token list, if some parentheses are open before it, the innermost being the first
of the list.  Their number is the depth. -/
def verdict (bound : Int) (waiting : List Token) : List Token → Verdict
  | [] =>
    match waiting with
    | [] => .matched
    | opening :: _ => .unmatchedOpen opening.position
  | token :: rest =>
    if token.kind = .closeParen ∧ waiting.length = 0 then .unmatchedClose token.position
    else if token.kind = .openParen ∧ bound < (waiting.length + 1 : Nat) then .tooDeep
    else verdict bound (token.openAfter waiting) rest

/-- Nothing but the parentheses matters for the verdict. -/
lemma verdict_filter (bound : Int) (waiting tokens : List Token) :
    verdict bound waiting (tokens.filter isParenthesis) = verdict bound waiting tokens := by
  induction tokens generalizing waiting with
  | nil => rfl
  | cons token rest ih =>
    by_cases hp : token.isParenthesis = true
    · rw [List.filter_cons_of_pos hp, verdict, verdict, ih]
    · have hkinds : ¬token.kind = .openParen ∧ ¬token.kind = .closeParen := by
        simpa [isParenthesis] using hp
      have hsame : token.openAfter waiting = waiting := by
        unfold openAfter
        split
        · next hk => exact absurd hk hkinds.1
        · next hk => exact absurd hk hkinds.2
        · rfl
      rw [List.filter_cons_of_neg hp, ih, verdict, if_neg (fun h => hkinds.2 h.1),
        if_neg (fun h => hkinds.1 h.1), hsame]

end Token

/-- The answer of a conversion to a token list with the given verdict.  A parenthesis that is nested too
deeply is one more than are admitted, and a negative bound admits as many as zero. -/
def Token.Verdict.answer (limits : Limits) (source : Option String) : Verdict → Except Failure Unit
  | matched => .ok ()
  | unmatchedClose position => .error (.atPosition .unmatchedClose position source)
  | tooDeep =>
    .error (.beyond Limit.nestingDepth.name limits.nestingDepth (max limits.nestingDepth 0 + 1))
  | unmatchedOpen position => .error (.atPosition .unmatchedOpen position source)

namespace Rpn

open Token

variable {limits : Limits} {source : Option String} {token : Token}

namespace Conversion

variable {config config' : Conversion}

/-- In the end the innermost of the parentheses that wait is at fault. -/
lemma drain_verdict (stack : List Token) (output : Array Token) :
    (drain source stack output).map (fun _ => ()) =
      (verdict limits.nestingDepth (opened stack) []).answer limits source := by
  induction stack generalizing output with
  | nil => rfl
  | cons top rest ih =>
    by_cases htop : top.kind = .openParen
    · rw [drain, if_pos htop, opened_cons_open htop]
      rfl
    · rw [drain, if_neg htop, opened_cons_of_ne htop, ih]

/-- The depth does not exceed its bound, which is taken for zero if it is negative. -/
lemma depth_le_bound_of_step (h : config.step limits source token = .ok config')
    (hb : (config.depth : Int) ≤ max limits.nestingDepth 0) :
    (config'.depth : Int) ≤ max limits.nestingDepth 0 := by
  rcases step_eq_ok h with ⟨-, rfl⟩ | ⟨-, hle, rfl⟩ | ⟨_, _, _, -, -, -, -, rfl⟩ |
    ⟨_, _, _, -, -, -, -, rfl⟩
  · exact hb
  · exact Int.le_trans hle (Int.le_max_left _ _)
  · simp only
    omega
  · exact hb

/-- A step fails as the verdict says. -/
lemma verdict_of_step_error {failure : Failure} (rest : List Token)
    (h : config.step limits source token = .error failure)
    (hd : config.depth = openGroups config.stack)
    (hb : (config.depth : Int) ≤ max limits.nestingDepth 0) :
    (verdict limits.nestingDepth (opened config.stack) (token :: rest)).answer limits source =
      .error failure := by
  have hlength : (opened config.stack).length = config.depth := by rw [length_opened, hd]
  rw [verdict, hlength]
  rcases step_eq_error h with ⟨hk, hcheck⟩ | ⟨hk, hclose, rfl⟩
  · -- the depth before was within the bound, so the bound is exceeded by one
    have hlt : limits.nestingDepth < (config.depth + 1 : Nat) := by
      by_contra hle
      have hok : limits.check .nestingDepth (config.depth + 1 : Nat) = .ok () :=
        Limits.check_of_le (Int.not_lt.1 hle)
      rw [hok] at hcheck
      exact absurd hcheck (by simp)
    have hactual : max limits.nestingDepth 0 + 1 = (config.depth + 1 : Nat) := by omega
    rw [Limits.check_of_lt hlt] at hcheck
    rw [if_neg (by simp [hk]), if_pos ⟨hk, hlt⟩, Verdict.answer, hactual, ← hcheck]
    rfl
  · have hnone : config.depth = 0 := by
      rw [← hlength, opened_eq_nil_of_closeGroup? hclose, List.length_nil]
    rw [if_pos ⟨hk, hnone⟩]
    rfl

/-- A step that succeeds leaves the verdict to the tokens after it. -/
lemma verdict_of_step_ok (rest : List Token) (h : config.step limits source token = .ok config')
    (hd : config.depth = openGroups config.stack) :
    verdict limits.nestingDepth (opened config.stack) (token :: rest) =
      verdict limits.nestingDepth (opened config'.stack) rest := by
  have hlength : (opened config.stack).length = config.depth := by rw [length_opened, hd]
  rw [verdict, hlength, opened_of_step h]
  rcases step_eq_ok h with ⟨hk, -⟩ | ⟨hk, hle, -⟩ | ⟨waiting, opening, stack, hk, ho, hw, hs, -⟩ |
    ⟨op, _, _, hk, -, -, -, -⟩
  · rw [if_neg (by simp [hk]), if_neg (by simp [hk])]
  · rw [if_neg (by simp [hk]), if_neg fun hdeep => absurd hle (Int.not_le.2 hdeep.2)]
  · have hopen : config.depth ≠ 0 := by
      rw [← hlength, hs, opened_append_of_no_open hw, opened_cons_open ho]
      simp
    rw [if_neg fun hnone => hopen hnone.2, if_neg (by simp [hk])]
  · rw [if_neg (by simp [hk]), if_neg (by simp [hk])]

/-- From any configuration in which the depth is right, the conversion of the rest answers as the verdict
on its parentheses says. -/
lemma finish_verdict {tokens : List Token} (hd : config.depth = openGroups config.stack)
    (hb : (config.depth : Int) ≤ max limits.nestingDepth 0) :
    (config.finish limits source tokens).map (fun _ => ()) =
      (verdict limits.nestingDepth (opened config.stack) tokens).answer limits source := by
  induction tokens generalizing config with
  | nil => exact drain_verdict config.stack config.output
  | cons token rest ih =>
    rw [finish, run_cons]
    cases hstep : config.step limits source token with
    | error failure =>
      rw [verdict_of_step_error rest hstep hd hb]
      rfl
    | ok next =>
      rw [verdict_of_step_ok rest hstep hd]
      exact ih (depth_eq_of_step hstep hd) (depth_le_bound_of_step hstep hb)

end Conversion

/-- The conversion of any token list, under any limits, succeeds or fails as the verdict on its
parentheses says.  It does the same if nothing but the parentheses are kept of the list. -/
theorem ofInfix_verdict (limits : Limits) (source : Option String) (tokens : List Token) :
    (ofInfix limits source tokens).map (fun _ => ()) =
        (verdict limits.nestingDepth [] tokens).answer limits source ∧
      (ofInfix limits source (tokens.filter isParenthesis)).map (fun _ => ()) =
        (ofInfix limits source tokens).map (fun _ => ()) := by
  have hverdict (tokens : List Token) : (ofInfix limits source tokens).map (fun _ => ()) =
      (verdict limits.nestingDepth [] tokens).answer limits source := by
    have hfinish : (Conversion.initial.finish limits source tokens).map (fun _ => ()) =
        (verdict limits.nestingDepth [] tokens).answer limits source :=
      Conversion.finish_verdict rfl (Int.le_max_right _ _)
    rw [ofInfix_eq_finish, ← hfinish]
    cases Conversion.initial.finish limits source tokens <;> rfl
  exact ⟨hverdict tokens, by rw [hverdict, hverdict, verdict_filter]⟩

/-- In `)+((`, under a negative bound: the parenthesis that closes nothing comes before those that are
nested too deeply. -/
example : ofInfix { nestingDepth := -1 } none
    [⟨.closeParen, ")", 0⟩, ⟨.operator .add, "+", 1⟩, ⟨.openParen, "(", 2⟩, ⟨.openParen, "(", 3⟩] =
      .error (.atPosition .unmatchedClose 0 none) := by
  decide

end Rpn

end InfixCalculator
