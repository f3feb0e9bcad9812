import InfixCalculator.Proofs.Computation.Acceptance
import InfixCalculator.Proofs.Conversion.Parentheses
import InfixCalculator.Proofs.Token.Refusal

/-!
# Where the work on an expression stops

Every cause of an error arises in one stage, and so does every limit: the cause tells which milestones
have been passed before (`Cause.milestones`).  The stages are gone through one by one
(`Token.after_of_tokenize`, `Rpn.after_of_ofInfix`, `Rpn.after_of_evaluate`), and the milestones of the
work on an expression are those of its error, or all of them (`milestones_of_error`,
`milestones_of_value`).

How far the work goes before the evaluation can also be told from the text.  It is split into tokens
unless it is refused (`Refused`), and its tokens are brought into postfix order unless their parentheses
are at fault (`Mismatched`); see `milestones_of_text`.
-/

namespace InfixCalculator

/-- The milestones that are passed before an error with this cause. -/
def Cause.milestones : Cause → List Milestone
  | emptyExpression => []
  | invalidCharacter _ => []
  | unmatchedClose => [.tokenized]
  | unmatchedOpen => [.tokenized]
  | limitExceeded limit _ _ =>
    if limit = Limit.expressionLength.name ∨ limit = Limit.tokenCount.name then []
    else if limit = Limit.nestingDepth.name then [.tokenized]
    else [.tokenized, .converted]
  | _ => [.tokenized, .converted]

/-- What comes after the conversion comes in the evaluation. -/
lemma Cause.milestones_of_converted_mem {cause : Cause} (h : .converted ∈ cause.milestones) :
    cause.milestones = [.tokenized, .converted] := by
  cases cause with
  | emptyExpression | invalidCharacter | unmatchedClose | unmatchedOpen =>
    exact absurd h (by simp [milestones])
  | limitExceeded limit bound actual =>
    simp only [milestones] at h ⊢
    split_ifs at h ⊢
    · exact absurd h (by simp)
    · exact absurd h (by simp)
    · rfl
  | _ => rfl

/-- The failure, if it is an error, has a cause that arises after these milestones. -/
def Failure.After (milestones : List Milestone) (failure : Failure) : Prop :=
  ∀ e, failure = .error e → e.cause.milestones = milestones

variable {limits : Limits} {source : Option String} {failure : Failure} {ms : List Milestone}

/-! ## The stages of causes -/

lemma Failure.after_atPosition {cause : Cause} (h : cause.milestones = ms) (position : Int)
    (source : Option String) : (atPosition cause position source).After ms := by
  intro e he
  cases he
  exact h

lemma Failure.after_overall {cause : Cause} (h : cause.milestones = ms) (source : Option String) :
    (overall cause source).After ms := by
  intro e he
  cases he
  exact h

/-- A limit is exceeded in the stage in which the quantity is compared with it. -/
lemma Limits.after_of_check {limit : Limit} {actual : Int}
    (hc : limits.check limit actual = .error failure)
    (h : ∀ bound actual, (Cause.limitExceeded limit.name bound actual).milestones = ms) :
    failure.After ms := by
  unfold check Failure.beyond at hc
  split at hc
  · split at hc
    · cases hc
      exact Failure.after_overall (h _ _) none
    · cases hc
      exact fun e he => absurd he (by simp)
  · exact absurd hc (by simp)

lemma Token.after_of_tokenize {text : String} (h : tokenize limits text = .error failure) :
    failure.After [] := by
  rw [tokenize_eq_verdict] at h
  split at h
  · next hcheck =>
      cases h
      exact Limits.after_of_check hcheck fun _ _ => rfl
  · unfold Segments.verdict at h
    split at h
    · rw [← Except.error.inj h]
      exact Limits.after_of_check (check_tooMany limits) fun _ _ => rfl
    · split at h
      · cases h
        exact Failure.after_atPosition rfl _ _
      · exact absurd h (by simp)

namespace Rpn

lemma Conversion.after_of_run {config : Conversion} {tokens : List Token}
    (h : config.run limits source tokens = .error failure) : failure.After [.tokenized] := by
  induction tokens generalizing config with
  | nil => exact absurd h (by simp)
  | cons token rest ih =>
    rw [run_cons] at h
    split at h
    · next hstep =>
        cases h
        rcases step_eq_error hstep with ⟨-, hcheck⟩ | ⟨-, -, rfl⟩
        · exact Limits.after_of_check hcheck fun _ _ => rfl
        · exact Failure.after_atPosition rfl _ _
    · exact ih h

lemma Conversion.after_of_drain {stack : List Token} {output : Array Token}
    (h : drain source stack output = .error failure) : failure.After [.tokenized] := by
  induction stack generalizing output with
  | nil => exact absurd h (by simp [drain])
  | cons top rest ih =>
    rw [drain] at h
    split at h
    · cases h
      exact Failure.after_atPosition rfl _ _
    · exact ih h

lemma after_of_ofInfix {tokens : List Token} (h : ofInfix limits source tokens = .error failure) :
    failure.After [.tokenized] := by
  rcases ofInfix_eq_error h with hrun | ⟨config, -, hdrain⟩
  · exact Conversion.after_of_run hrun
  · exact Conversion.after_of_drain hdrain

/-! ## Evaluating -/

/-- An integer that is too large is found in the last stage. -/
lemma after_of_checkInteger {n : Int} (h : limits.checkInteger n = .error failure) :
    failure.After [.tokenized, .converted] :=
  Limits.after_of_check h fun _ _ => rfl

lemma after_of_literalValue {token : Token} (h : literalValue limits source token = .error failure) :
    failure.After [.tokenized, .converted] := by
  unfold literalValue at h
  split at h
  · cases h
    exact Failure.after_atPosition rfl _ _
  · exact absurd h (by simp)
  · split at h
    · next hcheck =>
        cases h
        exact after_of_checkInteger hcheck
    · exact absurd h (by simp)

lemma after_of_checkPower {base exponent : Int}
    (h : checkPower limits base exponent = .error failure) :
    failure.After [.tokenized, .converted] := by
  unfold checkPower at h
  split at h
  · exact absurd h (by simp)
  · split at h
    · next hcheck =>
        cases h
        exact Limits.after_of_check hcheck fun _ _ => rfl
    · split at h
      · exact Limits.after_of_check h fun _ _ => rfl
      · exact absurd h (by simp)

lemma after_of_admissible {op : Operator} {position : Int} {left right : Number}
    (h : admissible limits source op position left right = .error failure) :
    failure.After [.tokenized, .converted] := by
  unfold admissible at h
  split at h
  · split at h
    · cases h
      exact Failure.after_atPosition rfl _ _
    · exact absurd h (by simp)
  · split at h
    · cases h
      exact Failure.after_atPosition rfl _ _
    · split at h
      · exact after_of_checkPower h
      · exact absurd h (by simp)
  · exact absurd h (by simp)

lemma after_of_combine {op : Operator} {position : Int} {left right : Number}
    (h : combine limits source op position left right = .error failure) :
    failure.After [.tokenized, .converted] := by
  unfold combine at h
  split at h
  · next hadm =>
      cases h
      exact after_of_admissible hadm
  · split at h
    · next fault _ =>
        cases h
        exact Failure.after_atPosition (by cases fault <;> rfl) _ _
    · unfold checkResult at h
      split at h
      · split at h
        · next hcheck =>
            cases h
            exact after_of_checkInteger hcheck
        · exact absurd h (by simp)
      · split at h
        · exact absurd h (by simp)
        · cases h
          exact Failure.after_atPosition rfl _ _

lemma after_of_step {stack : List Number} {token : Token}
    (h : step limits source stack token = .error failure) :
    failure.After [.tokenized, .converted] := by
  unfold step at h
  split at h
  · split at h
    · next hvalue =>
        cases h
        exact after_of_literalValue hvalue
    · exact absurd h (by simp)
  · split at h
    · split at h
      · next hcombine =>
          cases h
          exact after_of_combine hcombine
      · exact absurd h (by simp)
    · cases h
      exact Failure.after_atPosition rfl _ _
  · cases h
    exact Failure.after_atPosition rfl _ _

lemma after_of_run {stack : List Number} {tokens : List Token}
    (h : run limits source stack tokens = .error failure) :
    failure.After [.tokenized, .converted] := by
  induction tokens generalizing stack with
  | nil => exact absurd h (by simp)
  | cons token rest ih =>
    rw [run_cons] at h
    split at h
    · next hstep =>
        cases h
        exact after_of_step hstep
    · exact ih h

lemma after_of_evaluate {tokens : List Token}
    (h : evaluate limits source tokens = .error failure) :
    failure.After [.tokenized, .converted] := by
  rcases evaluate_eq_error h with hrun | rfl | ⟨count, rfl⟩
  · exact after_of_run hrun
  · exact Failure.after_overall rfl _
  · exact Failure.after_overall rfl _

end Rpn

/-! ## The work on an expression -/

variable {expression : String}

/-- An error ends the work after the milestones that its cause tells. -/
lemma milestones_of_error {e : ExpressionError}
    (h : calculate limits expression = .error (.error e)) :
    (progress limits expression).milestones = e.cause.milestones := by
  unfold calculate at h
  unfold progress at h ⊢
  split
  · next hblank =>
      rw [if_pos hblank] at h
      cases h
      rfl
  · next hblank =>
      rw [if_neg hblank] at h
      split
      · next htokens =>
          simp only [htokens] at h
          cases h
          exact (Token.after_of_tokenize htokens e rfl).symm
      · next tokens htokens =>
          simp only [htokens] at h
          split
          · next hrpn =>
              simp only [hrpn] at h
              cases h
              exact (Rpn.after_of_ofInfix hrpn e rfl).symm
          · next rpn hrpn =>
              simp only [hrpn] at h
              split
              · next hvalue =>
                  simp only [hvalue] at h
                  cases h
                  exact (Rpn.after_of_evaluate hvalue e rfl).symm
              · next value hvalue =>
                  simp only [hvalue] at h
                  exact absurd h (by simp)

/-- A value is reached after all milestones. -/
lemma milestones_of_value {value : Number} (h : calculate limits expression = .ok value) :
    (progress limits expression).milestones = [.tokenized, .converted, .evaluated] := by
  have hblank := not_blank_of_calculate h
  obtain ⟨tokens, rpn, htokens, hrpn, hvalue⟩ := stages_of_calculate h
  rw [progress, hblank, if_neg Bool.false_ne_true]
  simp only [htokens, hrpn, hvalue]

/-! ## The stages of texts -/

/-- The expression is blank, it has a character that can be part of no token, or its characters or its
tokens are too many. -/
def Refused (limits : Limits) (expression : String) : Prop :=
  Token.isBlank expression = true ∨ (∃ c ∈ expression.toList, Token.isForeign c = true) ∨
    limits.expressionLength < expression.length ∨
    limits.tokenCount < (Token.segments 0 [] expression.toList).tokens.length

/-- Some parenthesis has no partner, or parentheses are nested too deeply. -/
def Mismatched (limits : Limits) (tokens : List Token) : Prop :=
  Token.closes 0 tokens = false ∨ limits.nestingDepth < Token.nesting tokens

namespace Token

/-- A text is scanned to its end exactly if no character in it is foreign. -/
lemma stop_eq_none_iff (position : Int) (pending s : List Char) :
    (segments position pending s).stop = none ↔ ∀ c ∈ s, isForeign c = false := by
  refine ⟨fun h => ?_, stop_eq_none⟩
  fun_induction segments position pending s with
  | case1 position pending => simp
  | case2 position pending c rest hb ih =>
    exact List.forall_mem_cons.2 ⟨by simp [isForeign, hb], ih h⟩
  | case3 position pending c rest hb hp ih =>
    exact List.forall_mem_cons.2 ⟨by simp [isForeign, hp], ih h⟩
  | case4 position pending c rest hb hp => exact absurd h (by simp)

/-- An expression that is not refused is split into the tokens of its text. -/
lemma not_refused_iff (hcount : 0 ≤ limits.tokenCount) :
    ¬Refused limits expression ↔ isBlank expression = false ∧
      tokenize limits expression = .ok (segments 0 [] expression.toList).tokens := by
  have hstop : segments 0 [] expression.toList = ⟨(segments 0 [] expression.toList).tokens, none⟩ ↔
      ∀ c ∈ expression.toList, isForeign c = false := by
    rw [← stop_eq_none_iff 0 []]
    exact ⟨fun h => congrArg Segments.stop h, fun h => congrArg (Segments.mk _) h⟩
  have hbound : (segments 0 [] expression.toList).tokens.length ≤ limits.tokenCount.toNat ↔
      ¬limits.tokenCount < (segments 0 [] expression.toList).tokens.length := by
    omega
  rw [tokenize_eq_ok_iff, hstop, hbound, Refused]
  simp only [not_or, not_exists, not_and, Int.not_lt, Bool.not_eq_true]
  tauto

/-- The verdict is that all parentheses are closed exactly if they are and are not nested too deeply. -/
lemma verdict_eq_matched_iff {bound : Int} {waiting tokens : List Token}
    (h : (waiting.length : Int) ≤ bound) :
    verdict bound waiting tokens = .matched ↔
      closes waiting.length tokens = true ∧ (nestingFrom waiting.length tokens : Int) ≤ bound := by
  induction tokens generalizing waiting with
  | nil =>
    cases waiting with
    | nil => simpa [verdict, closes] using h
    | cons opening rest => simp [verdict, closes]
  | cons token rest ih =>
    have hmax {n : Nat} : ((max waiting.length n : Nat) : Int) ≤ bound ↔ (n : Int) ≤ bound := by
      omega
    rw [verdict, closes, nestingFrom_cons, hmax]
    cases hk : token.kind with
    | openParen =>
      by_cases hdeep : bound < (waiting.length + 1 : Nat)
      · -- the depth is counted from the parenthesis on
        have hle := le_nestingFrom (waiting.length + 1) rest
        simp only [reduceCtorEq, false_and, if_false, true_and, if_pos hdeep, Kind.shift, false_iff,
          not_and]
        omega
      · have hnext : (token.openAfter waiting).length = waiting.length + 1 := by
          simp [openAfter, hk]
        have hle : ((token.openAfter waiting).length : Int) ≤ bound := by
          rw [hnext]
          exact Int.not_lt.1 hdeep
        simp only [reduceCtorEq, false_and, if_false, true_and, if_neg hdeep, ih hle, hnext,
          Kind.shift]
    | closeParen =>
      by_cases hnone : waiting.length = 0
      · simp [hnone]
      · have hnext : (token.openAfter waiting).length = waiting.length - 1 := by
          simp [openAfter, hk]
        have hle : ((token.openAfter waiting).length : Int) ≤ bound := by omega
        simp [hnone, ih hle, hnext, Kind.shift]
    | literal =>
      have hnext : token.openAfter waiting = waiting := by simp [openAfter, hk]
      simp [hnext, ih h, Kind.shift]
    | operator op =>
      have hnext : token.openAfter waiting = waiting := by simp [openAfter, hk]
      simp [hnext, ih h, Kind.shift]

end Token

/-- The parentheses decide whether there is a postfix order. -/
lemma Rpn.exists_ofInfix_iff (hdepth : 0 ≤ limits.nestingDepth) (source : Option String)
    (tokens : List Token) :
    (∃ rpn, ofInfix limits source tokens = .ok rpn) ↔ ¬Mismatched limits tokens := by
  have hverdict : (Conversion.initial.finish limits source tokens).map (fun _ => ()) =
      (Token.verdict limits.nestingDepth [] tokens).answer limits source :=
    Conversion.finish_verdict rfl (Int.le_max_right _ _)
  have hmatched : (Token.verdict limits.nestingDepth [] tokens).answer limits source = .ok () ↔
      Token.verdict limits.nestingDepth [] tokens = .matched := by
    cases Token.verdict limits.nestingDepth [] tokens with
    | matched => simp [Token.Verdict.answer]
    | unmatchedClose position => simp [Token.Verdict.answer, Failure.atPosition]
    | tooDeep => simp [Token.Verdict.answer]
    | unmatchedOpen position => simp [Token.Verdict.answer]
  have hclosed : Token.verdict limits.nestingDepth [] tokens = .matched ↔
      Token.closes 0 tokens = true ∧ (Token.nesting tokens : Int) ≤ limits.nestingDepth :=
    Token.verdict_eq_matched_iff hdepth
  rw [Mismatched, not_or, Bool.not_eq_false, Int.not_lt, ← hclosed, ← hmatched, ← hverdict,
    ofInfix_eq_finish]
  cases Conversion.initial.finish limits source tokens <;> simp [Except.map]

/-- The text tells how far the work goes, up to the evaluation. -/
lemma milestones_of_text (hcount : 0 ≤ limits.tokenCount) (hdepth : 0 ≤ limits.nestingDepth) :
    (Refused limits expression ∧ (progress limits expression).milestones = []) ∨
    (¬Refused limits expression ∧
      Mismatched limits (Token.segments 0 [] expression.toList).tokens ∧
      (progress limits expression).milestones = [.tokenized]) ∨
    (¬Refused limits expression ∧
      ¬Mismatched limits (Token.segments 0 [] expression.toList).tokens ∧
      .converted ∈ (progress limits expression).milestones) := by
  by_cases href : Refused limits expression
  · left
    refine ⟨href, ?_⟩
    cases hblank : Token.isBlank expression with
    | true => rw [progress, hblank, if_pos rfl]
    | false =>
      rw [progress, hblank, if_neg Bool.false_ne_true]
      cases htokens : Token.tokenize limits expression with
      | error failure => rfl
      | ok tokens =>
        have hsegments : Token.segments 0 [] expression.toList = ⟨tokens, none⟩ :=
          (Token.tokenize_eq_ok_iff.1 htokens).2.1
        refine absurd href ((Token.not_refused_iff hcount).2 ⟨hblank, ?_⟩)
        rw [htokens, hsegments]
  · right
    obtain ⟨hblank, htokens⟩ := (Token.not_refused_iff hcount).1 href
    have hrpn := Rpn.exists_ofInfix_iff hdepth (some expression)
      (Token.segments 0 [] expression.toList).tokens
    rw [progress, hblank, if_neg Bool.false_ne_true, htokens]
    simp only
    cases hordered : Rpn.ofInfix limits (some expression)
        (Token.segments 0 [] expression.toList).tokens with
    | error failure =>
      left
      -- parentheses that are not at fault would have given a postfix order
      refine ⟨href, by_contra fun hmatched => ?_, rfl⟩
      obtain ⟨rpn, hok⟩ := hrpn.2 hmatched
      exact absurd (hordered.symm.trans hok) (by simp)
    | ok rpn =>
      right
      refine ⟨href, hrpn.1 ⟨rpn, hordered⟩, ?_⟩
      simp only
      split <;> simp

/-- Nothing has been done exactly if the expression is refused. -/
lemma milestones_eq_nil_iff (hcount : 0 ≤ limits.tokenCount) (hdepth : 0 ≤ limits.nestingDepth) :
    (progress limits expression).milestones = [] ↔ Refused limits expression := by
  rcases milestones_of_text hcount hdepth with ⟨href, hms⟩ | ⟨href, -, hms⟩ | ⟨href, -, hms⟩
  · exact iff_of_true hms href
  · exact iff_of_false (by simp [hms]) href
  · exact iff_of_false (List.ne_nil_of_mem hms) href

/-- The work ends between its first two stages exactly if the expression is not refused, but its
parentheses are at fault. -/
lemma milestones_eq_tokenized_iff (hcount : 0 ≤ limits.tokenCount)
    (hdepth : 0 ≤ limits.nestingDepth) :
    (progress limits expression).milestones = [.tokenized] ↔
      ¬Refused limits expression ∧
        Mismatched limits (Token.segments 0 [] expression.toList).tokens := by
  rcases milestones_of_text hcount hdepth with ⟨href, hms⟩ | ⟨href, hmis, hms⟩ | ⟨href, hmis, hms⟩
  · exact iff_of_false (by simp [hms]) fun h => h.1 href
  · exact iff_of_true hms ⟨href, hmis⟩
  · refine iff_of_false (fun hone => ?_) fun h => hmis h.2
    rw [hone] at hms
    exact absurd hms (by simp)

end InfixCalculator
