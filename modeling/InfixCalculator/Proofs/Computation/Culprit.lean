import InfixCalculator.Proofs.Computation.Acceptance
import InfixCalculator.Proofs.Number.Faults
import InfixCalculator.Proofs.Token.Surroundings

/-!
# Errors point at their culprits

An error blames a character of the expression, the first character of a literal, or nothing in
particular.  Which characters a cause may blame is said by `Blames`, of the text and the position
alone: a parenthesis without its partner is blamed on a parenthesis of its own kind, an operation that
fails on its operator, a literal that is no number on the whole literal, from its first character to
its last.

Positions begin in the scan and are carried along by the tokens, through the conversion and the
evaluation, to the errors.  So each stage blames what the text holds at the positions of its tokens
(`blames_of_tokenize`, `Rpn.blames_of_ofInfix`, `Rpn.blames_of_evaluate`), and every computation that
fails points at its culprit (`blames_of_compute`).
-/

namespace InfixCalculator

/-- An error with the given cause at the given position blames what is wrong with the text.  Where
there is no position, no single character is to blame. -/
inductive Blames (s : List Char) : Cause → Option Int → Prop
  /-- A character that can be part of no token. -/
  | invalidCharacter {k : Nat} {c : Char} (h : s[k]? = some c)
      (hb : Token.isBoundary c = false) (hp : Text.isPrintable c = false) :
      Blames s (.invalidCharacter (String.singleton c)) (some k)
  /-- A closing parenthesis. -/
  | unmatchedClose {k : Nat} (h : s[k]? = some ')') : Blames s .unmatchedClose (some k)
  /-- An opening parenthesis. -/
  | unmatchedOpen {k : Nat} (h : s[k]? = some '(') : Blames s .unmatchedOpen (some k)
  /-- A whole literal, beside which there is no further character of a literal. -/
  | invalidLiteral {before after : List Char} {text : String}
      (h : s = before ++ text.toList ++ after) (hne : text ≠ "")
      (hbefore : ∀ c ∈ before.getLast?, Token.isBoundary c = true)
      (hafter : ∀ c ∈ after.head?, Token.isBoundary c = true) :
      Blames s (.invalidLiteral text) (some before.length)
  /-- The operator of a quotient or of a power. -/
  | divisionByZero {k : Nat} {c : Char} (h : s[k]? = some c) (hc : c = '/' ∨ c = '^') :
      Blames s .divisionByZero (some k)
  /-- The operator that the error names. -/
  | numericOverflow {k : Nat} {op : Operator} (h : s[k]? = some op.symbol) :
      Blames s (.numericOverflow (String.singleton op.symbol)) (some k)
  /-- The operator that the error names. -/
  | missingOperand {k : Nat} {op : Operator} (h : s[k]? = some op.symbol) :
      Blames s (.malformed (.missingOperand (String.singleton op.symbol))) (some k)
  /-- The operator of a power. -/
  | noRealResult {k : Nat} (base exponent : Number) (h : s[k]? = some '^') :
      Blames s (.malformed (.noRealResult base exponent)) (some k)
  /-- The text as a whole, which is blank. -/
  | emptyExpression (h : s.all Text.isSeparator = true) : Blames s .emptyExpression none
  /-- No character, but a quantity. -/
  | limitExceeded (limit : String) (bound actual : Int) :
      Blames s (.limitExceeded limit bound actual) none
  /-- The text as a whole, which has no value. -/
  | noValue : Blames s (.malformed .noValue) none
  /-- The text as a whole, which has several values. -/
  | leftOver (count : Nat) : Blames s (.malformed (.leftOver count)) none

/-- The failure, if it is an error, blames what is wrong with the text, and mentions no other text. -/
def Failure.Blames (text : String) (failure : Failure) : Prop :=
  ∀ e, failure = .error e →
    e.expression.getD text = text ∧ InfixCalculator.Blames text.toList e.cause e.position

variable {limits : Limits} {text : String} {failure : Failure}

namespace Blames

variable {s : List Char} {cause : Cause} {position : Option Int}

/-- A position is one of the text. -/
lemma position_lt (h : Blames s cause position) : ∀ p ∈ position, 0 ≤ p ∧ p < s.length := by
  have hplace {k : Nat} {c : Char} (hk : s[k]? = some c) :
      ∀ p ∈ some (k : Int), 0 ≤ p ∧ p < s.length := by
    intro p hp
    obtain rfl : (k : Int) = p := Option.mem_some_iff.1 hp
    obtain ⟨hlt, -⟩ := List.getElem?_eq_some_iff.1 hk
    exact ⟨Int.natCast_nonneg k, by exact_mod_cast hlt⟩
  cases h with
  | invalidCharacter hk => exact hplace hk
  | unmatchedClose hk => exact hplace hk
  | unmatchedOpen hk => exact hplace hk
  | @invalidLiteral before after text hs hne =>
    intro p hp
    obtain rfl : (before.length : Int) = p := Option.mem_some_iff.1 hp
    have hpos : 0 < text.toList.length := by
      rw [String.length_toList]
      exact Nat.pos_of_ne_zero fun hzero => hne (String.length_eq_zero_iff.1 hzero)
    have hlength := congrArg List.length hs
    simp only [List.length_append] at hlength
    omega
  | divisionByZero hk => exact hplace hk
  | numericOverflow hk => exact hplace hk
  | missingOperand hk => exact hplace hk
  | noRealResult base exponent hk => exact hplace hk
  | emptyExpression => simp
  | limitExceeded => simp
  | noValue => simp
  | leftOver => simp

/-- There is no position where a quantity or the text as a whole is to blame, and only there. -/
lemma position_eq_none_iff (h : Blames s cause position) :
    position = none ↔ cause.kind = .emptyExpression ∨ cause.kind = .limitExceeded ∨
      cause = .malformed .noValue ∨ ∃ count, cause = .malformed (.leftOver count) := by
  cases h <;> simp [Cause.kind]

/-- No message is about a parenthesis in a postfix sequence. -/
lemma not_prefix_message (h : Blames s cause position) :
    ¬ "Unexpected token in postfix input".toList <+: cause.message.toList := by
  -- the other messages begin with other words
  have hother {words rest message : String} (hm : message = words ++ rest)
      (hw : ¬ "Unexpected token in postfix input".toList <+: words.toList := by decide)
      (hw' : ¬ words.toList <+: "Unexpected token in postfix input".toList := by decide) :
      ¬ "Unexpected token in postfix input".toList <+: message.toList := by
    intro hprefix
    rw [hm, String.toList_append] at hprefix
    exact (List.prefix_or_prefix_of_prefix hprefix (List.prefix_append _ _)).elim hw hw'
  cases h with
  | invalidCharacter => exact hother rfl
  | unmatchedClose => decide
  | unmatchedOpen => decide
  | invalidLiteral => exact hother (String.append_assoc ..)
  | divisionByZero => decide
  | numericOverflow => exact hother (String.append_assoc ..)
  | missingOperand => exact hother (String.append_assoc ..)
  | noRealResult =>
    exact hother ((String.append_assoc ..).trans (String.append_assoc ..))
  | emptyExpression => decide
  | limitExceeded limit bound actual =>
    have hm : (Cause.limitExceeded limit bound actual).message =
        "Limit exceeded: " ++ limit ++ " (limit: " ++ Numeral.text bound ++ ", actual: " ++
          Numeral.text actual ++ ")" := rfl
    simp only [String.append_assoc] at hm
    exact hother hm
  | noValue => decide
  | leftOver => exact hother (String.append_assoc ..)

end Blames

/-! ## Failures of every stage -/

lemma Failure.blames_atPosition {cause : Cause} {k : Int}
    (h : InfixCalculator.Blames text.toList cause (some k)) :
    (atPosition cause k (some text)).Blames text := by
  intro e he
  cases he
  exact ⟨rfl, h⟩

lemma Failure.blames_overall {cause : Cause}
    (h : InfixCalculator.Blames text.toList cause none) :
    (overall cause (some text)).Blames text := by
  intro e he
  cases he
  exact ⟨rfl, h⟩

/-- A limit that is exceeded is no character's fault. -/
lemma Limits.Exceeded.blames (h : limits.Exceeded failure) : failure.Blames text := by
  obtain ⟨limit, actual, -, hf⟩ := h
  intro e he
  rw [hf, Failure.beyond] at he
  split at he
  · rw [← Failure.error.inj he]
    exact ⟨rfl, .limitExceeded _ _ _⟩
  · exact absurd he (by simp)

/-! ## Splitting into tokens -/

lemma blames_of_tokenize (h : Token.tokenize limits text = .error failure) :
    failure.Blames text := by
  rw [Token.tokenize_eq_verdict] at h
  split at h
  · next hcheck =>
      cases h
      exact (Limits.check_eq_error hcheck).blames
  · unfold Token.Segments.verdict at h
    split at h
    · rw [← Except.error.inj h]
      exact (Limits.check_eq_error (Token.check_tooMany limits)).blames
    · split at h
      · next c p hstop =>
          cases h
          obtain ⟨k, rfl, hk, hb, hp⟩ := Token.mem_of_stop hstop
          rw [Int.zero_add]
          exact Failure.blames_atPosition (.invalidCharacter hk hb hp)
      · exact absurd h (by simp)

namespace Rpn

/-- The tokens are spelled as their kinds demand, and stand in the text. -/
def StandIn (text : String) (tokens : List Token) : Prop :=
  ∀ token ∈ tokens, token.Spelled ∧ token.StandsApart 0 text.toList

variable {tokens : List Token}

lemma standIn_of_tokenize (h : Token.tokenize limits text = .ok tokens) : StandIn text tokens :=
  fun token ht =>
    ⟨Token.spelled_of_tokenize h token ht, Token.standsApart_of_tokenize h token ht⟩

lemma StandIn.char_of_symbol (h : StandIn text tokens) {token : Token} (ht : token ∈ tokens)
    {c : Char} (hc : token.kind.symbol? = some c) :
    ∃ k : Nat, token.position = k ∧ text.toList[k]? = some c ∧
      token.text = String.singleton c :=
  (h token ht).2.char_of_symbol (h token ht).1 hc

/-! ## Bringing tokens into postfix order -/

namespace Conversion

variable {source : Option String} {config config' : Conversion}

/-- What waits after a step has waited before, or is the token at hand. -/
lemma mem_stack_of_step {token : Token} (h : config.step limits source token = .ok config') :
    ∀ t ∈ config'.stack, t ∈ config.stack ∨ t = token := by
  intro t ht
  rcases step_eq_ok h with ⟨-, rfl⟩ | ⟨-, -, rfl⟩ |
    ⟨waiting, opening, stack, -, -, -, hstack, rfl⟩ | ⟨op, waiting, stack, -, -, -, hstack, rfl⟩
  · exact Or.inl ht
  · exact (List.mem_cons.1 ht).symm
  · left
    rw [hstack]
    exact List.mem_append_right waiting (List.mem_cons_of_mem opening ht)
  · rcases List.mem_cons.1 ht with rfl | ht
    · exact Or.inr rfl
    · left
      rw [hstack]
      exact List.mem_append_right waiting ht

/-- What waits in the end has waited from the beginning, or is one of the tokens. -/
lemma mem_stack_of_run (h : config.run limits source tokens = .ok config') :
    ∀ t ∈ config'.stack, t ∈ config.stack ∨ t ∈ tokens := by
  induction tokens generalizing config with
  | nil =>
    cases h
    exact fun t ht => Or.inl ht
  | cons token rest ih =>
    obtain ⟨next, hstep, hrun⟩ := run_cons_eq_ok_iff.1 h
    intro t ht
    rcases ih hrun t ht with ht | ht
    · rcases mem_stack_of_step hstep t ht with ht | rfl
      · exact Or.inl ht
      · exact Or.inr List.mem_cons_self
    · exact Or.inr (List.mem_cons_of_mem token ht)

lemma blames_of_run (htokens : StandIn text tokens)
    (h : config.run limits (some text) tokens = .error failure) : failure.Blames text := by
  induction tokens generalizing config with
  | nil => exact absurd h (by simp)
  | cons token rest ih =>
    rw [run_cons] at h
    split at h
    · next hstep =>
        cases h
        rcases step_eq_error hstep with ⟨-, hcheck⟩ | ⟨hk, -, rfl⟩
        · exact (Limits.check_eq_error hcheck).blames
        · have hsymbol : token.kind.symbol? = some ')' := by rw [hk]; rfl
          obtain ⟨k, hp, hc, -⟩ := htokens.char_of_symbol List.mem_cons_self hsymbol
          rw [hp]
          exact Failure.blames_atPosition (.unmatchedClose hc)
    · next next hstep => exact ih (fun t ht => htokens t (List.mem_cons_of_mem token ht)) h

lemma blames_of_drain {stack : List Token} {output : Array Token} (hstack : StandIn text stack)
    (h : drain (some text) stack output = .error failure) : failure.Blames text := by
  induction stack generalizing output with
  | nil => exact absurd h (by simp [drain])
  | cons top rest ih =>
    rw [drain] at h
    split at h
    · next hk =>
        cases h
        have hsymbol : top.kind.symbol? = some '(' := by rw [hk]; rfl
        obtain ⟨k, hp, hc, -⟩ := hstack.char_of_symbol List.mem_cons_self hsymbol
        rw [hp]
        exact Failure.blames_atPosition (.unmatchedOpen hc)
    · exact ih (fun t ht => hstack t (List.mem_cons_of_mem top ht)) h

end Conversion

lemma blames_of_ofInfix (htokens : StandIn text tokens)
    (h : ofInfix limits (some text) tokens = .error failure) : failure.Blames text := by
  rcases ofInfix_eq_error h with hrun | ⟨config, hrun, hdrain⟩
  · exact Conversion.blames_of_run htokens hrun
  · refine Conversion.blames_of_drain (fun t ht => ?_) hdrain
    have hmem : t ∈ tokens :=
      (Conversion.mem_stack_of_run hrun t ht).resolve_left (by simp [Conversion.initial])
    exact htokens t hmem

/-! ## Evaluating -/

/-- A fault of an operation is blamed on its operator. -/
lemma blames_faultCause {s : List Char} {op : Operator} {left right : Number} {fault : Fault}
    {k : Nat} (h : op.apply left right = .error fault) (hk : s[k]? = some op.symbol) :
    Blames s (faultCause op left right fault) (some k) := by
  rcases Operator.apply_eq_error h with rfl | ⟨rfl, rfl | rfl⟩ | ⟨rfl, rfl⟩
  · exact .numericOverflow hk
  · exact .divisionByZero hk (Or.inl rfl)
  · exact .divisionByZero hk (Or.inr rfl)
  · exact .noRealResult left right hk

lemma blames_of_admissible {op : Operator} {left right : Number} {k : Nat}
    (hk : text.toList[k]? = some op.symbol)
    (h : admissible limits (some text) op k left right = .error failure) :
    failure.Blames text := by
  unfold admissible at h
  split at h
  · split at h
    · cases h
      exact Failure.blames_atPosition (.divisionByZero hk (Or.inl rfl))
    · exact absurd h (by simp)
  · split at h
    · cases h
      exact Failure.blames_atPosition (.divisionByZero hk (Or.inr rfl))
    · split at h
      · exact (checkPower_eq_error h).blames
      · exact absurd h (by simp)
  · exact absurd h (by simp)

lemma blames_of_combine {op : Operator} {left right : Number} {k : Nat}
    (hk : text.toList[k]? = some op.symbol)
    (h : combine limits (some text) op k left right = .error failure) : failure.Blames text := by
  unfold combine at h
  split at h
  · next hadm =>
      cases h
      exact blames_of_admissible hk hadm
  · split at h
    · next fault hfault =>
        cases h
        exact Failure.blames_atPosition (blames_faultCause hfault hk)
    · rcases checkResult_eq_error h with rfl | hexceeded
      · exact Failure.blames_atPosition (.numericOverflow hk)
      · exact hexceeded.blames

lemma blames_of_literalValue {token : Token} (hk : token.kind = .literal) (hs : token.Spelled)
    (ha : token.StandsApart 0 text.toList)
    (h : literalValue limits (some text) token = .error failure) : failure.Blames text := by
  rcases literalValue_eq_error h with rfl | hexceeded
  · obtain ⟨before, after, htext, hp, hapart⟩ := ha
    obtain ⟨hbefore, hafter⟩ := hapart hk
    have hne : token.text ≠ "" := fun hempty => hs.text_ne_nil (by rw [hempty]; rfl)
    rw [hp, Int.zero_add]
    exact Failure.blames_atPosition (.invalidLiteral htext hne hbefore hafter)
  · exact hexceeded.blames

lemma blames_of_step {stack : List Number} {token : Token} (hs : token.Spelled)
    (ha : token.StandsApart 0 text.toList) (hparen : token.isParenthesis = false)
    (h : step limits (some text) stack token = .error failure) : failure.Blames text := by
  cases hk : token.kind with
  | literal =>
    rw [step_literal hk] at h
    split at h
    · next hvalue =>
        cases h
        exact blames_of_literalValue hk hs ha hvalue
    · exact absurd h (by simp)
  | operator op =>
    obtain ⟨k, hp, hc, htext⟩ := ha.char_of_symbol hs (c := op.symbol) (by rw [hk]; rfl)
    by_cases hshort : stack.length < 2
    · rw [step_operator_of_short hk hshort, hp, htext] at h
      cases h
      exact Failure.blames_atPosition (.missingOperand hc)
    · match stack, hshort with
      | [_], hshort => exact absurd (by simp) hshort
      | right :: left :: rest, _ =>
        rw [step_operator hk, hp] at h
        split at h
        · next hcombine =>
            cases h
            exact blames_of_combine hc hcombine
        · exact absurd h (by simp)
  | openParen => exact absurd hparen (by simp [Token.isParenthesis, hk])
  | closeParen => exact absurd hparen (by simp [Token.isParenthesis, hk])

lemma blames_of_rpnRun {stack : List Number} (htokens : StandIn text tokens)
    (hparen : ∀ token ∈ tokens, token.isParenthesis = false)
    (h : run limits (some text) stack tokens = .error failure) : failure.Blames text := by
  induction tokens generalizing stack with
  | nil => exact absurd h (by simp)
  | cons token rest ih =>
    obtain ⟨⟨hs, ha⟩, hrest⟩ := List.forall_mem_cons.1 htokens
    obtain ⟨hp, hparens⟩ := List.forall_mem_cons.1 hparen
    rw [run_cons] at h
    split at h
    · next hstep =>
        cases h
        exact blames_of_step hs ha hp hstep
    · exact ih hrest hparens h

lemma blames_of_evaluate (htokens : StandIn text tokens)
    (hparen : ∀ token ∈ tokens, token.isParenthesis = false)
    (h : evaluate limits (some text) tokens = .error failure) : failure.Blames text := by
  rcases evaluate_eq_error h with hrun | rfl | ⟨count, rfl⟩
  · exact blames_of_rpnRun htokens hparen hrun
  · exact Failure.blames_overall .noValue
  · exact Failure.blames_overall (.leftOver count)

end Rpn

/-! ## Computations -/

lemma blames_of_calculate (h : calculate limits text = .error failure) : failure.Blames text := by
  rcases stage_of_calculate_eq_error h with
    ⟨hblank, rfl⟩ | htokens | ⟨tokens, htokens, hrpn | ⟨rpn, hrpn, hvalue⟩⟩
  · exact Failure.blames_overall (.emptyExpression hblank)
  · exact blames_of_tokenize htokens
  · exact Rpn.blames_of_ofInfix (Rpn.standIn_of_tokenize htokens) hrpn
  · -- the postfix sequence has the tokens of the text, without the parentheses
    have hmem (token : Token) (ht : token ∈ rpn) : token ∈ tokens.filter (!·.isParenthesis) :=
      (Rpn.ofInfix_perm hrpn).mem_iff.1 ht
    have hstand := Rpn.standIn_of_tokenize htokens
    refine Rpn.blames_of_evaluate (fun token ht => ?_) (fun token ht => ?_) hvalue
    · exact hstand token (List.mem_filter.1 (hmem token ht)).1
    · simpa using (List.mem_filter.1 (hmem token ht)).2

/-- A computation that fails has no value, and its error is about the expression that was submitted.  It
blames what is wrong there, and it has no position only where no single character is to blame. -/
theorem blames_of_compute {expression : String} {c : Computation} {e : ExpressionError}
    (h : compute limits expression = .ok c) (he : c.outcome = .error e) :
    (∀ value, c.outcome ≠ .ok value) ∧ e.expression = some expression ∧
      Blames expression.toList e.cause e.position ∧
      (∀ p ∈ e.position, 0 ≤ p ∧ p < expression.length) ∧
      (e.position = none ↔ e.kind = .emptyExpression ∨ e.kind = .limitExceeded ∨
        e.cause = .malformed .noValue ∨ ∃ count, e.cause = .malformed (.leftOver count)) ∧
      ¬ "Unexpected token in postfix input".toList <+: e.message.toList := by
  obtain ⟨hexpression, hblames⟩ : e.expression = some expression ∧
      Blames expression.toList e.cause e.position := by
    unfold compute at h
    split at h
    · cases h
      exact absurd he (by simp)
    · next found hfound =>
        obtain rfl := Except.ok.inj h
        obtain rfl : found.within expression = e := Except.error.inj he
        obtain ⟨hsource, hblames⟩ := blames_of_calculate hfound found rfl
        exact ⟨by rw [ExpressionError.within_expression, hsource], hblames⟩
    · exact absurd h (by simp)
  have hplace := hblames.position_lt
  rw [String.length_toList] at hplace
  refine ⟨fun value hvalue => ?_, hexpression, hblames, hplace, hblames.position_eq_none_iff,
    hblames.not_prefix_message⟩
  rw [he] at hvalue
  exact absurd hvalue (by simp)

/-- The parentheses are fine, and so is the first operand; the literal after the minus sign is none. -/
theorem blames_of_compute_sample :
    compute {} "1+(2-2x*3)" =
        .ok ⟨"1+(2-2x*3)", .error ⟨.invalidLiteral "2x", some 5, some "1+(2-2x*3)"⟩⟩ ∧
      Blames "1+(2-2x*3)".toList (.invalidLiteral "2x") (some 5) := by
  have hcompute : compute {} "1+(2-2x*3)" =
      .ok ⟨"1+(2-2x*3)", .error ⟨.invalidLiteral "2x", some 5, some "1+(2-2x*3)"⟩⟩ := rfl
  obtain ⟨-, -, hblames, -⟩ := blames_of_compute hcompute rfl
  exact ⟨hcompute, hblames⟩

end InfixCalculator
