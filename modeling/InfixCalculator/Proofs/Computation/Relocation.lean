import InfixCalculator.Computation
import InfixCalculator.Proofs.Conversion.Step
import InfixCalculator.Proofs.Evaluation.Step
import InfixCalculator.Proofs.Token.Relocation

/-!
# Positions decide nothing

The conversion looks at the kinds of tokens and the evaluation at their kinds and texts.  If the
positions of the tokens are moved, the same tokens come out of the conversion at moved positions
(`ofInfix_relocate`), the evaluation has the same value (`evaluate_relocate`), and each of them has the
same errors at moved positions.  Nor does it matter for which expression the work is done, which the
errors mention: both are said of any function that tells the failures of one work as those of another
(`Failure.Moves`).

So texts with the same tokens at different positions have the same value, or the same failure at another
position (`Segments.value_relocate`).  That carries over to the computations (`compute_relocate`).
-/

namespace InfixCalculator

variable {f : Int → Int} {g : Failure → Failure} {source source' : Option String}
  {text text' : String} {limits : Limits} {token : Token}

/-- The function tells the failures of the work on one expression as those of the same work at other
positions of another expression.  Limits that are exceeded mention neither. -/
structure Failure.Moves (limits : Limits) (source source' : Option String) (f : Int → Int)
    (g : Failure → Failure) : Prop where
  placed : ∀ cause position,
    g (atPosition cause position source) = atPosition cause (f position) source'
  overall : ∀ cause, g (overall cause source) = Failure.overall cause source'
  exceeded : ∀ failure, limits.Exceeded failure → g failure = failure

lemma Limits.Exceeded.relocate_eq {failure : Failure} (h : limits.Exceeded failure) :
    failure.relocate f text' = failure := by
  obtain ⟨limit, actual, -, hf⟩ := h
  rw [hf, Failure.relocate_beyond]

/-- Moved errors of one text are those of another. -/
lemma Failure.moves_relocate (limits : Limits) (f : Int → Int) (text text' : String) :
    Failure.Moves limits (some text) (some text') f (Failure.relocate f text') where
  placed _ _ := rfl
  overall _ := rfl
  exceeded _ h := h.relocate_eq

namespace Rpn

/-! ## Conversion -/

namespace Conversion

/-- The configuration with its tokens at other positions. -/
def relocate (f : Int → Int) (config : Conversion) : Conversion where
  stack := config.stack.map (Token.relocate f)
  output := config.output.map (Token.relocate f)
  depth := config.depth

lemma yieldTo_relocate (incoming : Operator) (stack : List Token) (output : Array Token) :
    yieldTo incoming (stack.map (Token.relocate f)) (output.map (Token.relocate f)) =
      ((yieldTo incoming stack output).1.map (Token.relocate f),
        (yieldTo incoming stack output).2.map (Token.relocate f)) := by
  induction stack generalizing output with
  | nil => rfl
  | cons top rest ih =>
    rw [List.map_cons, yieldTo, yieldTo, Token.relocate_kind]
    cases top.kind.operator? with
    | none => rfl
    | some op =>
      simp only [← Array.map_push, ih]
      split <;> rfl

lemma closeGroup?_relocate (stack : List Token) (output : Array Token) :
    closeGroup? (stack.map (Token.relocate f)) (output.map (Token.relocate f)) =
      (closeGroup? stack output).map fun group =>
        (group.1.map (Token.relocate f), group.2.map (Token.relocate f)) := by
  induction stack generalizing output with
  | nil => rfl
  | cons top rest ih =>
    rw [List.map_cons, closeGroup?, closeGroup?, Token.relocate_kind, ← Array.map_push, ih]
    split <;> rfl

lemma drain_relocate (hg : Failure.Moves limits source source' f g) (stack : List Token)
    (output : Array Token) :
    drain source' (stack.map (Token.relocate f)) (output.map (Token.relocate f)) =
      ((drain source stack output).map (Array.map (Token.relocate f))).mapError g := by
  induction stack generalizing output with
  | nil => rfl
  | cons top rest ih =>
    rw [List.map_cons, drain, drain, Token.relocate_kind, ← Array.map_push, ih]
    split
    · exact congrArg Except.error (hg.placed _ _).symm
    · rfl

lemma step_relocate (hg : Failure.Moves limits source source' f g) (config : Conversion) :
    (config.relocate f).step limits source' (token.relocate f) =
      ((config.step limits source token).map (relocate f)).mapError g := by
  cases hk : token.kind with
  | literal =>
    rw [step_literal hk, step_literal (by simpa using hk)]
    simp [relocate, Except.map]
  | openParen =>
    rw [step_open hk, step_open (by simpa using hk)]
    simp only [relocate]
    cases hcheck : limits.check .nestingDepth (config.depth + 1 : Nat) with
    | error failure =>
      exact congrArg Except.error (hg.exceeded _ (Limits.check_eq_error hcheck)).symm
    | ok u => rfl
  | closeParen =>
    rw [step_close hk, step_close (by simpa using hk)]
    simp only [relocate, closeGroup?_relocate]
    cases closeGroup? config.stack config.output with
    | none => exact congrArg Except.error (hg.placed _ _).symm
    | some group => rfl
  | operator op =>
    rw [step_operator hk, step_operator (by simpa using hk)]
    simp only [relocate, yieldTo_relocate]
    rfl

lemma run_relocate (hg : Failure.Moves limits source source' f g) (config : Conversion)
    (tokens : List Token) :
    (config.relocate f).run limits source' (tokens.map (Token.relocate f)) =
      ((config.run limits source tokens).map (relocate f)).mapError g := by
  induction tokens generalizing config with
  | nil => rfl
  | cons token rest ih =>
    rw [List.map_cons, run_cons, run_cons, step_relocate hg]
    cases config.step limits source token with
    | error failure => rfl
    | ok next => exact ih next

end Conversion

lemma ofInfix_relocate (hg : Failure.Moves limits source source' f g) (tokens : List Token) :
    ofInfix limits source' (tokens.map (Token.relocate f)) =
      ((ofInfix limits source tokens).map (List.map (Token.relocate f))).mapError g := by
  have hinitial : Conversion.initial.relocate f = Conversion.initial := by
    simp [Conversion.relocate, Conversion.initial]
  have hrun := Conversion.run_relocate hg Conversion.initial tokens
  rw [hinitial] at hrun
  rw [ofInfix, ofInfix, hrun]
  cases Conversion.initial.run limits source tokens with
  | error failure => rfl
  | ok config =>
    have hdrain := Conversion.drain_relocate hg config.stack config.output
    simp only [Except.map, mapError_ok, Conversion.relocate, hdrain]
    cases Conversion.drain source config.stack config.output with
    | error failure => rfl
    | ok output => simp

/-! ## Evaluation -/

lemma literalValue_relocate (hg : Failure.Moves limits source source' f g) :
    literalValue limits source' (token.relocate f) =
      (literalValue limits source token).mapError g := by
  unfold literalValue
  rw [Token.relocate_text, Token.relocate_position]
  split
  · exact congrArg Except.error (hg.placed _ _).symm
  · rfl
  · next n _ =>
      cases hcheck : limits.checkInteger n with
      | error failure =>
        exact congrArg Except.error (hg.exceeded _ (Limits.check_eq_error hcheck)).symm
      | ok u => rfl

/-- The checks before an operation fail at its position, or exceed a limit. -/
lemma admissible_relocate (hg : Failure.Moves limits source source' f g) (op : Operator)
    (position : Int) (left right : Number) :
    admissible limits source' op (f position) left right =
      (admissible limits source op position left right).mapError g := by
  cases op with
  | add => rfl
  | sub => rfl
  | mul => rfl
  | div =>
    simp only [admissible]
    split
    · exact congrArg Except.error (hg.placed _ _).symm
    · rfl
  | pow =>
    simp only [admissible]
    split
    · exact congrArg Except.error (hg.placed _ _).symm
    · split
      · next base exponent _ =>
          cases hcheck : checkPower limits base exponent with
          | error failure =>
            exact congrArg Except.error (hg.exceeded _ (checkPower_eq_error hcheck)).symm
          | ok u => rfl
      · rfl

lemma checkResult_relocate (hg : Failure.Moves limits source source' f g) (op : Operator)
    (position : Int) (result : Number) :
    checkResult limits source' op (f position) result =
      (checkResult limits source op position result).mapError g := by
  cases result with
  | int n =>
    simp only [checkResult]
    cases hcheck : limits.checkInteger n with
    | error failure =>
      exact congrArg Except.error (hg.exceeded _ (Limits.check_eq_error hcheck)).symm
    | ok u => rfl
  | float x =>
    simp only [checkResult]
    split
    · rfl
    · exact congrArg Except.error (hg.placed _ _).symm

lemma combine_relocate (hg : Failure.Moves limits source source' f g) (op : Operator)
    (position : Int) (left right : Number) :
    combine limits source' op (f position) left right =
      (combine limits source op position left right).mapError g := by
  rw [combine, combine, admissible_relocate hg]
  cases admissible limits source op position left right with
  | error failure => rfl
  | ok u =>
    simp only [mapError_ok]
    cases op.apply left right with
    | error fault => exact congrArg Except.error (hg.placed _ _).symm
    | ok result => exact checkResult_relocate hg op position result

lemma step_relocate (hg : Failure.Moves limits source source' f g) (stack : List Number) :
    step limits source' stack (token.relocate f) =
      (step limits source stack token).mapError g := by
  cases hk : token.kind with
  | literal =>
    rw [step_literal hk, step_literal (by simpa using hk), literalValue_relocate hg]
    cases literalValue limits source token <;> rfl
  | operator op =>
    by_cases hs : stack.length < 2
    · rw [step_operator_of_short hk hs, step_operator_of_short (by simpa using hk) hs]
      exact congrArg Except.error (hg.placed _ _).symm
    · match stack, hs with
      | [_], hs => exact absurd (by simp) hs
      | right :: left :: rest, _ =>
        rw [step_operator hk, step_operator (by simpa using hk), Token.relocate_position,
          combine_relocate hg]
        cases combine limits source op token.position left right <;> rfl
  | openParen =>
    rw [step_parenthesis (Or.inl hk), step_parenthesis (Or.inl (by simpa using hk))]
    exact congrArg Except.error (hg.placed _ _).symm
  | closeParen =>
    rw [step_parenthesis (Or.inr hk), step_parenthesis (Or.inr (by simpa using hk))]
    exact congrArg Except.error (hg.placed _ _).symm

lemma run_relocate (hg : Failure.Moves limits source source' f g) (stack : List Number)
    (tokens : List Token) :
    run limits source' stack (tokens.map (Token.relocate f)) =
      (run limits source stack tokens).mapError g := by
  induction tokens generalizing stack with
  | nil => rfl
  | cons token rest ih =>
    rw [List.map_cons, run_cons, run_cons, step_relocate hg]
    cases step limits source stack token with
    | error failure => rfl
    | ok next => exact ih next

lemma evaluate_relocate (hg : Failure.Moves limits source source' f g) (tokens : List Token) :
    evaluate limits source' (tokens.map (Token.relocate f)) =
      (evaluate limits source tokens).mapError g := by
  rw [evaluate, evaluate, run_relocate hg]
  cases run limits source [] tokens with
  | error failure => rfl
  | ok stack =>
    match stack with
    | [] => exact congrArg Except.error (hg.overall _).symm
    | [_] => rfl
    | _ :: _ :: _ => exact congrArg Except.error (hg.overall _).symm

/-- The value of infix tokens: their postfix order, evaluated. -/
def infixValue (limits : Limits) (source : Option String) (tokens : List Token) :
    Except Failure Number :=
  match ofInfix limits source tokens with
  | .error failure => .error failure
  | .ok rpn => evaluate limits source rpn

lemma infixValue_relocate (hg : Failure.Moves limits source source' f g) (tokens : List Token) :
    infixValue limits source' (tokens.map (Token.relocate f)) =
      (infixValue limits source tokens).mapError g := by
  rw [infixValue, infixValue, ofInfix_relocate hg]
  cases ofInfix limits source tokens with
  | error failure => rfl
  | ok rpn => exact evaluate_relocate hg rpn

end Rpn

/-! ## Whole expressions -/

/-- The value of the tokens of a text, if they are admitted. -/
def Token.Segments.value (limits : Limits) (source : String) (segments : Segments) :
    Except Failure Number :=
  match segments.verdict limits source with
  | .error failure => .error failure
  | .ok tokens => Rpn.infixValue limits (some source) tokens

lemma Token.Segments.value_mk (tokens : List Token) (stop : Option (Char × Int)) :
    (⟨tokens, stop⟩ : Token.Segments).value limits text =
      if limits.tokenCount.toNat < tokens.length then .error (Token.tooMany limits)
      else
        match stop with
        | some (c, position) =>
          .error (.atPosition (.invalidCharacter (String.singleton c)) position (some text))
        | none => Rpn.infixValue limits (some text) tokens := by
  by_cases hmany : limits.tokenCount.toNat < tokens.length
  · simp only [value, verdict, hmany, if_true]
  · simp only [value, verdict, hmany, if_false]
    cases stop <;> rfl

lemma Token.Segments.value_relocate (text : String) (segments : Segments) :
    (segments.relocate f).value limits text' =
      (segments.value limits text).mapError (Failure.relocate f text') := by
  rw [value, value, Segments.verdict_relocate limits text]
  cases segments.verdict limits text with
  | error failure => rfl
  | ok tokens => exact Rpn.infixValue_relocate (Failure.moves_relocate limits f text text') tokens

/-- An expression that is not blank has the value of its tokens, unless it is too long. -/
lemma calculate_eq_value (hblank : Token.isBlank text = false) :
    calculate limits text =
      match limits.checkLength text with
      | .error failure => .error failure
      | .ok () => (Token.segments 0 [] text.toList).value limits text := by
  rw [calculate, progress, hblank, if_neg Bool.false_ne_true, Token.tokenize_eq_verdict,
    Token.Segments.value]
  cases limits.checkLength text with
  | error failure => rfl
  | ok u =>
    simp only
    cases (Token.segments 0 [] text.toList).verdict limits text with
    | error failure => rfl
    | ok tokens =>
      simp only [Rpn.infixValue]
      cases Rpn.ofInfix limits (some text) tokens with
      | error failure => rfl
      | ok rpn =>
        simp only
        cases Rpn.evaluate limits (some text) rpn <;> rfl

/-- The same computation at other positions of another expression. -/
def Computation.relocate (f : Int → Int) (text : String) (c : Computation) : Computation where
  expression := text
  outcome := c.outcome.mapError (ExpressionError.relocate f text)

lemma compute_relocate (h : calculate limits text' =
      (calculate limits text).mapError (Failure.relocate f text')) :
    compute limits text' = (compute limits text).map (Computation.relocate f text') := by
  unfold compute
  rw [h]
  cases calculate limits text with
  | ok value => rfl
  | error failure =>
    cases failure with
    | unwritable => rfl
    | error e =>
      obtain ⟨cause, position, expression⟩ := e
      cases expression <;> rfl

end InfixCalculator
