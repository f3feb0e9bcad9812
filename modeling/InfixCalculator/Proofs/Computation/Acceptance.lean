import InfixCalculator.Computation
import InfixCalculator.Proofs.Conversion.Contents
import InfixCalculator.Proofs.Conversion.Postorder
import InfixCalculator.Proofs.Evaluation.Agreement
import InfixCalculator.Proofs.Grammar.Precedence

/-!
# Which expressions have a value

An expression that has a value need not be an infix expression.  The conversion moves the operators
without looking at the operands between which they stand, and the evaluation only asks for two
operands below every operator, so `1 2 +` is as good as `1 + 2`.  What the two of them do check is
that the parentheses match and that the literals are one more than the operators.  Therefore two
operands that stand side by side are the only way to leave the grammar and still get a value
(`isExpression_iff_of_compute`).

Every infix expression on the other hand has a tree, and if its parentheses are not nested too deeply
it ends with the value of that tree or with the first error in it (`evaluate_of_isExpression`).
-/

namespace InfixCalculator

open Token Grammar

/-! ## The stages that were passed -/

/-- A value is reached through a token list and its postfix order. -/
lemma stages_of_calculate {limits : Limits} {expression : String} {value : Number}
    (h : calculate limits expression = .ok value) :
    ∃ tokens rpn, tokenize limits expression = .ok tokens ∧
      Rpn.ofInfix limits (some expression) tokens = .ok rpn ∧
      Rpn.evaluate limits (some expression) rpn = .ok value := by
  unfold calculate progress at h
  split at h
  · exact absurd h (by simp)
  · split at h
    · exact absurd h (by simp)
    · next tokens htokens =>
        split at h
        · exact absurd h (by simp)
        · next rpn hrpn =>
            split at h
            · exact absurd h (by simp)
            · next value' hvalue =>
                cases h
                exact ⟨tokens, rpn, htokens, hrpn, hvalue⟩

/-- An expression with a value is not blank. -/
lemma not_blank_of_calculate {limits : Limits} {expression : String} {value : Number}
    (h : calculate limits expression = .ok value) : isBlank expression = false := by
  rw [Bool.eq_false_iff]
  intro hblank
  rw [calculate, progress, if_pos hblank] at h
  exact absurd h (by simp)

/-- A failure is that of a blank expression or of the first stage that was not passed. -/
lemma stage_of_calculate_eq_error {limits : Limits} {expression : String} {failure : Failure}
    (h : calculate limits expression = .error failure) :
    (isBlank expression = true ∧ failure = .overall .emptyExpression (some expression)) ∨
      tokenize limits expression = .error failure ∨
      ∃ tokens, tokenize limits expression = .ok tokens ∧
        (Rpn.ofInfix limits (some expression) tokens = .error failure ∨
          ∃ rpn, Rpn.ofInfix limits (some expression) tokens = .ok rpn ∧
            Rpn.evaluate limits (some expression) rpn = .error failure) := by
  unfold calculate progress at h
  split at h
  · next hblank => exact Or.inl ⟨hblank, (Except.error.inj h).symm⟩
  · split at h
    · next htokens =>
        cases h
        exact Or.inr (Or.inl htokens)
    · next tokens htokens =>
        refine Or.inr (Or.inr ⟨tokens, htokens, ?_⟩)
        split at h
        · next hrpn =>
            cases h
            exact Or.inl hrpn
        · next rpn hrpn =>
            split at h
            · next hvalue =>
                cases h
                exact Or.inr ⟨rpn, hrpn, hvalue⟩
            · exact absurd h (by simp)

/-- The value of a computation is that of its expression. -/
lemma calculate_of_compute {limits : Limits} {expression : String} {c : Computation}
    {value : Number} (h : compute limits expression = .ok c) (hv : c.outcome = .ok value) :
    calculate limits expression = .ok value := by
  unfold compute at h
  split at h
  · next value' hcalculate =>
      cases h
      cases hv
      exact hcalculate
  · cases h
    exact absurd hv (by simp)
  · exact absurd h (by simp)

/-- A computation tells the value or the error that its expression ends with; to the error it adds the
expression. -/
lemma outcome_of_compute {limits : Limits} {expression : String} {c : Computation}
    (h : compute limits expression = .ok c) :
    (∃ x, calculate limits expression = .ok x ∧ c.outcome = .ok x) ∨
      ∃ e, calculate limits expression = .error (.error e) ∧
        c.outcome = .error (e.within expression) := by
  unfold compute at h
  split at h
  · next x hx =>
      cases h
      exact .inl ⟨x, hx, rfl⟩
  · next e he =>
      cases h
      exact .inr ⟨e, he, rfl⟩
  · exact absurd h (by simp)

/-! ## Counting operands -/

/-- A tree has one leaf more than it has inner nodes. -/
lemma countP_postorder (t : Tree) :
    t.postorder.countP isLiteral = t.postorder.countP isOperator + 1 := by
  induction t with
  | leaf text position => rfl
  | node op text position left right ihl ihr =>
    obtain ⟨hliteral, hoperator⟩ :=
      @countP_operator_cons ⟨.operator op, text, position⟩ op rfl []
    simp only [Tree.postorder, List.countP_append, hliteral, hoperator, ihl, ihr, List.countP_nil]
    omega

/-- Parentheses do not count as operands or operators. -/
lemma countP_filter_parenthesis {p : Token → Bool} (hp : ∀ token, p token = true →
    token.isParenthesis = false) (tokens : List Token) :
    (tokens.filter (!·.isParenthesis)).countP p = tokens.countP p := by
  rw [List.countP_filter]
  refine List.countP_congr fun token _ => ?_
  constructor
  · intro h
    exact (Bool.and_eq_true_iff.1 h).1
  · intro h
    simp [h, hp token h]

/-- Where there is a value, the literals are one more than the operators. -/
lemma countP_of_evaluate {limits : Limits} {source source' : Option String}
    {tokens rpn : List Token} {value : Number} (hrpn : Rpn.ofInfix limits source tokens = .ok rpn)
    (hvalue : Rpn.evaluate limits source' rpn = .ok value) :
    tokens.countP isLiteral = tokens.countP isOperator + 1 := by
  obtain ⟨t, ht⟩ : ∃ t, Tree.ofPostorder none rpn = .ok t := Rpn.exists_tree_of_evaluate hvalue
  have hlist : rpn = t.postorder := Tree.ofPostorder_eq_ok_iff.1 ht
  have hperm := Rpn.ofInfix_perm hrpn
  have hliteral : rpn.countP isLiteral = tokens.countP isLiteral := by
    rw [hperm.countP_eq, countP_filter_parenthesis]
    intro token h
    simp_all [isLiteral, isParenthesis]
  have hoperator : rpn.countP isOperator = tokens.countP isOperator := by
    rw [hperm.countP_eq, countP_filter_parenthesis]
    intro token h
    cases hk : token.kind <;> simp_all [isOperator, Kind.isOperator, Kind.operator?, isParenthesis]
  rw [← hliteral, ← hoperator, hlist]
  exact countP_postorder t

/-! ## Infix expressions -/

/-- An infix expression has a tree with the usual precedences, and evaluates as that tree does. -/
theorem evaluate_of_isExpression {tokens : List Token} (h : IsExpression tokens) (limits : Limits)
    (source : Option String) (hn : (nesting tokens : Int) ≤ limits.nestingDepth) :
    ∃ tree rpn, Derives .expression tokens tree ∧ Rpn.ofInfix limits source tokens = .ok rpn ∧
      Rpn.evaluate limits source rpn = tree.value limits source := by
  obtain ⟨tree, htree⟩ := isExpression_iff_derives.1 h
  refine ⟨tree, tree.postorder, htree, Rpn.ofInfix_of_derives htree hn, ?_⟩
  exact Rpn.evaluate_postorder tree

/-! ## Accepted expressions -/

/-- The tokens of an expression that has a value have matching parentheses and one literal more than
operators, and they are an infix expression exactly if no two operands stand side by side. -/
theorem isExpression_iff_of_compute {limits : Limits} {expression : String} {c : Computation}
    {value : Number} (h : compute limits expression = .ok c) (hv : c.outcome = .ok value) :
    ∃ tokens, tokenize limits expression = .ok tokens ∧ closes 0 tokens = true ∧
      tokens.countP isLiteral = tokens.countP isOperator + 1 ∧
      (IsExpression tokens ↔ Separated tokens) := by
  obtain ⟨tokens, rpn, htokens, hrpn, hvalue⟩ := stages_of_calculate (calculate_of_compute h hv)
  have hcloses := Rpn.closes_of_ofInfix hrpn
  have hcount := countP_of_evaluate hrpn hvalue
  exact ⟨tokens, htokens, hcloses, hcount, isExpression_iff_separated hcloses hcount⟩

/-- Both of these have a value.  The first is an infix expression; in the second two operands stand side by
side. -/
theorem isExpression_iff_of_compute_sample :
    (compute {} "2 * (3 + 4)" = .ok ⟨"2 * (3 + 4)", .ok (.int 14)⟩ ∧
      ∃ tokens, tokenize {} "2 * (3 + 4)" = .ok tokens ∧ closes 0 tokens = true ∧
        tokens.countP isLiteral = tokens.countP isOperator + 1 ∧
        IsExpression tokens ∧ Separated tokens) ∧
    compute {} "5 - (1 2 +)" = .ok ⟨"5 - (1 2 +)", .ok (.int 2)⟩ ∧
      ∃ tokens, tokenize {} "5 - (1 2 +)" = .ok tokens ∧ closes 0 tokens = true ∧
        tokens.countP isLiteral = tokens.countP isOperator + 1 ∧
        ¬IsExpression tokens ∧ ¬Separated tokens := by
  have hordinary : compute {} "2 * (3 + 4)" = .ok ⟨"2 * (3 + 4)", .ok (.int 14)⟩ := rfl
  have hreversed : compute {} "5 - (1 2 +)" = .ok ⟨"5 - (1 2 +)", .ok (.int 2)⟩ := rfl
  refine ⟨⟨hordinary, ?_⟩, hreversed, ?_⟩
  · obtain ⟨tokens, htokens, hcloses, hcount, hiff⟩ := isExpression_iff_of_compute hordinary rfl
    have hexpression : IsExpression tokens := by
      cases htokens
      decide
    exact ⟨tokens, htokens, hcloses, hcount, hexpression, hiff.1 hexpression⟩
  · obtain ⟨tokens, htokens, hcloses, hcount, hiff⟩ := isExpression_iff_of_compute hreversed rfl
    have hexpression : ¬IsExpression tokens := by
      cases htokens
      decide
    exact ⟨tokens, htokens, hcloses, hcount, hexpression, fun hs => hexpression (hiff.2 hs)⟩

/-- An expression that is written in postfix order has a value. -/
theorem not_forall_isExpression :
    ¬∀ limits expression c value, compute limits expression = .ok c → c.outcome = .ok value →
      ∃ tokens, tokenize limits expression = .ok tokens ∧ IsExpression tokens := by
  intro h
  have hcompute : compute {} "1 2 +" = .ok ⟨"1 2 +", .ok (.int 3)⟩ := rfl
  have htokens : tokenize {} "1 2 +" =
      .ok [⟨.literal, "1", 0⟩, ⟨.literal, "2", 2⟩, ⟨.operator .add, "+", 4⟩] := rfl
  obtain ⟨tokens, htokens', hexpression⟩ := h {} "1 2 +" _ _ hcompute rfl
  rw [htokens] at htokens'
  cases htokens'
  exact absurd hexpression (by decide)

end InfixCalculator
