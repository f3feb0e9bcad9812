import InfixCalculator.Proofs.Computation.Outcome
import InfixCalculator.Proofs.Conversion.Contents
import InfixCalculator.Proofs.Token.Spelling

/-!
# Reading the postfix text of an expression

The texts of tokens, with a space between any two of them, are read back as the same tokens, each at
the place where it stands in the line (`segments_placed`).  No token is spelled with a space, and the
spaces keep literals apart that stood apart before.

The postfix order of an expression has none but tokens of the expression, so its text is read back as
well, and has the value of the expression: at other positions, with an error of the same wording
(`tokenize_text`).
-/

namespace InfixCalculator

variable {limits : Limits} {expression text : String} {tokens : List Token}

namespace Rpn

/-- Tokens in a line that starts at a position, each after the one before it and a space. -/
def placed (position : Int) : List Token → List Token
  | [] => []
  | token :: rest =>
    { token with position := position } :: placed (position + token.text.length + 1) rest

lemma length_placed (position : Int) (tokens : List Token) :
    (placed position tokens).length = tokens.length := by
  induction tokens generalizing position with
  | nil => rfl
  | cons token rest ih => rw [placed, List.length_cons, List.length_cons, ih]

/-- Tokens in a line are the same tokens but for their positions. -/
lemma relocate_placed (position : Int) (tokens : List Token) :
    (placed position tokens).map (Token.relocate fun _ => 0) =
      tokens.map (Token.relocate fun _ => 0) := by
  induction tokens generalizing position with
  | nil => rfl
  | cons token rest ih =>
    rw [placed, List.map_cons, List.map_cons, ih]
    rfl

/-- The texts of tokens with spaces between them have these tokens. -/
lemma segments_placed (h : ∀ token ∈ tokens, token.Spelled) (position : Int) :
    Token.segments position [] (Rpn.text tokens).toList = ⟨placed position tokens, none⟩ := by
  induction tokens generalizing position with
  | nil => rfl
  | cons token rest ih =>
    obtain ⟨htoken, hrest⟩ := List.forall_mem_cons.1 h
    have hfirst := Token.segments_text htoken position
    cases rest with
    | nil => simpa [Rpn.text, placed] using hfirst
    | cons next more =>
      have hsplit : (Rpn.text (token :: next :: more)).toList =
          token.text.toList ++ ' ' :: (Rpn.text (next :: more)).toList := by
        simp [Rpn.text]
      rw [hsplit]
      exact Token.segments_spaced hfirst (ih hrest _)

end Rpn

/-- The stages on the way to the postfix text, from which it is one more stage to the value. -/
lemma stages_of_rpnText (h : rpnText limits expression = .ok text) :
    ∃ tokens postfixed, Token.isBlank expression = false ∧
      Token.tokenize limits expression = .ok tokens ∧
      Rpn.ofInfix limits (some expression) tokens = .ok postfixed ∧
      Rpn.text postfixed = text := by
  unfold rpnText rpn at h
  split at h
  · exact absurd h (by simp)
  · next hblank =>
      split at h
      · exact absurd h (by simp [Except.map])
      · next tokens htokens =>
          cases hpostfixed : Rpn.ofInfix limits (some expression) tokens with
          | error failure =>
            rw [hpostfixed] at h
            exact absurd h (by simp [Except.map])
          | ok postfixed =>
            rw [hpostfixed] at h
            exact ⟨tokens, postfixed, Bool.eq_false_iff.2 hblank, htokens, hpostfixed,
              Except.ok.inj h⟩

/-- The postfix order of an expression has no more tokens than the limits admit, and each of them is
spelled like a token. -/
lemma spelled_of_ofInfix {postfixed : List Token} {source : Option String}
    (htokens : Token.tokenize limits expression = .ok tokens)
    (hpostfixed : Rpn.ofInfix limits source tokens = .ok postfixed) :
    (∀ token ∈ postfixed, token.Spelled) ∧ postfixed.length ≤ limits.tokenCount.toNat := by
  obtain ⟨-, -, hcount⟩ := Token.tokenize_eq_ok_iff.1 htokens
  have hperm := Rpn.ofInfix_perm hpostfixed
  constructor
  · intro token ht
    have hmem : token ∈ tokens := (List.mem_filter.1 (hperm.mem_iff.1 ht)).1
    exact Token.spelled_of_tokenize htokens token hmem
  · rw [hperm.length_eq]
    exact Nat.le_trans (List.length_filter_le _ _) hcount

/-- A line of tokens is split into these tokens, if the limits admit its length and their number. -/
lemma Rpn.tokenize_line (hspelled : ∀ token ∈ tokens, token.Spelled)
    (hlength : ((Rpn.text tokens).length : Int) ≤ limits.expressionLength)
    (hcount : tokens.length ≤ limits.tokenCount.toNat) :
    Token.tokenize limits (Rpn.text tokens) = .ok (placed 0 tokens) := by
  refine Token.tokenize_eq_ok_iff.2 ⟨hlength, segments_placed hspelled 0, ?_⟩
  rwa [length_placed]

/-- Tokens that are spelled as their kinds demand are read back from a line with spaces between them,
each where it stands, if the line is not too long and the tokens are not too many.  So the postfix text
of an expression can be evaluated in place of the expression, if the text itself is not too long: it
has the same value, or an error of the same kind with the same message. -/
theorem tokenize_text (limits : Limits) :
    (∀ tokens : List Token, (∀ token ∈ tokens, token.Spelled) →
      ((Rpn.text tokens).length : Int) ≤ limits.expressionLength →
      tokens.length ≤ limits.tokenCount.toNat →
        Token.tokenize limits (Rpn.text tokens) = .ok (Rpn.placed 0 tokens)) ∧
    ∀ expression text, rpnText limits expression = .ok text →
      (text.length : Int) ≤ limits.expressionLength →
        ∃ tokens, Token.tokenize limits text = .ok tokens ∧
          ∀ source, SameOutcome (compute limits expression)
            (Rpn.evaluate limits source tokens) := by
  refine ⟨fun tokens => Rpn.tokenize_line, fun expression text htext hlength => ?_⟩
  obtain ⟨tokens, postfixed, hblank, htokens, hpostfixed, rfl⟩ := stages_of_rpnText htext
  obtain ⟨hspelled, hcount⟩ := spelled_of_ofInfix htokens hpostfixed
  have hread := Rpn.tokenize_line hspelled hlength hcount
  refine ⟨_, hread, fun source => sameOutcome_of_forget ?_⟩
  rw [calculate_eq_evaluate hblank htokens hpostfixed]
  exact Rpn.evaluate_congr (Rpn.relocate_placed 0 postfixed).symm _ _

/-- The tokens of `)2x 2` are no expression, and are read back all the same.  The postfix text of
`(2+3)*x` ends with the same error as the expression. -/
theorem tokenize_text_sample :
    Token.tokenize {} ") 2x 2" =
        .ok [⟨.closeParen, ")", 0⟩, ⟨.literal, "2x", 2⟩, ⟨.literal, "2", 5⟩] ∧
      rpnText {} "(2+3)*x" = .ok "2 3 + x *" ∧
      ∃ tokens, Token.tokenize {} "2 3 + x *" = .ok tokens ∧
        SameOutcome (compute {} "(2+3)*x") (Rpn.evaluate {} none tokens) := by
  have htokens : Token.tokenize {} ")2x 2" =
    .ok [⟨.closeParen, ")", 0⟩, ⟨.literal, "2x", 1⟩, ⟨.literal, "2", 4⟩] := rfl
  have htext : rpnText {} "(2+3)*x" = .ok "2 3 + x *" := rfl
  obtain ⟨tokens, hread, hsame⟩ := (tokenize_text {}).2 _ _ htext (by decide)
  exact ⟨(tokenize_text {}).1 _ (Token.spelled_of_tokenize htokens) (by decide) (by decide), htext,
    tokens, hread, hsame none⟩

end InfixCalculator
