import InfixCalculator.Proofs.Conversion.Step
import InfixCalculator.Proofs.Grammar.Recognition
import Mathlib.Data.List.Perm.Basic

/-!
# What the conversion keeps

Whatever the order of the tokens, the conversion loses none but the parentheses and invents none.
What is in the output, together with what still waits, are the tokens that have been read, up to
their order (`contents_of_run`).  The parentheses that wait are those that are still open, so a list
that is converted closes every parenthesis that it opens, and no others (`closes_of_run`).
-/

namespace InfixCalculator

/-- Whether the token is a parenthesis. -/
def Token.isParenthesis (token : Token) : Bool :=
  token.kind = .openParen || token.kind = .closeParen

namespace Rpn

namespace Conversion

open Token

variable {limits : Limits} {source : Option String} {token : Token} {config config' : Conversion}

/-- What has been read and will be put out: the output so far and the operators that wait. -/
def contents (config : Conversion) : List Token :=
  config.output.toList ++ config.stack.filter (·.kind ≠ .openParen)

/-- The number of parentheses that wait to be closed. -/
def openGroups (stack : List Token) : Nat :=
  stack.countP (·.kind = .openParen)

lemma openGroups_append (s t : List Token) : openGroups (s ++ t) = openGroups s + openGroups t :=
  List.countP_append

lemma openGroups_cons_open (h : token.kind = .openParen) (stack : List Token) :
    openGroups (token :: stack) = openGroups stack + 1 := by
  simp [openGroups, h]

lemma openGroups_cons_of_ne (h : token.kind ≠ .openParen) (stack : List Token) :
    openGroups (token :: stack) = openGroups stack := by
  simp [openGroups, h]

lemma openGroups_eq_zero_iff {stack : List Token} :
    openGroups stack = 0 ↔ ∀ token ∈ stack, token.kind ≠ .openParen := by
  simp [openGroups]

/-- Every opening parenthesis opens one group at most. -/
lemma depth_le_of_step (h : config.step limits source token = .ok config') :
    config'.depth ≤ config.depth + openGroups [token] := by
  rcases step_eq_ok h with ⟨-, rfl⟩ | ⟨hk, -, rfl⟩ | ⟨_, _, _, -, -, -, -, rfl⟩ |
    ⟨_, _, _, -, -, -, -, rfl⟩
  · exact Nat.le_add_right _ _
  · simp [openGroups, hk]
  · simp only
    omega
  · exact Nat.le_add_right _ _

/-- The depth grows with the opening parentheses at most. -/
lemma depth_le_of_run {tokens : List Token} (h : config.run limits source tokens = .ok config') :
    config'.depth ≤ config.depth + openGroups tokens := by
  induction tokens generalizing config with
  | nil =>
    cases h
    exact Nat.le_add_right _ _
  | cons token rest ih =>
    obtain ⟨next, hstep, hrun⟩ := run_cons_eq_ok_iff.1 h
    have hfirst := depth_le_of_step hstep
    have hrest := ih hrun
    rw [← List.singleton_append, openGroups_append]
    omega

lemma filter_of_no_open {stack : List Token} (h : ∀ token ∈ stack, token.kind ≠ .openParen) :
    stack.filter (·.kind ≠ .openParen) = stack := by
  rw [List.filter_eq_self]
  simpa using h

lemma no_open_of_operators {waiting : List Token} {incoming : Operator}
    (h : ∀ token ∈ waiting, ∃ op, token.kind = .operator op ∧ incoming.pops op = true) :
    ∀ token ∈ waiting, token.kind ≠ .openParen := by
  intro token ht
  obtain ⟨op, hk, -⟩ := h token ht
  simp [hk]

/-! ## No token is lost -/

/-- A token comes to the contents, unless it is a parenthesis. -/
lemma contents_of_step (h : config.step limits source token = .ok config') :
    config'.contents.Perm (config.contents ++ [token].filter (!·.isParenthesis)) := by
  rcases step_eq_ok h with ⟨hk, rfl⟩ | ⟨hk, -, rfl⟩ |
    ⟨waiting, opening, stack, hk, ho, hw, hstack, rfl⟩ | ⟨op, waiting, stack, hk, hw, -, hstack, rfl⟩
  · have hkeep : [token].filter (!·.isParenthesis) = [token] := by simp [isParenthesis, hk]
    rw [hkeep, contents, contents, Array.toList_push, List.append_assoc, List.append_assoc]
    exact List.perm_append_comm.append_left _
  · have hdrop : [token].filter (!·.isParenthesis) = [] := by simp [isParenthesis, hk]
    rw [hdrop, List.append_nil, contents, contents, List.filter_cons_of_neg (by simp [hk])]
  · have hdrop : [token].filter (!·.isParenthesis) = [] := by simp [isParenthesis, hk]
    rw [hdrop, List.append_nil, contents, contents, hstack, List.filter_append,
      filter_of_no_open hw, List.filter_cons_of_neg (by simp [ho]), Array.toList_append,
      List.append_assoc]
  -- the operators that give way are moved from the stack to the output; only the new one is added
  · have hkeep : [token].filter (!·.isParenthesis) = [token] := by simp [isParenthesis, hk]
    rw [hkeep, contents, contents, hstack, List.filter_append,
      filter_of_no_open (no_open_of_operators hw), List.filter_cons_of_pos (by simp [hk]),
      Array.toList_append, List.append_assoc, List.append_assoc, List.append_assoc]
    have hlast := List.perm_append_singleton token (stack.filter (·.kind ≠ .openParen))
    exact (hlast.symm.append_left waiting).append_left config.output.toList

/-- The tokens that are read come to the contents, without the parentheses. -/
lemma contents_of_run {tokens : List Token} (h : config.run limits source tokens = .ok config') :
    config'.contents.Perm (config.contents ++ tokens.filter (!·.isParenthesis)) := by
  induction tokens generalizing config with
  | nil =>
    cases h
    simp
  | cons token rest ih =>
    obtain ⟨next, hstep, hrun⟩ := run_cons_eq_ok_iff.1 h
    have hsplit : (token :: rest).filter (!·.isParenthesis) =
        [token].filter (!·.isParenthesis) ++ rest.filter (!·.isParenthesis) := by
      rw [← List.filter_append, List.singleton_append]
    rw [hsplit, ← List.append_assoc]
    exact (ih hrun).trans ((contents_of_step hstep).append_right _)

/-! ## Parentheses match -/

/-- If all groups are closed in the end, the tokens close those that wait and those that they open
themselves. -/
lemma closes_of_run {tokens : List Token} (h : config.run limits source tokens = .ok config')
    (hend : openGroups config'.stack = 0) : closes (openGroups config.stack) tokens = true := by
  induction tokens generalizing config with
  | nil =>
    cases h
    rw [hend]
    rfl
  | cons token rest ih =>
    obtain ⟨next, hstep, hrun⟩ := run_cons_eq_ok_iff.1 h
    have hrest := ih hrun
    rcases step_eq_ok hstep with ⟨hk, rfl⟩ | ⟨hk, -, rfl⟩ |
      ⟨waiting, opening, stack, hk, ho, hw, hstack, rfl⟩ |
      ⟨op, waiting, stack, hk, hw, -, hstack, rfl⟩
    · simpa only [closes, hk] using hrest
    · simpa only [closes, hk, openGroups_cons_open hk] using hrest
    -- a parenthesis closes the innermost of those that wait
    · have hopen : openGroups config.stack = openGroups stack + 1 := by
        rw [hstack, openGroups_append, openGroups_eq_zero_iff.2 hw, Nat.zero_add,
          openGroups_cons_open ho]
      simpa [closes, hk, hopen] using hrest
    -- an operator takes nothing but operators off the stack
    · have hne : token.kind ≠ .openParen := by simp [hk]
      have hsame : openGroups config.stack = openGroups (token :: stack) := by
        rw [hstack, openGroups_append, openGroups_eq_zero_iff.2 (no_open_of_operators hw),
          Nat.zero_add, openGroups_cons_of_ne hne]
      simpa only [closes, hk, hsame] using hrest

end Conversion

open Conversion

variable {limits : Limits} {source : Option String} {tokens rpn : List Token}

lemma ofInfix_eq_ok (h : ofInfix limits source tokens = .ok rpn) :
    ∃ config, initial.run limits source tokens = .ok config ∧
      openGroups config.stack = 0 ∧ rpn = config.contents := by
  unfold ofInfix at h
  split at h
  · exact absurd h (by simp)
  · next config hrun =>
      split at h
      · exact absurd h (by simp)
      · next output hdrain =>
          obtain ⟨hopen, rfl⟩ := drain_eq_ok hdrain
          refine ⟨config, hrun, openGroups_eq_zero_iff.2 hopen, ?_⟩
          rw [contents, filter_of_no_open hopen, ← Except.ok.inj h, Array.toList_append]

/-- The postfix order of a token list is a rearrangement of its tokens without the parentheses. -/
theorem ofInfix_perm (h : ofInfix limits source tokens = .ok rpn) :
    rpn.Perm (tokens.filter (!·.isParenthesis)) := by
  obtain ⟨config, hrun, -, rfl⟩ := ofInfix_eq_ok h
  exact contents_of_run hrun

/-- Only token lists whose parentheses match have a postfix order. -/
theorem closes_of_ofInfix (h : ofInfix limits source tokens = .ok rpn) :
    Token.closes 0 tokens = true := by
  obtain ⟨config, hrun, hend, -⟩ := ofInfix_eq_ok h
  exact closes_of_run hrun hend

end Rpn

end InfixCalculator
