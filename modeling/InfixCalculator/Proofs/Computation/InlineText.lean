import InfixCalculator.Proofs.Computation.Outcome
import InfixCalculator.Proofs.Conversion.Postorder
import InfixCalculator.Proofs.Evaluation.Agreement
import InfixCalculator.Proofs.Token.Spelling

/-!
# Reading the text of a tree

A tree is shown on one line with every operation in parentheses.  The tokens of that text are an atom of
the grammar, and the tree of that atom is the tree that was shown, but for its positions, which are
those of the text now (`exists_derives_inline`).  No operator in the text depends on precedences, for
both of its operands are atoms.

Hence the text is read back as the same tree, and computing it has the outcome that evaluating the tree
has, as far as the text itself keeps to the limits (`read_inline`).
-/

namespace InfixCalculator

open Token Grammar

/-- The limits admit the length of the text, the number of its tokens and the depth of its groups.
Tokens and groups are counted one by one, so a bound below zero is no tighter than zero. -/
structure Limits.Admits (limits : Limits) (text : String) : Prop where
  length : (text.length : Int) ≤ limits.expressionLength
  count : (segments 0 [] text.toList).tokens.length ≤ limits.tokenCount.toNat
  nesting : Token.nesting (segments 0 [] text.toList).tokens ≤ limits.nestingDepth.toNat

namespace Tree

/-- The tree with all its positions forgotten. -/
def unplaced : Tree → Tree
  | leaf text _ => leaf text 0
  | node op text _ left right => node op text 0 left.unplaced right.unplaced

lemma postorder_unplaced (t : Tree) :
    t.unplaced.postorder = t.postorder.map (Token.relocate fun _ => 0) := by
  induction t with
  | leaf text position => rfl
  | node op text position left right ihl ihr =>
    rw [unplaced, postorder, postorder, ihl, ihr, List.map_append, List.map_append]
    rfl

/-- The text of a tree does not tell its positions. -/
lemma inline_unplaced (t : Tree) : t.unplaced.inline = t.inline := by
  induction t with
  | leaf text position => rfl
  | node op text position left right ihl ihr => rw [unplaced, inline, inline, ihl, ihr]

lemma postorder_congr {t u : Tree} (h : t.unplaced = u.unplaced) :
    t.postorder.map (Token.relocate fun _ => 0) = u.postorder.map (Token.relocate fun _ => 0) := by
  rw [← postorder_unplaced, h, postorder_unplaced]

lemma inline_congr {t u : Tree} (h : t.unplaced = u.unplaced) : t.inline = u.inline := by
  rw [← inline_unplaced, h, inline_unplaced]

/-- The tokens of the text of a tree are an atom with the same tree at other positions. -/
lemma exists_derives_inline {t : Tree} (h : ∀ token ∈ t.postorder, token.Spelled)
    (position : Int) :
    ∃ tokens t', segments position [] t.inline.toList = ⟨tokens, none⟩ ∧
      Derives .atom tokens t' ∧ t'.unplaced = t.unplaced := by
  induction t generalizing position with
  | leaf text place =>
    have hliteral : Spelled ⟨.literal, text, place⟩ := h _ (List.mem_singleton.2 rfl)
    exact ⟨_, _, segments_text hliteral position, .literal text position, rfl⟩
  | node op text place left right ihl ihr =>
    simp only [postorder, List.forall_mem_append, List.forall_mem_singleton] at h
    obtain ⟨⟨hleft, hright⟩, hoperator⟩ := h
    obtain ⟨l, t', hl, htree, hsame⟩ := ihl hleft (position + 1)
    have hmiddle := segments_text hoperator (position + 1 + left.inline.toList.length + 1)
    obtain ⟨r, u', hr, hutree, husame⟩ := ihr hright
      (position + 1 + left.inline.toList.length + 1 + text.toList.length + 1)
    have hshape : (node op text place left right).inline.toList =
        '(' :: (left.inline.toList ++ ' ' :: (text.toList ++ ' ' :: right.inline.toList) ++
          [')']) := by
      simp [inline]
    have hread := segments_grouped (segments_spaced hl (segments_spaced hmiddle hr))
    rw [← hshape] at hread
    have hgroup := htree.binary op text (position + 1 + left.inline.toList.length + 1) hutree
    refine ⟨_, _, hread, .group rfl rfl hgroup, ?_⟩
    rw [unplaced, unplaced, hsame, husame]

end Tree

/-- An atom is converted to the listing of its tree.  If the atom is a group, no bound below zero admits
it; if it is a literal, its depth is not compared with any. -/
lemma Rpn.ofInfix_of_atom {limits : Limits} {source : Option String} {tokens : List Token}
    {t : Tree} (h : Derives .atom tokens t)
    (hn : Token.nesting tokens ≤ limits.nestingDepth.toNat) :
    ofInfix limits source tokens = .ok t.postorder := by
  cases h with
  | literal text position => rfl
  | @group opening closing inner _ ho hc hinner =>
    refine ofInfix_of_derives (Derives.group ho hc hinner).expression_of_atom ?_
    have hshift : opening.kind.shift 0 = 1 := by rw [ho]; rfl
    have hdeep : 1 ≤ nestingFrom 1 (inner ++ [closing]) := le_nestingFrom _ _
    rw [Token.nesting, nestingFrom_cons, hshift] at hn ⊢
    omega

/-- The stages on the way from the text of a tree to a tree that differs in positions only. -/
lemma Tree.stages_of_inline {limits : Limits} {t : Tree}
    (hspelled : ∀ token ∈ t.postorder, token.Spelled) (hadmits : limits.Admits t.inline) :
    ∃ (tokens : List Token) (t' : Tree), isBlank t.inline = false ∧
      tokenize limits t.inline = .ok tokens ∧
      (∀ source, Rpn.ofInfix limits source tokens = .ok t'.postorder) ∧
      t'.unplaced = t.unplaced := by
  obtain ⟨tokens, t', hsegments, htree, hsame⟩ := exists_derives_inline hspelled 0
  obtain ⟨hlength, hcount, hnesting⟩ := hadmits
  rw [hsegments] at hcount hnesting
  refine ⟨tokens, t', ?_, tokenize_eq_ok_iff.2 ⟨hlength, hsegments, hcount⟩,
    fun source => Rpn.ofInfix_of_atom htree hnesting, hsame⟩
  -- a blank text has no tokens, and an atom has some
  refine Bool.eq_false_iff.2 fun hblank => ?_
  rw [segments_of_isBlank hblank] at hsegments
  obtain rfl : [] = tokens := congrArg Segments.tokens hsegments
  cases htree

/-- Let a tree be built from tokens that are spelled as their kinds demand, and let the limits admit its
text with every operation in parentheses.  The text is split into tokens, converted and built into a
tree; that tree differs from the first one in positions at most, and has the same text.  Computing the
text has the same value as evaluating the first tree, or an error of the same kind with the same
message. -/
theorem read_inline {limits : Limits} {source : Option String} {postfixed : List Token} {t : Tree}
    (ht : Tree.ofPostorder source postfixed = .ok t)
    (hspelled : ∀ token ∈ postfixed, token.Spelled) (hadmits : limits.Admits t.inline) :
    (∃ tokens rpn t', tokenize limits t.inline = .ok tokens ∧
      (∀ source', Rpn.ofInfix limits source' tokens = .ok rpn) ∧
      (∀ source', Tree.ofPostorder source' rpn = .ok t') ∧
      t'.unplaced = t.unplaced ∧ t'.inline = t.inline) ∧
    ∀ source', Rpn.evaluate limits source' postfixed = t.value limits source' ∧
      SameOutcome (compute limits t.inline) (t.value limits source') := by
  obtain rfl : postfixed = t.postorder := Tree.ofPostorder_eq_ok_iff.1 ht
  obtain ⟨tokens, t', hblank, htokens, hrpn, hsame⟩ := Tree.stages_of_inline hspelled hadmits
  constructor
  · exact ⟨tokens, t'.postorder, t', htokens, hrpn, fun _ => Tree.ofPostorder_postorder t', hsame,
      Tree.inline_congr hsame⟩
  · intro source'
    have hvalue : Rpn.evaluate limits source' t.postorder = t.value limits source' :=
      Rpn.evaluate_postorder t
    refine ⟨hvalue, sameOutcome_of_forget ?_⟩
    rw [calculate_eq_evaluate hblank htokens (hrpn _), ← hvalue]
    exact Rpn.evaluate_congr (Tree.postorder_congr hsame) _ _

/-- The tokens of `2 3 x ^ ^`. -/
def towerTokens : List Token :=
  [⟨.literal, "2", 0⟩, ⟨.literal, "3", 2⟩, ⟨.literal, "x", 4⟩, ⟨.operator .pow, "^", 6⟩,
    ⟨.operator .pow, "^", 8⟩]

/-- The tree of `2 3 x ^ ^`. -/
def towerTree : Tree :=
  .node .pow "^" 8 (.leaf "2" 0) (.node .pow "^" 6 (.leaf "3" 2) (.leaf "x" 4))

/-- Limits that the text `(2 ^ (3 ^ x))` just keeps to. -/
def towerLimits : Limits :=
  { expressionLength := 13, tokenCount := 9, nestingDepth := 2, exponent := 0, integerBits := 2 }

/-- With a text at the limits of its length, its tokens and its groups. -/
theorem read_inline_sample :
    Tree.ofPostorder none towerTokens = .ok towerTree ∧ towerTree.inline = "(2 ^ (3 ^ x))" ∧
      (∃ tokens rpn t', tokenize towerLimits towerTree.inline = .ok tokens ∧
        (∀ source', Rpn.ofInfix towerLimits source' tokens = .ok rpn) ∧
        (∀ source', Tree.ofPostorder source' rpn = .ok t') ∧
        t'.unplaced = towerTree.unplaced ∧ t'.inline = towerTree.inline) ∧
      ∀ source', Rpn.evaluate towerLimits source' towerTokens =
          towerTree.value towerLimits source' ∧
        SameOutcome (compute towerLimits towerTree.inline)
          (towerTree.value towerLimits source') := by
  have htree : Tree.ofPostorder none towerTokens = .ok towerTree := rfl
  have htokens : tokenize {} "2 3 x ^ ^" = .ok towerTokens := rfl
  have hadmits : towerLimits.Admits towerTree.inline := ⟨by decide, by decide, by decide⟩
  exact ⟨htree, rfl, read_inline htree (spelled_of_tokenize htokens) hadmits⟩

end InfixCalculator
