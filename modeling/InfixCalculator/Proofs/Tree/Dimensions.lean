import InfixCalculator.Proofs.Computation.PostfixText
import InfixCalculator.Proofs.Token.Surroundings
import InfixCalculator.Proofs.Tree.Counting
import InfixCalculator.Proofs.Tree.Recursion
import Mathlib.Algebra.Ring.Parity

/-!
# The dimensions of a tree

A tree has as many leaves and nodes as it has been built from tokens.  Leaves are one more than nodes, so
the number is odd.  A tree of a given depth is smallest when every node has a leaf for an operand
(`two_mul_depth_le`), and largest when all leaves are equally deep (`size_lt_two_pow`).  So the number of
tokens bounds the depth, and with it the recursion of the functions on trees.

The text of a tree has a pair of parentheses for every node.  Matched pairs and their nesting are told by
counting in what the text begins with (`Text.Parenthesized`).
-/

namespace InfixCalculator

namespace Text

/-! ## Parentheses in texts -/

/-- The parentheses of a text come in so many pairs, and are nested no deeper than `depth`. -/
structure Parenthesized (s : List Char) (pairs depth : Nat) : Prop where
  opening : s.count '(' = pairs
  closing : s.count ')' = pairs
  /-- None is closed that has not been opened before. -/
  matched : ∀ front, front <+: s → front.count ')' ≤ front.count '('
  /-- Never are more of them open than `depth`. -/
  nested : ∀ front, front <+: s → front.count '(' ≤ front.count ')' + depth

variable {s t front : List Char} {pairs pairs' depth depth' : Nat}

/-- What a concatenation begins with ends in its first part or in its second. -/
lemma prefix_append_cases (h : front <+: s ++ t) :
    front <+: s ∨ ∃ rest, rest <+: t ∧ front = s ++ rest := by
  rcases List.prefix_or_prefix_of_prefix h (List.prefix_append s t) with hfront | ⟨rest, rfl⟩
  · exact Or.inl hfront
  · exact Or.inr ⟨rest, (List.prefix_append_right_inj s).1 h, rfl⟩

lemma parenthesized_of_notMem (ho : '(' ∉ s) (hc : ')' ∉ s) : Parenthesized s 0 0 where
  opening := List.count_eq_zero.2 ho
  closing := List.count_eq_zero.2 hc
  matched front h := by
    rw [List.count_eq_zero.2 fun hmem => hc (h.subset hmem)]
    exact Nat.zero_le _
  nested front h := by
    rw [List.count_eq_zero.2 fun hmem => ho (h.subset hmem)]
    exact Nat.zero_le _

lemma Parenthesized.mono (h : Parenthesized s pairs depth) (hle : depth ≤ depth') :
    Parenthesized s pairs depth' where
  opening := h.opening
  closing := h.closing
  matched := h.matched
  nested front hf := Nat.le_trans (h.nested front hf) (Nat.add_le_add_left hle _)

lemma Parenthesized.append (hs : Parenthesized s pairs depth)
    (ht : Parenthesized t pairs' depth) : Parenthesized (s ++ t) (pairs + pairs') depth where
  opening := by rw [List.count_append, hs.opening, ht.opening]
  closing := by rw [List.count_append, hs.closing, ht.closing]
  matched front h := by
    rcases prefix_append_cases h with hfront | ⟨rest, hrest, rfl⟩
    · exact hs.matched front hfront
    · have hmatched := ht.matched rest hrest
      rw [List.count_append, List.count_append, hs.opening, hs.closing]
      omega
  nested front h := by
    rcases prefix_append_cases h with hfront | ⟨rest, hrest, rfl⟩
    · exact hs.nested front hfront
    · have hnested := ht.nested rest hrest
      rw [List.count_append, List.count_append, hs.opening, hs.closing]
      omega

/-- Parentheses around a text are one pair more, and the others are nested in them. -/
lemma Parenthesized.group (h : Parenthesized s pairs depth) :
    Parenthesized ('(' :: (s ++ [')'])) (pairs + 1) (depth + 1) := by
  have hfront (front : List Char) (hf : front <+: '(' :: (s ++ [')'])) :
      front.count ')' ≤ front.count '(' ∧ front.count '(' ≤ front.count ')' + (depth + 1) := by
    rcases List.prefix_cons_iff.1 hf with rfl | ⟨rest, rfl, hrest⟩
    · simp
    have hopen : ('(' :: rest).count '(' = rest.count '(' + 1 := List.count_cons_self
    have hclose : ('(' :: rest).count ')' = rest.count ')' := List.count_cons_of_ne (by decide)
    rw [hopen, hclose]
    rcases prefix_append_cases hrest with hinside | ⟨last, hlast, rfl⟩
    · have hmatched := h.matched rest hinside
      have hnested := h.nested rest hinside
      omega
    · have hlastOpen : last.count '(' ≤ 0 := hlast.sublist.count_le '('
      have hlastClose : last.count ')' ≤ 1 := hlast.sublist.count_le ')'
      rw [List.count_append, List.count_append, h.opening, h.closing]
      omega
  exact ⟨by simp [h.opening], by simp [h.closing], fun front hf => (hfront front hf).1,
    fun front hf => (hfront front hf).2⟩

end Text

namespace Token

variable {token : Token}

/-- An operator that is spelled as its kind demands is written as its symbol. -/
lemma Spelled.showsSymbol (h : token.Spelled) : token.ShowsSymbol := by
  intro op hk
  rcases h with ⟨c, hkind, htext⟩ | ⟨hliteral, -, -⟩
  · have hsymbol := symbol?_of_ofSymbol? hkind
    rw [hk] at hsymbol
    obtain rfl : op.symbol = c := Option.some.inj hsymbol
    exact htext
  · rw [hk] at hliteral
    exact absurd hliteral (by simp)

/-- There is no parenthesis in a literal. -/
lemma Spelled.parenthesized (h : token.Spelled) (hk : token.kind = .literal) :
    Text.Parenthesized token.text.toList 0 0 := by
  have hword := h.not_boundary hk
  refine Text.parenthesized_of_notMem (fun hmem => ?_) (fun hmem => ?_)
  · exact absurd (hword '(' hmem) (by decide)
  · exact absurd (hword ')' hmem) (by decide)

end Token

namespace Tree

open Text

variable {source : Option String} {t : Tree}

/-! ## Size and depth -/

lemma depth_pos (t : Tree) : 0 < t.depth := by
  cases t <;> simp only [depth] <;> omega

/-- Leaves are one more than nodes. -/
lemma odd_size (t : Tree) : Odd t.size := by
  induction t with
  | leaf text position => exact odd_one
  | node op text position left right ihl ihr =>
    have heven : Even (left.size + right.size) := ihl.add_odd ihr
    rw [size, Nat.add_assoc]
    exact heven.one_add

/-- Beside every node on the longest path there is one leaf at least. -/
lemma two_mul_depth_le (t : Tree) : 2 * t.depth ≤ t.size + 1 := by
  induction t with
  | leaf text position => exact Nat.le_refl 2
  | node op text position left right ihl ihr =>
    have hl := left.depth_pos
    have hr := right.depth_pos
    simp only [depth, size]
    omega

/-- One level more makes room for twice as many leaves and nodes, and one. -/
lemma size_lt_two_pow (t : Tree) : t.size < 2 ^ t.depth := by
  induction t with
  | leaf text position => exact Nat.one_lt_two
  | node op text position left right ihl ihr =>
    have hl : 2 ^ left.depth ≤ 2 ^ max left.depth right.depth :=
      Nat.pow_le_pow_right (by decide) (Nat.le_max_left _ _)
    have hr : 2 ^ right.depth ≤ 2 ^ max left.depth right.depth :=
      Nat.pow_le_pow_right (by decide) (Nat.le_max_right _ _)
    rw [depth, size, Nat.pow_add, Nat.pow_one]
    omega

/-! ## The text -/

/-- The text of a tree has a pair of parentheses for every node, if its literals and operators have
none. -/
lemma parenthesized_inline (hs : t.Symbolic)
    (hl : ∀ token ∈ t.postorder, token.kind = .literal → token.Spelled) :
    Parenthesized t.inline.toList ((t.size - 1) / 2) (t.depth - 1) := by
  induction t with
  | leaf text position =>
    have hspelled : Token.Spelled ⟨.literal, text, position⟩ := hl _ (List.mem_singleton.2 rfl) rfl
    simpa [inline, size, depth] using hspelled.parenthesized rfl
  | node op text position left right ihl ihr =>
    obtain ⟨rfl, hsl, hsr⟩ := hs
    simp only [postorder, List.forall_mem_append, List.forall_mem_singleton] at hl
    obtain ⟨⟨hleft, hright⟩, -⟩ := hl
    have hdl := left.depth_pos
    have hdr := right.depth_pos
    have hl : Parenthesized left.inline.toList _ (max left.depth right.depth - 1) :=
      (ihl hsl hleft).mono (by omega)
    have hr : Parenthesized right.inline.toList _ (max left.depth right.depth - 1) :=
      (ihr hsr hright).mono (by omega)
    have hmiddle : Parenthesized [' ', op.symbol, ' '] 0 (max left.depth right.depth - 1) :=
      (parenthesized_of_notMem (by cases op <;> decide) (by cases op <;> decide)).mono
        (Nat.zero_le _)
    have hshape : (node op (String.singleton op.symbol) position left right).inline.toList =
        '(' :: (left.inline.toList ++ [' ', op.symbol, ' '] ++ right.inline.toList ++ [')']) := by
      simp [inline]
    obtain ⟨m, hm⟩ := left.odd_size
    obtain ⟨n, hn⟩ := right.odd_size
    have hpairs : (left.size - 1) / 2 + 0 + (right.size - 1) / 2 + 1 =
        ((node op (String.singleton op.symbol) position left right).size - 1) / 2 := by
      rw [size]
      omega
    have hdepth : max left.depth right.depth - 1 + 1 =
        (node op (String.singleton op.symbol) position left right).depth - 1 := by
      rw [depth]
      omega
    rw [hshape, ← hpairs, ← hdepth]
    exact ((hl.append hmiddle).append hr).group

/-- Let a tree be built from tokens.  It has as many leaves and nodes as there are tokens.  Their number is
odd, at least twice the depth less one, and less than two to the power of the depth.  If literals and
operators are spelled as they are in expressions, the text of the tree has a pair of parentheses for every
operator, and they are nested less deep than the tree.

If the tokens come from an expression they are spelled like this.  Then the functions on trees recur no
deeper than half of one more than the tokens that the limits admit. -/
theorem dimensions_of_ofPostorder {postfixed : List Token}
    (h : ofPostorder source postfixed = .ok t) :
    (t.size = postfixed.length ∧ Odd postfixed.length ∧ 2 * t.depth - 1 ≤ postfixed.length ∧
      postfixed.length ≤ 2 ^ t.depth - 1) ∧
    ((∀ token ∈ postfixed, token.kind = .literal → token.Spelled) →
      (∀ token ∈ postfixed, token.ShowsSymbol) →
        Parenthesized t.inline.toList ((postfixed.length - 1) / 2) (t.depth - 1)) ∧
    ∀ limits expression source' tokens, Token.tokenize limits expression = .ok tokens →
      Rpn.ofInfix limits source' tokens = .ok postfixed →
        t.RecursWithin ((limits.tokenCount + 1) / 2).toNat ∧
          Parenthesized t.inline.toList ((postfixed.length - 1) / 2) (t.depth - 1) := by
  obtain rfl : postfixed = t.postorder := ofPostorder_eq_ok_iff.1 h
  have hlower := t.two_mul_depth_le
  have hupper := t.size_lt_two_pow
  rw [length_postorder]
  have htext (hl : ∀ token ∈ t.postorder, token.kind = .literal → token.Spelled)
      (hs : ∀ token ∈ t.postorder, token.ShowsSymbol) :
      Parenthesized t.inline.toList ((t.size - 1) / 2) (t.depth - 1) :=
    parenthesized_inline (t.symbolic_iff.2 hs) hl
  refine ⟨⟨rfl, t.odd_size, by omega, by omega⟩, htext,
    fun limits expression source' tokens htokens hpostfixed => ?_⟩
  obtain ⟨hspelled, hcount⟩ := spelled_of_ofInfix htokens hpostfixed
  rw [length_postorder] at hcount
  refine ⟨recursWithin_iff.2 (by omega), ?_⟩
  exact htext (fun token ht _ => hspelled token ht) (fun token ht => (hspelled token ht).showsSymbol)

/-- The tree of `2^3^4^x`, which is as deep as seven tokens can make it. -/
def deepTree : Tree :=
  .node .pow "^" 1 (.leaf "2" 0) (.node .pow "^" 3 (.leaf "3" 2)
    (.node .pow "^" 5 (.leaf "4" 4) (.leaf "x" 6)))

/-- With no more tokens admitted than there are, and the deepest recursion that is possible then. -/
theorem dimensions_of_ofPostorder_sample :
    ofPostorder none deepTree.postorder = .ok deepTree ∧ deepTree.postorder.length = 7 ∧
      deepTree.depth = 4 ∧ 2 * deepTree.depth - 1 ≤ deepTree.postorder.length ∧
      deepTree.RecursWithin ((7 + 1) / 2 : Int).toNat ∧
      deepTree.inline = "(2 ^ (3 ^ (4 ^ x)))" ∧
      Parenthesized deepTree.inline.toList 3 3 := by
  have htree : ofPostorder none deepTree.postorder = .ok deepTree := ofPostorder_postorder deepTree
  have htokens : Token.tokenize { tokenCount := 7 } "2^3^4^x" = .ok
      [⟨.literal, "2", 0⟩, ⟨.operator .pow, "^", 1⟩, ⟨.literal, "3", 2⟩, ⟨.operator .pow, "^", 3⟩,
        ⟨.literal, "4", 4⟩, ⟨.operator .pow, "^", 5⟩, ⟨.literal, "x", 6⟩] := rfl
  have hpostfixed : Rpn.ofInfix { tokenCount := 7 } none
      [⟨.literal, "2", 0⟩, ⟨.operator .pow, "^", 1⟩, ⟨.literal, "3", 2⟩, ⟨.operator .pow, "^", 3⟩,
        ⟨.literal, "4", 4⟩, ⟨.operator .pow, "^", 5⟩, ⟨.literal, "x", 6⟩] =
      .ok deepTree.postorder := rfl
  obtain ⟨hspelled, -⟩ := spelled_of_ofInfix htokens hpostfixed
  obtain ⟨⟨-, -, hlower, -⟩, htext, hexpression⟩ := dimensions_of_ofPostorder htree
  obtain ⟨hrecursion, -⟩ := hexpression _ _ _ _ htokens hpostfixed
  exact ⟨htree, rfl, rfl, hlower, hrecursion, rfl,
    htext (fun token ht _ => hspelled token ht) fun token ht => (hspelled token ht).showsSymbol⟩

end Tree

end InfixCalculator
