import InfixCalculator.Proofs.Grammar.Nesting
import InfixCalculator.Tree

/-!
# The grammar of expressions

The infix grammar with precedence and associativity built in,

* `Expression ::= Term {(+|-) Term}`,
* `Term ::= Factor {(*|/) Factor}`,
* `Factor ::= Atom [^ Factor]`,
* `Atom ::= LITERAL | ( Expression )`,

as a relation between the tokens of a phrase and its tree (`Derives`).  A chain of sums or products
is folded to the left, a chain of powers to the right, and parentheses leave no node.
-/

namespace InfixCalculator.Grammar

/-- The sorts of phrases, the loosest first. -/
inductive Level where
  | expression
  | term
  | factor
  | atom
  deriving DecidableEq, Repr

/-- The least precedence of the operators of a phrase that stand outside of its groups; an atom has
no such operator. -/
def Level.precedence : Level → Nat
  | expression => 2
  | term => 3
  | factor => 4
  | atom => 5

/-- An operator of a chain with the phrase to its right. -/
structure Link where
  /-- The operator. -/
  op : Operator
  /-- The text of the operator. -/
  text : String
  /-- The position of the operator. -/
  position : Int
  /-- The tokens of the phrase. -/
  tokens : List Token
  /-- The tree of the phrase. -/
  tree : Tree

/-- The tokens of a link. -/
def Link.listing (link : Link) : List Token :=
  ⟨.operator link.op, link.text, link.position⟩ :: link.tokens

/-- The tree of a chain that goes on with a link. -/
def Link.onto (left : Tree) (link : Link) : Tree :=
  .node link.op link.text link.position left link.tree

/-- The token list is a phrase of the given level with the given tree. -/
inductive Derives : Level → List Token → Tree → Prop
  /-- A literal is an atom. -/
  | literal (text : String) (position : Int) :
      Derives .atom [⟨.literal, text, position⟩] (.leaf text position)
  /-- An expression in parentheses is an atom. -/
  | group {opening closing : Token} {tokens : List Token} {tree : Tree}
      (ho : opening.kind = .openParen) (hc : closing.kind = .closeParen)
      (h : Derives .expression tokens tree) :
      Derives .atom (opening :: (tokens ++ [closing])) tree
  /-- An atom is a factor. -/
  | factor {tokens : List Token} {tree : Tree} (h : Derives .atom tokens tree) :
      Derives .factor tokens tree
  /-- A power of an atom is a factor. -/
  | power {base exponent : List Token} {left right : Tree} (text : String) (position : Int)
      (hb : Derives .atom base left) (he : Derives .factor exponent right) :
      Derives .factor (base ++ ⟨.operator .pow, text, position⟩ :: exponent)
        (.node .pow text position left right)
  /-- A chain of products and quotients is a term. -/
  | term {first : List Token} {tree : Tree} (links : List Link) (hf : Derives .factor first tree)
      (hop : ∀ link ∈ links, link.op = .mul ∨ link.op = .div)
      (h : ∀ link ∈ links, Derives .factor link.tokens link.tree) :
      Derives .term (first ++ links.flatMap Link.listing) (links.foldl Link.onto tree)
  /-- A chain of sums and differences is an expression. -/
  | expression {first : List Token} {tree : Tree} (links : List Link)
      (hf : Derives .term first tree)
      (hop : ∀ link ∈ links, link.op = .add ∨ link.op = .sub)
      (h : ∀ link ∈ links, Derives .term link.tokens link.tree) :
      Derives .expression (first ++ links.flatMap Link.listing) (links.foldl Link.onto tree)

/-! ## Short phrases -/

/-- A factor is a term without products. -/
lemma Derives.term_of_factor {tokens : List Token} {tree : Tree} (h : Derives .factor tokens tree) :
    Derives .term tokens tree := by
  simpa using Derives.term [] h (by simp) (by simp)

/-- A term is an expression without sums. -/
lemma Derives.expression_of_term {tokens : List Token} {tree : Tree}
    (h : Derives .term tokens tree) : Derives .expression tokens tree := by
  simpa using Derives.expression [] h (by simp) (by simp)

/-- An atom is an expression. -/
lemma Derives.expression_of_atom {tokens : List Token} {tree : Tree}
    (h : Derives .atom tokens tree) : Derives .expression tokens tree :=
  h.factor.term_of_factor.expression_of_term

/-- Two atoms with an operator between them are an expression, whatever the operator is. -/
lemma Derives.binary {l r : List Token} {t u : Tree} (op : Operator) (text : String)
    (position : Int) (hl : Derives .atom l t) (hr : Derives .atom r u) :
    Derives .expression (l ++ ⟨.operator op, text, position⟩ :: r)
      (.node op text position t u) := by
  have hsum : op = .add ∨ op = .sub → Derives .expression
      (l ++ ⟨.operator op, text, position⟩ :: r) (.node op text position t u) := by
    intro hop
    have h := Derives.expression [⟨op, text, position, r, u⟩] hl.factor.term_of_factor
      (by simpa using hop) (by simpa using hr.factor.term_of_factor)
    simpa [Link.listing, Link.onto] using h
  have hproduct : op = .mul ∨ op = .div → Derives .expression
      (l ++ ⟨.operator op, text, position⟩ :: r) (.node op text position t u) := by
    intro hop
    have h := Derives.term [⟨op, text, position, r, u⟩] hl.factor (by simpa using hop)
      (by simpa using hr.factor)
    refine expression_of_term ?_
    simpa [Link.listing, Link.onto] using h
  cases op with
  | add => exact hsum (Or.inl rfl)
  | sub => exact hsum (Or.inr rfl)
  | mul => exact hproduct (Or.inl rfl)
  | div => exact hproduct (Or.inr rfl)
  | pow => exact (Derives.power text position hl hr.factor).term_of_factor.expression_of_term

/-! ## Parentheses match -/

/-- A chain of phrases whose parentheses match opens as many parentheses as it closes. -/
lemma depthAfter_flatMap_listing {links : List Link}
    (h : ∀ link ∈ links, ∀ depth, Token.depthAfter depth link.tokens = depth) (depth : Nat) :
    Token.depthAfter depth (links.flatMap Link.listing) = depth := by
  induction links with
  | nil => rfl
  | cons link links ih =>
    have hl : Token.depthAfter depth link.listing = depth := h link List.mem_cons_self depth
    rw [List.flatMap_cons, Token.depthAfter_append, hl]
    exact ih fun x hx => h x (List.mem_cons_of_mem _ hx)

/-- A phrase closes the parentheses that it opens. -/
lemma Derives.depthAfter {level : Level} {tokens : List Token} {tree : Tree}
    (h : Derives level tokens tree) : ∀ depth, Token.depthAfter depth tokens = depth := by
  induction h with
  | literal => exact fun _ => rfl
  | group ho hc _ ih =>
    intro depth
    rw [Token.depthAfter_cons, Token.depthAfter_append, ho, ih, Token.depthAfter_cons, hc]
    rfl
  | factor _ ih => exact ih
  | power text position _ _ ihb ihe =>
    intro depth
    rw [Token.depthAfter_append, ihb]
    exact ihe depth
  | term links _ _ _ ihf ih =>
    intro depth
    rw [Token.depthAfter_append, ihf, depthAfter_flatMap_listing ih]
  | expression links _ _ _ ihf ih =>
    intro depth
    rw [Token.depthAfter_append, ihf, depthAfter_flatMap_listing ih]

end InfixCalculator.Grammar
