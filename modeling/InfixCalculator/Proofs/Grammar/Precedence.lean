import InfixCalculator.Proofs.Grammar.Derivation
import InfixCalculator.Proofs.Grammar.Recognition

/-!
# Precedence does not change what an expression is

The grammar without precedences (`IsExpression`) says which token lists are expressions, the grammar
with precedences (`Derives`) gives them their trees.  They agree on the token lists
(`isExpression_iff_derives`): without its precedences an expression is a chain of atoms with operators
between them, and such a chain is brought into levels from its right end, one atom after the other
(`Derives.exists_cons`).
-/

namespace InfixCalculator.Grammar

variable {op : Operator} {token : Token} {tokens l r : List Token}

/-! ## Phrases are expressions -/

/-- Operators with an expression to their right may follow an expression. -/
lemma IsExpression.append_links {links : List Link}
    (h : ∀ link ∈ links, IsExpression link.tokens) (hf : IsExpression tokens) :
    IsExpression (tokens ++ links.flatMap Link.listing) := by
  induction links generalizing tokens with
  | nil => simpa using hf
  | cons link links ih =>
    rw [List.flatMap_cons, ← List.append_assoc]
    refine ih (fun x hx => h x (List.mem_cons_of_mem _ hx)) ?_
    exact .binary rfl hf (h link List.mem_cons_self)

/-- A phrase of any level is an expression. -/
lemma Derives.isExpression {level : Level} {tree : Tree} (h : Derives level tokens tree) :
    IsExpression tokens := by
  induction h with
  | literal => exact .literal rfl
  | group ho hc _ ih => exact .group ho hc ih
  | factor _ ih => exact ih
  | power _ _ _ _ ihb ihe => exact .binary rfl ihb ihe
  | term _ _ _ _ ihf ih => exact ihf.append_links ih
  | expression _ _ _ _ ihf ih => exact ihf.append_links ih

/-! ## Expressions are phrases -/

/-- Atoms with an operator between any two of them. -/
inductive Chained : List Token → Prop
  /-- A single atom. -/
  | atom {tokens : List Token} {tree : Tree} (h : Derives .atom tokens tree) : Chained tokens
  /-- An atom and an operator before a chain. -/
  | cons {token : Token} {op : Operator} {first rest : List Token} {tree : Tree}
      (hf : Derives .atom first tree) (ht : token.kind = .operator op) (hr : Chained rest) :
      Chained (first ++ token :: rest)

lemma Chained.append (hl : Chained l) (ht : token.kind = .operator op) (hr : Chained r) :
    Chained (l ++ token :: r) := by
  induction hl with
  | atom h => exact .cons h ht hr
  | cons hf ht' _ ih =>
    rw [List.append_assoc, List.cons_append]
    exact .cons hf ht' ih

/-- An atom and an operator may stand before an expression.  The atom becomes the base of its first
factor, the first factor of its first term, or its first term, as tightly as the operator binds. -/
lemma Derives.exists_cons {t u : Tree} (ht : token.kind = .operator op)
    (hl : Derives .atom l t) (hr : Derives .expression r u) :
    ∃ v, Derives .expression (l ++ token :: r) v := by
  obtain ⟨kind, text, position⟩ := token
  obtain rfl : kind = .operator op := ht
  cases hr with
  | expression links hterm hop h =>
    cases hterm with
    | @term first factorTree links' hfactor hop' h' =>
      -- the atom is a first factor, and the old first factor follows it
      have hproducts : op = .mul ∨ op = .div →
          ∃ v, Derives .expression (l ++ ⟨.operator op, text, position⟩ ::
            (first ++ links'.flatMap Link.listing ++ links.flatMap Link.listing)) v := by
        intro hprod
        have hterm := Derives.term (⟨op, text, position, first, factorTree⟩ :: links')
          (.factor hl) (List.forall_mem_cons.2 ⟨hprod, hop'⟩)
          (List.forall_mem_cons.2 ⟨hfactor, h'⟩)
        exact ⟨_, by simpa [Link.listing] using Derives.expression links hterm hop h⟩
      -- the atom is a first term, and the old first term follows it
      have hsums : op = .add ∨ op = .sub →
          ∃ v, Derives .expression (l ++ ⟨.operator op, text, position⟩ ::
            (first ++ links'.flatMap Link.listing ++ links.flatMap Link.listing)) v := by
        intro hsum
        have hterm := Derives.term links' hfactor hop' h'
        have hexpression := Derives.expression (⟨op, text, position, _, _⟩ :: links)
          hl.factor.term_of_factor (List.forall_mem_cons.2 ⟨hsum, hop⟩)
          (List.forall_mem_cons.2 ⟨hterm, h⟩)
        exact ⟨_, by simpa [Link.listing] using hexpression⟩
      cases op with
      | add => exact hsums (.inl rfl)
      | sub => exact hsums (.inr rfl)
      | mul => exact hproducts (.inl rfl)
      | div => exact hproducts (.inr rfl)
      -- the atom is the base, and the old first factor is the exponent
      | pow =>
        have hpower := Derives.power text position hl hfactor
        have hterm := Derives.term links' hpower hop' h'
        exact ⟨_, by simpa using Derives.expression links hterm hop h⟩

lemma Chained.derives (h : Chained tokens) : ∃ tree, Derives .expression tokens tree := by
  induction h with
  | atom h => exact ⟨_, h.expression_of_atom⟩
  | cons hf ht _ ih =>
    obtain ⟨tree, hr⟩ := ih
    exact hf.exists_cons ht hr

/-- An expression is a chain of atoms. -/
lemma IsExpression.chained (h : IsExpression tokens) : Chained tokens := by
  induction h with
  | @literal token h =>
    obtain ⟨kind, text, position⟩ := token
    obtain rfl : kind = .literal := h
    exact .atom (.literal text position)
  | group ho hc _ ih =>
    obtain ⟨tree, htree⟩ := ih.derives
    exact .atom (.group ho hc htree)
  | binary ht _ _ ihl ihr => exact ihl.append ht ihr

/-- The two grammars have the same expressions. -/
theorem isExpression_iff_derives :
    IsExpression tokens ↔ ∃ tree, Derives .expression tokens tree := by
  constructor
  · exact fun h => h.chained.derives
  · rintro ⟨tree, h⟩
    exact h.isExpression

end InfixCalculator.Grammar
