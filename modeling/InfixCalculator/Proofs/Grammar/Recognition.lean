import InfixCalculator.Token.Basic
import Mathlib.Data.List.Chain
import Mathlib.Tactic.Lemma

/-!
# Recognising infix expressions

`IsExpression` is the infix grammar without precedences, `E ::= LITERAL | ( E ) | E op E`.  It is
decided from left to right by an automaton that remembers whether an operand has just ended and how
many parentheses are open (`isExpression_iff_completes`).

A token list whose parentheses match may fail to be an expression because an operand is missing or
because two operands stand side by side.  The numbers of literals and operators tell the first from
the second (`isExpression_iff_separated`).
-/

namespace InfixCalculator

namespace Token

/-- Whether the token is a literal. -/
def isLiteral (token : Token) : Bool :=
  token.kind = .literal

/-- Whether the token is an operator. -/
def isOperator (token : Token) : Bool :=
  token.kind.isOperator

/-- Whether an operand ends with the token. -/
def endsOperand (token : Token) : Bool :=
  token.kind = .literal || token.kind = .closeParen

/-- Whether an operand starts with the token. -/
def startsOperand (token : Token) : Bool :=
  token.kind = .literal || token.kind = .openParen

/-- Whether the tokens close all parentheses that they open and `depth` more, and no others. -/
def closes : Nat → List Token → Bool
  | depth, [] => depth == 0
  | depth, token :: rest =>
    match token.kind with
    | .openParen => closes (depth + 1) rest
    | .closeParen => depth != 0 && closes (depth - 1) rest
    | _ => closes depth rest

/-- No two operands stand side by side. -/
def Separated (tokens : List Token) : Prop :=
  tokens.IsChain fun a b => ¬(a.endsOperand = true ∧ b.startsOperand = true)

end Token

namespace Grammar

open Token

/-- The token list is an infix expression: every operator stands between its operands. -/
inductive IsExpression : List Token → Prop
  /-- A literal is an expression. -/
  | literal {token : Token} (h : token.kind = .literal) : IsExpression [token]
  /-- An expression in parentheses is an expression. -/
  | group {opening closing : Token} {tokens : List Token} (ho : opening.kind = .openParen)
      (hc : closing.kind = .closeParen) (h : IsExpression tokens) :
      IsExpression (opening :: (tokens ++ [closing]))
  /-- Two expressions with an operator between them are an expression. -/
  | binary {token : Token} {op : Operator} {left right : List Token}
      (ht : token.kind = .operator op) (hl : IsExpression left) (hr : IsExpression right) :
      IsExpression (left ++ token :: right)

/-- Whether the tokens complete an expression of which `depth` parentheses are still open, if an
operand has just ended (`operand`) or is still to come. -/
def completes : Bool → Nat → List Token → Bool
  | operand, depth, [] => operand && depth == 0
  | operand, depth, token :: rest =>
    match token.kind with
    | .literal => !operand && completes true depth rest
    | .openParen => !operand && completes false (depth + 1) rest
    | .operator _ => operand && completes false depth rest
    | .closeParen => operand && depth != 0 && completes true (depth - 1) rest

variable {operand : Bool} {depth : Nat} {token : Token} {rest tokens : List Token}

lemma completes_literal (h : token.kind = .literal) :
    completes operand depth (token :: rest) = (!operand && completes true depth rest) := by
  simp only [completes, h]

lemma completes_open (h : token.kind = .openParen) :
    completes operand depth (token :: rest) =
      (!operand && completes false (depth + 1) rest) := by
  simp only [completes, h]

lemma completes_operator {op : Operator} (h : token.kind = .operator op) :
    completes operand depth (token :: rest) = (operand && completes false depth rest) := by
  simp only [completes, h]

lemma completes_close (h : token.kind = .closeParen) :
    completes operand depth (token :: rest) =
      (operand && depth != 0 && completes true (depth - 1) rest) := by
  simp only [completes, h]

/-! ## Expressions are recognised -/

/-- After an expression an operand has ended. -/
lemma IsExpression.completes_append (h : IsExpression tokens) (depth : Nat) (rest : List Token) :
    completes false depth (tokens ++ rest) = completes true depth rest := by
  induction h generalizing depth rest with
  | literal h =>
    rw [List.singleton_append, completes_literal h]
    rfl
  | group ho hc _ ih =>
    rw [List.cons_append, List.append_assoc, completes_open ho, ih, List.singleton_append,
      completes_close hc]
    simp
  | binary ht _ _ ihl ihr =>
    rw [List.append_assoc, List.cons_append, ihl, completes_operator ht, ihr]
    rfl

/-! ## What is recognised is an expression -/

/-- What has been read of an expression that is still to be completed: for every open parenthesis the
tokens before it at its own level, the innermost first. -/
abbrev Context := List (List Token × Token)

/-- The whole list, when the given tokens stand in a context. -/
def plug : Context → List Token → List Token
  | [], tokens => tokens
  | (before, opening) :: context, tokens => plug context (before ++ opening :: tokens)

/-- Tokens that an operand makes an expression. -/
def Awaits (before : List Token) : Prop :=
  ∀ tokens, IsExpression tokens → IsExpression (before ++ tokens)

/-- A context in which every parenthesis is one, and stands where an operand is awaited. -/
def Sound (context : Context) : Prop :=
  ∀ entry ∈ context, Awaits entry.1 ∧ entry.2.kind = .openParen

lemma awaits_nil : Awaits [] := fun _ h => h

lemma awaits_operator {op : Operator} (ht : token.kind = .operator op) (h : IsExpression tokens) :
    Awaits (tokens ++ [token]) := by
  intro right hr
  rw [List.append_assoc]
  exact .binary ht h hr

/-- What is recognised completes an expression, whether an operand is awaited or has just ended. -/
lemma isExpression_of_completes (rest : List Token) (context : Context) (hs : Sound context) :
    (∀ before, Awaits before → completes false context.length rest = true →
        IsExpression (plug context (before ++ rest))) ∧
      ∀ tokens, IsExpression tokens → completes true context.length rest = true →
        IsExpression (plug context (tokens ++ rest)) := by
  induction rest generalizing context with
  | nil =>
    refine ⟨fun _ _ h => absurd h (by simp [completes]), fun tokens ht h => ?_⟩
    match context, h with
    | [], _ => simpa [plug] using ht
  | cons token rest ih =>
    cases hk : token.kind with
    | literal =>
      refine ⟨fun before hb h => ?_, fun tokens ht h => ?_⟩
      · rw [completes_literal hk] at h
        have hrest := (ih context hs).2 (before ++ [token]) (hb _ (.literal hk)) (by simpa using h)
        simpa using hrest
      · rw [completes_literal hk] at h
        exact absurd h (by simp)
    | openParen =>
      refine ⟨fun before hb h => ?_, fun tokens ht h => ?_⟩
      · rw [completes_open hk] at h
        have hs' : Sound ((before, token) :: context) := List.forall_mem_cons.2 ⟨⟨hb, hk⟩, hs⟩
        exact (ih _ hs').1 [] awaits_nil (by simpa using h)
      · rw [completes_open hk] at h
        exact absurd h (by simp)
    | operator op =>
      refine ⟨fun before hb h => ?_, fun tokens ht h => ?_⟩
      · rw [completes_operator hk] at h
        exact absurd h (by simp)
      · rw [completes_operator hk] at h
        have hrest := (ih context hs).1 _ (awaits_operator hk ht) (by simpa using h)
        simpa using hrest
    | closeParen =>
      refine ⟨fun before hb h => ?_, fun tokens ht h => ?_⟩
      · rw [completes_close hk] at h
        exact absurd h (by simp)
      · rw [completes_close hk] at h
        match context, hs, h with
        -- the group that is closed is the operand which the innermost context awaits
        | (before, opening) :: context, hs, h =>
          obtain ⟨⟨hb, ho⟩, hs'⟩ := List.forall_mem_cons.1 hs
          have hrest := (ih context hs').2 _ (hb _ (.group ho hk ht)) (by simpa using h)
          simpa [plug] using hrest

/-- The automaton recognises exactly the expressions. -/
lemma isExpression_iff_completes : IsExpression tokens ↔ completes false 0 tokens = true := by
  constructor
  · intro h
    have hend := h.completes_append 0 []
    rw [List.append_nil] at hend
    rw [hend]
    rfl
  · intro h
    exact (isExpression_of_completes tokens [] (by simp [Sound])).1 [] awaits_nil h

instance : Decidable (IsExpression tokens) :=
  decidable_of_iff _ isExpression_iff_completes.symm

/-! ## Operands side by side -/

/-- What is recognised has no two operands side by side, and no operand directly after the one that
has just ended. -/
lemma separated_of_completes (h : completes operand depth tokens = true) :
    Separated tokens ∧ (operand = true → ∀ token ∈ tokens.head?, token.startsOperand = false) := by
  induction tokens generalizing operand depth with
  | nil => simp [Separated]
  | cons token rest ih =>
    cases hk : token.kind with
    | literal =>
      rw [completes_literal hk, Bool.and_eq_true] at h
      obtain ⟨hrest, hhead⟩ := ih h.2
      refine ⟨List.isChain_cons.2 ⟨fun y hy hab => ?_, hrest⟩, fun ho => ?_⟩
      · exact absurd hab.2 (by simp [hhead rfl y hy])
      · exact absurd h.1 (by simp [ho])
    | openParen =>
      rw [completes_open hk, Bool.and_eq_true] at h
      obtain ⟨hrest, -⟩ := ih h.2
      refine ⟨List.isChain_cons.2 ⟨fun y hy hab => ?_, hrest⟩, fun ho => ?_⟩
      · exact absurd hab.1 (by simp [endsOperand, hk])
      · exact absurd h.1 (by simp [ho])
    | operator op =>
      rw [completes_operator hk, Bool.and_eq_true] at h
      obtain ⟨hrest, -⟩ := ih h.2
      refine ⟨List.isChain_cons.2 ⟨fun y hy hab => ?_, hrest⟩, fun _ => ?_⟩
      · exact absurd hab.1 (by simp [endsOperand, hk])
      · simp [startsOperand, hk]
    | closeParen =>
      rw [completes_close hk, Bool.and_eq_true] at h
      obtain ⟨hrest, hhead⟩ := ih h.2
      refine ⟨List.isChain_cons.2 ⟨fun y hy hab => ?_, hrest⟩, fun _ => ?_⟩
      · exact absurd hab.2 (by simp [hhead rfl y hy])
      · simp [startsOperand, hk]

lemma countP_literal_cons (h : token.kind = .literal) (rest : List Token) :
    (token :: rest).countP isLiteral = rest.countP isLiteral + 1 ∧
      (token :: rest).countP isOperator = rest.countP isOperator := by
  simp [isLiteral, isOperator, Kind.isOperator, Kind.operator?, h]

lemma countP_operator_cons {op : Operator} (h : token.kind = .operator op) (rest : List Token) :
    (token :: rest).countP isLiteral = rest.countP isLiteral ∧
      (token :: rest).countP isOperator = rest.countP isOperator + 1 := by
  simp [isLiteral, isOperator, Kind.isOperator, Kind.operator?, h]

lemma countP_parenthesis_cons (h : token.kind = .openParen ∨ token.kind = .closeParen)
    (rest : List Token) :
    (token :: rest).countP isLiteral = rest.countP isLiteral ∧
      (token :: rest).countP isOperator = rest.countP isOperator := by
  obtain h | h := h <;> simp [isLiteral, isOperator, Kind.isOperator, Kind.operator?, h]

/-- The operands, with the one that may just have ended, are at most one more than the operators.  If
they are one more, none is missing anywhere, and nothing but the parentheses can be wrong. -/
structure Tallied (operand : Bool) (depth : Nat) (tokens : List Token) : Prop where
  le : tokens.countP isLiteral + operand.toNat ≤ tokens.countP isOperator + 1
  recognised : tokens.countP isLiteral + operand.toNat = tokens.countP isOperator + 1 →
    closes depth tokens = true → completes operand depth tokens = true

lemma tallied_nil (operand : Bool) (depth : Nat) : Tallied operand depth [] := by
  constructor <;> cases operand <;> simp [completes, closes]

/-- A literal is the operand that is awaited. -/
lemma Tallied.literal (hk : token.kind = .literal) (h : Tallied true depth rest) :
    Tallied false depth (token :: rest) := by
  obtain ⟨hliteral, hoperator⟩ := countP_literal_cons hk rest
  have hle : rest.countP isLiteral + 1 ≤ rest.countP isOperator + 1 := h.le
  constructor
  · rwa [hliteral, hoperator]
  · rw [hliteral, hoperator, completes_literal hk, closes, hk]
    intro hcount hcloses
    rw [h.recognised hcount hcloses]
    rfl

/-- The operand that is awaited starts behind the parenthesis. -/
lemma Tallied.opening (hk : token.kind = .openParen) (h : Tallied false (depth + 1) rest) :
    Tallied false depth (token :: rest) := by
  obtain ⟨hliteral, hoperator⟩ := countP_parenthesis_cons (.inl hk) rest
  constructor
  · rw [hliteral, hoperator]
    exact h.le
  · rw [hliteral, hoperator, completes_open hk, closes, hk]
    intro hcount hcloses
    rw [h.recognised hcount hcloses]
    rfl

/-- An operator awaits its right operand.  If its left operand is missing, the operands stay short. -/
lemma Tallied.operator {op : Operator} (hk : token.kind = .operator op)
    (h : Tallied false depth rest) : Tallied operand depth (token :: rest) := by
  obtain ⟨hliteral, hoperator⟩ := countP_operator_cons hk rest
  have hle : rest.countP isLiteral ≤ rest.countP isOperator + 1 := h.le
  have hone := operand.toNat_le
  constructor
  · omega
  · rw [hliteral, hoperator, completes_operator hk, closes, hk]
    intro hcount hcloses
    cases operand with
    | true => exact h.recognised (by simpa using hcount) hcloses
    | false =>
      rw [Bool.toNat_false] at hcount
      omega

/-- A parenthesis is closed behind an operand.  If there is none, the operands stay short. -/
lemma Tallied.closing (hk : token.kind = .closeParen) (h : Tallied true (depth - 1) rest) :
    Tallied operand depth (token :: rest) := by
  obtain ⟨hliteral, hoperator⟩ := countP_parenthesis_cons (.inr hk) rest
  have hle : rest.countP isLiteral + 1 ≤ rest.countP isOperator + 1 := h.le
  have hone := operand.toNat_le
  constructor
  · omega
  · rw [hliteral, hoperator, completes_close hk, closes, hk]
    intro hcount hcloses
    cases operand with
    | true =>
      rw [Bool.and_eq_true] at hcloses
      rw [h.recognised hcount hcloses.2, hcloses.1]
      rfl
    | false =>
      rw [Bool.toNat_false] at hcount
      omega

/-- Where no two operands stand side by side, every operand but the first has an operator before it. -/
lemma tallied_of_separated (hs : Separated tokens)
    (hhead : operand = true → ∀ token ∈ tokens.head?, token.startsOperand = false) :
    Tallied operand depth tokens := by
  induction tokens generalizing operand depth with
  | nil => exact tallied_nil operand depth
  | cons token rest ih =>
    obtain ⟨hnext, hrest⟩ := List.isChain_cons.1 hs
    have hstart (hstarts : token.startsOperand = true) : operand = false := by
      by_contra hoperand
      have hnot := hhead (by simpa using hoperand) token rfl
      exact absurd (hstarts.symm.trans hnot) (by simp)
    have hend (hends : token.endsOperand = true) : ∀ t ∈ rest.head?, t.startsOperand = false := by
      intro t ht
      simpa [hends] using hnext t ht
    cases hk : token.kind with
    | literal =>
      obtain rfl := hstart (by simp [startsOperand, hk])
      exact .literal hk (ih hrest fun _ => hend (by simp [endsOperand, hk]))
    | openParen =>
      obtain rfl := hstart (by simp [startsOperand, hk])
      exact .opening hk (ih hrest (by simp))
    | operator op => exact .operator hk (ih hrest (by simp))
    | closeParen => exact .closing hk (ih hrest fun _ => hend (by simp [endsOperand, hk]))

/-- With the parentheses matching and one operand more than operators, a list is an expression as
soon as no two operands stand side by side. -/
lemma isExpression_iff_separated (hcloses : closes 0 tokens = true)
    (hcount : tokens.countP isLiteral = tokens.countP isOperator + 1) :
    IsExpression tokens ↔ Separated tokens := by
  rw [isExpression_iff_completes]
  constructor
  · intro h
    exact (separated_of_completes h).1
  · intro hs
    have htallied : Tallied false 0 tokens := tallied_of_separated hs (by simp)
    exact htallied.recognised hcount hcloses

end Grammar

end InfixCalculator
