import InfixCalculator.Proofs.Grammar.Recognition
import InfixCalculator.Proofs.Tree.Building

/-!
# Which sequences list a tree

The stack from which a tree is built is as high as the literals that have been read outnumber the
operators (`length_of_run`).  So counting tells where the building fails: at the first token that is a
parenthesis, or an operator before which the literals do not outnumber the operators by two
(`Token.FirstMisplaced`), or else in the end, unless one tree is left.  Building and listing are
inverse to each other, and trees whose operators are written as symbols belong to sequences whose
operators are (`ofPostorder_inverse`).
-/

namespace InfixCalculator

namespace Token

/-- How many literals there are more than operators. -/
def surplus (tokens : List Token) : Int :=
  tokens.countP isLiteral - tokens.countP isOperator

/-- Whether a token cannot be taken up after others: it is a parenthesis, or an operator that finds
fewer than two literals more than operators. -/
def Misplaced (before : List Token) (token : Token) : Prop :=
  token.kind = .openParen ∨ token.kind = .closeParen ∨ token.isOperator = true ∧ surplus before < 2

instance (before : List Token) (token : Token) : Decidable (Misplaced before token) :=
  inferInstanceAs (Decidable (_ ∨ _ ∨ _ ∧ _))

/-- No token is misplaced after those before it. -/
def Placed (tokens : List Token) : Prop :=
  ∀ before token after, tokens = before ++ token :: after → ¬Misplaced before token

/-- The first of the tokens that are misplaced. -/
def FirstMisplaced (tokens : List Token) (token : Token) : Prop :=
  ∃ before after, tokens = before ++ token :: after ∧ Misplaced before token ∧ Placed before

/-- An operator is written as its symbol. -/
def ShowsSymbol (token : Token) : Prop :=
  ∀ op, token.kind = .operator op → token.text = String.singleton op.symbol

open Grammar

variable {token : Token} {tokens before rest : List Token}

/-! ## Counting -/

@[simp] lemma surplus_nil : surplus [] = 0 := rfl

lemma surplus_append (s t : List Token) : surplus (s ++ t) = surplus s + surplus t := by
  simp only [surplus, List.countP_append]
  omega

lemma surplus_literal (h : token.kind = .literal) : surplus [token] = 1 := by
  obtain ⟨hliteral, hoperator⟩ := countP_literal_cons h []
  simp [surplus, hliteral, hoperator]

lemma surplus_operator {op : Operator} (h : token.kind = .operator op) : surplus [token] = -1 := by
  obtain ⟨hliteral, hoperator⟩ := countP_operator_cons h []
  simp [surplus, hliteral, hoperator]

lemma isOperator_of_kind {op : Operator} (h : token.kind = .operator op) :
    token.isOperator = true := by
  simp [isOperator, Kind.isOperator, Kind.operator?, h]

lemma placed_nil : Placed [] := by
  intro before token after h
  exact absurd h (by simp)

/-- A token after others that are placed is placed, or it is the first that is not. -/
lemma Placed.concat (h : Placed before) (hm : ¬Misplaced before token) :
    Placed (before ++ [token]) := by
  intro first next after heq
  rcases List.eq_nil_or_concat after with rfl | ⟨after', last, rfl⟩
  · obtain ⟨rfl, hlast⟩ := List.append_inj' heq rfl
    obtain rfl : token = next := by simpa using hlast
    exact hm
  · have heq' : before ++ [token] = first ++ next :: after' ++ [last] := by simpa using heq
    exact h first next after' (List.append_inj' heq' rfl).1

/-- Either all tokens are placed or there is a first one that is not. -/
lemma placed_or_exists_firstMisplaced (tokens : List Token) :
    Placed tokens ∨ ∃ token, FirstMisplaced tokens token := by
  induction tokens using List.reverseRecOn with
  | nil => exact .inl placed_nil
  | append_singleton before token ih =>
    rcases ih with hplaced | ⟨first, read, after, rfl, hm, hplaced⟩
    · by_cases hm : Misplaced before token
      · exact .inr ⟨token, before, [], rfl, hm, hplaced⟩
      · exact .inl (hplaced.concat hm)
    · exact .inr ⟨first, read, after ++ [token], by simp, hm, hplaced⟩

end Token

namespace Tree

open Token

variable {source : Option String} {token : Token} {tokens before : List Token}
  {stack stack' : List Tree}

/-! ## The height of the stack -/

lemma length_of_step (h : step source stack token = .ok stack') :
    (stack'.length : Int) = stack.length + surplus [token] := by
  rcases step_eq_ok h with ⟨hk, rfl⟩ | ⟨op, right, left, rest, hk, rfl, rfl⟩
  · rw [surplus_literal hk, List.length_cons]
    omega
  · rw [surplus_operator hk]
    simp only [List.length_cons]
    omega

/-- The stack grows with the literals and shrinks with the operators. -/
lemma length_of_run (h : run source stack tokens = .ok stack') :
    (stack'.length : Int) = stack.length + surplus tokens := by
  induction tokens generalizing stack with
  | nil =>
    cases h
    simp
  | cons token rest ih =>
    obtain ⟨next, hstep, hrun⟩ := run_cons_eq_ok_iff.1 h
    rw [← List.singleton_append, surplus_append, ih hrun, length_of_step hstep, Int.add_assoc]

/-- A misplaced token cannot be taken up. -/
lemma step_of_misplaced (hlen : (stack.length : Int) = surplus before)
    (h : Misplaced before token) :
    step source stack token =
      .error (.atPosition (.malformed (.noTreeAt token.text)) token.position source) := by
  rcases h with hk | hk | ⟨hop, hfew⟩
  · exact step_parenthesis (.inl hk) stack
  · exact step_parenthesis (.inr hk) stack
  · cases hk : token.kind with
    | operator op => exact step_operator_of_short hk (by omega)
    | literal => exact absurd hop (by simp [isOperator, Kind.isOperator, Kind.operator?, hk])
    | openParen => exact step_parenthesis (.inl hk) stack
    | closeParen => exact step_parenthesis (.inr hk) stack

/-- Any other token is taken up. -/
lemma exists_step_of_not_misplaced (hlen : (stack.length : Int) = surplus before)
    (h : ¬Misplaced before token) : ∃ stack', step source stack token = .ok stack' := by
  cases hk : token.kind with
  | literal => exact ⟨leaf token.text token.position :: stack, by simp only [step, hk]⟩
  | operator op =>
    have hmany : 2 ≤ surplus before :=
      Int.not_lt.1 fun hfew => h (.inr (.inr ⟨isOperator_of_kind hk, hfew⟩))
    rw [← hlen] at hmany
    rcases stack with _ | ⟨right, _ | ⟨left, rest⟩⟩
    · exact absurd hmany (by simp)
    · exact absurd hmany (by simp)
    · exact ⟨node op token.text token.position left right :: rest, by simp only [step, hk]⟩
  | openParen => exact absurd (.inl hk) h
  | closeParen => exact absurd (.inr (.inl hk)) h

/-- Tokens that are placed are all taken up. -/
lemma exists_run_of_placed (h : Placed tokens) : ∃ stack, run source [] tokens = .ok stack := by
  induction tokens using List.reverseRecOn with
  | nil => exact ⟨[], rfl⟩
  | append_singleton before token ih =>
    have hbefore : Placed before := fun first next after heq =>
      h first next (after ++ [token]) (by simp [heq])
    obtain ⟨stack, hrun⟩ := ih hbefore
    have hlen : (stack.length : Int) = 0 + surplus before := length_of_run hrun
    rw [Int.zero_add] at hlen
    obtain ⟨stack', hstep⟩ : ∃ stack', step source stack token = .ok stack' :=
      exists_step_of_not_misplaced hlen (h before token [] rfl)
    refine ⟨stack', ?_⟩
    rw [run_append, hrun]
    simp only [run_cons, hstep, run_nil]

lemma ofPostorder_of_firstMisplaced (h : FirstMisplaced tokens token) :
    ofPostorder source tokens =
      .error (.atPosition (.malformed (.noTreeAt token.text)) token.position source) := by
  obtain ⟨before, after, rfl, hm, hplaced⟩ := h
  obtain ⟨stack, hrun⟩ : ∃ stack, run source [] before = .ok stack := exists_run_of_placed hplaced
  have hlen : (stack.length : Int) = 0 + surplus before := length_of_run hrun
  rw [Int.zero_add] at hlen
  rw [ofPostorder, run_append, hrun]
  simp only [run_cons, step_of_misplaced hlen hm]

/-- Tokens that are placed list one tree if there is one literal more than there are operators, and
otherwise none. -/
lemma ofPostorder_of_placed (h : Placed tokens) :
    (surplus tokens = 1 → ∃ t, ofPostorder source tokens = .ok t) ∧
      (surplus tokens ≠ 1 →
        ofPostorder source tokens = .error (.overall (.malformed .notOneTree) source)) := by
  obtain ⟨stack, hrun⟩ : ∃ stack, run source [] tokens = .ok stack := exists_run_of_placed h
  have hlen : (stack.length : Int) = 0 + surplus tokens := length_of_run hrun
  refine ⟨fun hone => ?_, fun hne => ofPostorder_of_length_ne_one hrun (by omega)⟩
  obtain ⟨t, rfl⟩ : ∃ t, stack = [t] := List.length_eq_one_iff.1 (by omega)
  exact ⟨t, by rw [ofPostorder, hrun]⟩

/-! ## Symbols -/

/-- The operators of a tree are written as their symbols. -/
def Symbolic : Tree → Prop
  | leaf _ _ => True
  | node op text _ left right =>
    text = String.singleton op.symbol ∧ left.Symbolic ∧ right.Symbolic

lemma symbolic_iff (t : Tree) : t.Symbolic ↔ ∀ token ∈ t.postorder, token.ShowsSymbol := by
  induction t with
  | leaf text position => simp [Symbolic, postorder, ShowsSymbol]
  | node op text position left right ihl ihr =>
    have hroot : (⟨.operator op, text, position⟩ : Token).ShowsSymbol ↔
        text = String.singleton op.symbol := by
      simp [ShowsSymbol]
    simp only [Symbolic, postorder, List.forall_mem_append, List.forall_mem_singleton, ihl, ihr,
      hroot]
    constructor
    · rintro ⟨h, hl, hr⟩
      exact ⟨⟨hl, hr⟩, h⟩
    · rintro ⟨⟨hl, hr⟩, h⟩
      exact ⟨h, hl, hr⟩

/-- Building a tree undoes the listing of a tree, and listing undoes building; the operators of the one
are written as symbols if those of the other are.  The building fails at the first misplaced token, if
there is one; otherwise it fails without a position exactly if the literals are not one more than the
operators. -/
theorem ofPostorder_inverse (source : Option String) :
    (∀ t : Tree, ofPostorder source t.postorder = .ok t) ∧
      ∀ tokens : List Token,
        (∀ t, ofPostorder source tokens = .ok t →
          t.postorder = tokens ∧ (t.Symbolic ↔ ∀ token ∈ tokens, token.ShowsSymbol)) ∧
        (∀ token, FirstMisplaced tokens token → ofPostorder source tokens =
          .error (.atPosition (.malformed (.noTreeAt token.text)) token.position source)) ∧
        ((¬∃ token, FirstMisplaced tokens token) →
          (ofPostorder source tokens = .error (.overall (.malformed .notOneTree) source) ↔
            surplus tokens ≠ 1) ∧
          ((∃ t, ofPostorder source tokens = .ok t) ↔ surplus tokens = 1)) := by
  refine ⟨ofPostorder_postorder, fun tokens => ⟨fun t ht => ?_, fun token => ?_, fun hnone => ?_⟩⟩
  · obtain rfl := ofPostorder_eq_ok_iff.1 ht
    exact ⟨rfl, t.symbolic_iff⟩
  · exact ofPostorder_of_firstMisplaced
  · have hplaced := (placed_or_exists_firstMisplaced tokens).resolve_right hnone
    obtain ⟨hone, hne⟩ : _ ∧ (surplus tokens ≠ 1 → ofPostorder source tokens = _) :=
      ofPostorder_of_placed hplaced
    by_cases hcount : surplus tokens = 1
    · obtain ⟨t, ht⟩ : ∃ t, ofPostorder source tokens = .ok t := hone hcount
      simp [ht, hcount]
    · simp [hne hcount, hcount]

/-- At the tree of `2-3`, at a sequence in which an operator comes too early, and at one that is two
trees. -/
theorem ofPostorder_inverse_sample :
    ofPostorder none [⟨.literal, "2", 0⟩, ⟨.literal, "3", 2⟩, ⟨.operator .sub, "-", 1⟩] =
        .ok (.node .sub "-" 1 (.leaf "2" 0) (.leaf "3" 2)) ∧
      ofPostorder none [⟨.literal, "2", 0⟩, ⟨.operator .sub, "-", 1⟩, ⟨.closeParen, ")", 2⟩] =
        .error (.atPosition (.malformed (.noTreeAt "-")) 1 none) ∧
      ofPostorder none [⟨.literal, "2", 0⟩, ⟨.literal, "3", 2⟩] =
        .error (.overall (.malformed .notOneTree) none) := by
  have hone : Placed [⟨.literal, "2", 0⟩] := placed_nil.concat (by decide)
  have htwo : Placed [⟨.literal, "2", 0⟩, ⟨.literal, "3", 2⟩] := hone.concat (by decide)
  obtain ⟨hbuild, hfail⟩ := ofPostorder_inverse none
  refine ⟨hbuild (.node .sub "-" 1 (.leaf "2" 0) (.leaf "3" 2)), ?_, ?_⟩
  · exact (hfail _).2.1 ⟨.operator .sub, "-", 1⟩
      ⟨[⟨.literal, "2", 0⟩], [⟨.closeParen, ")", 2⟩], rfl, by decide, hone⟩
  · have hnone : ¬∃ token, FirstMisplaced [⟨.literal, "2", 0⟩, ⟨.literal, "3", 2⟩] token :=
      fun ⟨token, before, after, heq, hm, _⟩ => htwo before token after heq hm
    exact ((hfail _).2.2 hnone).1.2 (by decide)

end Tree

end InfixCalculator
