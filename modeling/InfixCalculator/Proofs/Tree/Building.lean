import InfixCalculator.Tree
import Mathlib.Tactic.Lemma

/-!
# Listing a tree and building it again

The stack from which a tree is built holds, at every step, the trees whose listings make up the
tokens that have been read (`listing_of_run`).  So a postfix sequence from which a tree is built is
the listing of that tree (`ofPostorder_eq_ok_iff`).
-/

namespace InfixCalculator.Tree

variable {source : Option String}

@[simp] lemma run_cons (stack : List Tree) (token : Token) (rest : List Token) :
    run source stack (token :: rest) =
      match step source stack token with
      | .error failure => .error failure
      | .ok stack => run source stack rest := rfl

lemma run_cons_eq_ok_iff {stack stack' : List Tree} {token : Token} {rest : List Token} :
    run source stack (token :: rest) = .ok stack' ↔
      ∃ next, step source stack token = .ok next ∧ run source next rest = .ok stack' := by
  rw [run_cons]
  cases step source stack token with
  | error failure => simp
  | ok next => simp

/-- An operator does not find two trees on a short stack. -/
lemma step_operator_of_short {op : Operator} {token : Token} (h : token.kind = .operator op)
    {stack : List Tree} (hs : stack.length < 2) :
    step source stack token =
      .error (.atPosition (.malformed (.noTreeAt token.text)) token.position source) := by
  match stack, hs with
  | [], _ => simp only [step, h]
  | [_], _ => simp only [step, h]

/-- A parenthesis has no place in a postfix sequence. -/
lemma step_parenthesis {token : Token} (h : token.kind = .openParen ∨ token.kind = .closeParen)
    (stack : List Tree) :
    step source stack token =
      .error (.atPosition (.malformed (.noTreeAt token.text)) token.position source) := by
  rcases h with h | h <;> simp only [step, h]

/-- Anything but one tree at the end is no expression. -/
lemma ofPostorder_of_length_ne_one {tokens : List Token} {stack : List Tree}
    (h : run source [] tokens = .ok stack) (hlen : stack.length ≠ 1) :
    ofPostorder source tokens = .error (.overall (.malformed .notOneTree) source) := by
  rw [ofPostorder, h]
  match stack, hlen with
  | [], _ => rfl
  | _ :: _ :: _, _ => rfl

/-! ## From the tree to the tokens -/

/-- Reading the listing of a tree puts the tree on the stack, whatever stands before and after. -/
lemma run_postorder_append (t : Tree) (stack : List Tree) (rest : List Token) :
    run source stack (t.postorder ++ rest) = run source (t :: stack) rest := by
  induction t generalizing stack rest with
  | leaf text position => rfl
  | node op text position left right ihl ihr =>
    rw [postorder, List.append_assoc, List.append_assoc, ihl, ihr]
    rfl

/-- The tree built from the listing of a tree is that tree. -/
lemma ofPostorder_postorder (t : Tree) : ofPostorder source t.postorder = .ok t := by
  have h : run source [] (t.postorder ++ []) = run source [t] [] := run_postorder_append t [] []
  rw [List.append_nil, run_nil] at h
  rw [ofPostorder, h]

/-! ## From the tokens to the tree -/

/-- What a step can do: push a leaf, or join the two trees on top. -/
lemma step_eq_ok {stack stack' : List Tree} {token : Token}
    (h : step source stack token = .ok stack') :
    (token.kind = .literal ∧ stack' = leaf token.text token.position :: stack) ∨
      ∃ op right left rest, token.kind = .operator op ∧ stack = right :: left :: rest ∧
        stack' = node op token.text token.position left right :: rest := by
  unfold step at h
  split at h
  · next hk => exact Or.inl ⟨hk, (Except.ok.inj h).symm⟩
  · next op right left rest hk =>
      exact Or.inr ⟨op, right, left, rest, hk, rfl, (Except.ok.inj h).symm⟩
  · exact absurd h (by simp)

/-- The listings of the trees on a stack, the bottom first. -/
def listing (stack : List Tree) : List Token :=
  stack.reverse.flatMap postorder

@[simp] lemma listing_cons (t : Tree) (stack : List Tree) :
    listing (t :: stack) = listing stack ++ t.postorder := by
  simp [listing]

/-- A token is appended to what the stack lists. -/
lemma listing_of_step {stack stack' : List Tree} {token : Token}
    (h : step source stack token = .ok stack') : listing stack' = listing stack ++ [token] := by
  rcases step_eq_ok h with ⟨hk, rfl⟩ | ⟨op, right, left, rest, hk, rfl, rfl⟩
  · rw [listing_cons, postorder, ← hk]
  · rw [listing_cons, listing_cons, listing_cons, postorder, ← hk]
    simp only [List.append_assoc]

/-- The tokens that have been read are appended to what the stack lists. -/
lemma listing_of_run {stack stack' : List Tree} {tokens : List Token}
    (h : run source stack tokens = .ok stack') : listing stack' = listing stack ++ tokens := by
  induction tokens generalizing stack with
  | nil =>
    cases h
    simp
  | cons token rest ih =>
    obtain ⟨next, hstep, hrun⟩ := run_cons_eq_ok_iff.1 h
    rw [ih hrun, listing_of_step hstep, List.append_assoc, List.singleton_append]

/-- A tree is built from its listing, and from no other sequence. -/
lemma ofPostorder_eq_ok_iff {tokens : List Token} {t : Tree} :
    ofPostorder source tokens = .ok t ↔ tokens = t.postorder := by
  constructor
  · intro h
    unfold ofPostorder at h
    split at h
    · exact absurd h (by simp)
    · next tree hrun =>
        cases h
        simpa using (listing_of_run hrun).symm
    · exact absurd h (by simp)
  · rintro rfl
    exact ofPostorder_postorder t

end InfixCalculator.Tree
