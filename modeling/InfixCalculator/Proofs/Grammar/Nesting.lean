import InfixCalculator.Token.Basic
import Mathlib.Tactic.Lemma

/-!
# How deep parentheses are nested

`depthAfter` counts the parentheses that are open after a token list, `nestingFrom` the parentheses
that are open at a time while it is read.  Both start from a number of parentheses that are open
already, so that a list can be cut into pieces (`depthAfter_append`, `nestingFrom_append`).
-/

namespace InfixCalculator.Token

/-- The number of open parentheses after a token of this kind. -/
def Kind.shift (kind : Kind) (depth : Nat) : Nat :=
  match kind with
  | openParen => depth + 1
  | closeParen => depth - 1
  | _ => depth

/-- The number of parentheses that are open after the tokens, if `depth` are open before. -/
def depthAfter (depth : Nat) : List Token → Nat
  | [] => depth
  | token :: rest => depthAfter (token.kind.shift depth) rest

/-- The largest number of parentheses that are open at a time while the tokens are read, if `depth`
are open before. -/
def nestingFrom (depth : Nat) : List Token → Nat
  | [] => depth
  | token :: rest => max depth (nestingFrom (token.kind.shift depth) rest)

/-- The deepest nesting of a token list. -/
def nesting (tokens : List Token) : Nat :=
  nestingFrom 0 tokens

@[simp] lemma depthAfter_nil (depth : Nat) : depthAfter depth [] = depth := rfl

@[simp] lemma depthAfter_cons (depth : Nat) (token : Token) (rest : List Token) :
    depthAfter depth (token :: rest) = depthAfter (token.kind.shift depth) rest := rfl

@[simp] lemma nestingFrom_nil (depth : Nat) : nestingFrom depth [] = depth := rfl

@[simp] lemma nestingFrom_cons (depth : Nat) (token : Token) (rest : List Token) :
    nestingFrom depth (token :: rest) = max depth (nestingFrom (token.kind.shift depth) rest) := rfl

/-- The parentheses that are open before the list count. -/
lemma le_nestingFrom (depth : Nat) (tokens : List Token) : depth ≤ nestingFrom depth tokens := by
  cases tokens with
  | nil => simp
  | cons token rest => exact Nat.le_max_left _ _

@[simp] lemma depthAfter_append (depth : Nat) (s t : List Token) :
    depthAfter depth (s ++ t) = depthAfter (depthAfter depth s) t := by
  induction s generalizing depth with
  | nil => rfl
  | cons token s ih => exact ih _

/-- The nesting of a concatenation is that of the deeper part. -/
lemma nestingFrom_append (depth : Nat) (s t : List Token) :
    nestingFrom depth (s ++ t) =
      max (nestingFrom depth s) (nestingFrom (depthAfter depth s) t) := by
  induction s generalizing depth with
  | nil =>
    have h := le_nestingFrom depth t
    simp only [List.nil_append, nestingFrom_nil, depthAfter_nil]
    omega
  | cons token s ih =>
    rw [List.cons_append, nestingFrom_cons, nestingFrom_cons, depthAfter_cons, ih, Nat.max_assoc]

end InfixCalculator.Token
