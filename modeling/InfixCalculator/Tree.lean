import InfixCalculator.Error
import InfixCalculator.Token.Basic

/-!
# Expression trees

The tree of an expression has literals at its leaves and operators at its inner nodes. It is built
from a postfix sequence with a stack of trees, in the way the sequence is evaluated, and listing its
tokens children first (`postorder`) gives the sequence back.

Leaves and nodes keep the text and the position of their tokens. The literal text of a tree is shown
fully parenthesised on one line (`inline`), or as an indented outline with a line for each node
(`outline`).
-/

namespace InfixCalculator

/-- An expression tree. -/
inductive Tree where
  /-- A literal. -/
  | leaf (text : String) (position : Int)
  /-- An operator with its operands. -/
  | node (op : Operator) (text : String) (position : Int) (left right : Tree)
  deriving DecidableEq, Repr

namespace Tree

/-- The tokens of a tree, children before their parent. -/
def postorder : Tree → List Token
  | leaf text position => [⟨.literal, text, position⟩]
  | node op text position left right =>
    left.postorder ++ right.postorder ++ [⟨.operator op, text, position⟩]

/-! ## Building -/

/-- Takes in one token. The stack has its top first. -/
def step (source : Option String) (stack : List Tree) (token : Token) :
    Except Failure (List Tree) :=
  match token.kind, stack with
  | .literal, stack => .ok (leaf token.text token.position :: stack)
  | .operator op, right :: left :: rest =>
    .ok (node op token.text token.position left right :: rest)
  | _, _ => .error (.atPosition (.malformed (.noTreeAt token.text)) token.position source)

/-- Takes in a list of tokens. -/
def run (source : Option String) : List Tree → List Token → Except Failure (List Tree)
  | stack, [] => .ok stack
  | stack, token :: rest =>
    match step source stack token with
    | .error failure => .error failure
    | .ok stack => run source stack rest

@[simp] theorem run_nil (source : Option String) (stack : List Tree) :
    run source stack [] = .ok stack := rfl

/-- Taking in a concatenation is taking in its parts in turn. -/
theorem run_append (source : Option String) (stack : List Tree) (s t : List Token) :
    run source stack (s ++ t) =
      match run source stack s with
      | .error failure => .error failure
      | .ok stack => run source stack t := by
  induction s generalizing stack with
  | nil => rfl
  | cons token s ih =>
    simp only [List.cons_append, run]
    cases step source stack token with
    | error failure => rfl
    | ok stack => exact ih stack

/-- The tree of a postfix sequence. -/
def ofPostorder (source : Option String) (tokens : List Token) : Except Failure Tree :=
  match run source [] tokens with
  | .error failure => .error failure
  | .ok [tree] => .ok tree
  | .ok _ => .error (.overall (.malformed .notOneTree) source)

/-! ## Size -/

/-- The number of leaves and nodes. -/
def size : Tree → Nat
  | leaf _ _ => 1
  | node _ _ _ left right => 1 + left.size + right.size

/-- The length of the longest path from the root to a leaf, counted in leaves and nodes. -/
def depth : Tree → Nat
  | leaf _ _ => 1
  | node _ _ _ left right => 1 + max left.depth right.depth

/-- A tree has as many leaves and nodes as tokens. -/
theorem length_postorder (t : Tree) : t.postorder.length = t.size := by
  induction t with
  | leaf => rfl
  | node op text position left right ihl ihr =>
    simp only [postorder, size, List.length_append, ihl, ihr, List.length_singleton]
    omega

/-! ## Display -/

/-- The tree on one line, every operation in parentheses. -/
def inline : Tree → String
  | leaf text _ => text
  | node _ text _ left right =>
    "(" ++ left.inline ++ " " ++ text ++ " " ++ right.inline ++ ")"

/-- Two spaces for every level; none for a level below zero. -/
def indentation (level : Int) : String :=
  String.ofList (List.replicate (2 * level.toNat) ' ')

/-- The tree as an outline: a line for each node, before the lines of its operands, which are one
level further in. -/
def outline (level : Int) : Tree → String
  | leaf text _ => indentation level ++ "Number: " ++ text
  | node _ text _ left right =>
    indentation level ++ "BinaryOp: " ++ text ++ "\n" ++ left.outline (level + 1) ++ "\n" ++
      right.outline (level + 1)

end Tree

end InfixCalculator
