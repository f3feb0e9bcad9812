import InfixCalculator.Tree
import Mathlib.Tactic.Lemma

/-!
# How deep the functions on trees recur

The size, the depth and the two texts of a tree are computed by recursion on both operands of every node
(`Recursion`).  While a result is computed, the calls that are active belong to trees each of which is an
operand of the one before, so their number is the depth of the tree at most, and at the deepest leaf it is
the depth (`Recursion.resultWithin_eq`).
-/

namespace InfixCalculator.Tree

/-- A function on trees that calls itself for both operands of every node. -/
structure Recursion (γ α : Type) where
  /-- What it makes of the text of a leaf. -/
  leaf : γ → String → α
  /-- What it makes of the text of a node and the results of the two calls. -/
  node : γ → String → α → α → α
  /-- What it tells the calls for the operands. -/
  inner : γ → γ

namespace Recursion

variable {γ α : Type}

/-- The result for a tree. -/
def result (f : Recursion γ α) : γ → Tree → α
  | context, .leaf text _ => f.leaf context text
  | context, .node _ text _ left right =>
    f.node context text (f.result (f.inner context) left) (f.result (f.inner context) right)

/-- A function that does with leaves and nodes what the recursion does has the same results. -/
lemma result_eq (f : Recursion γ α) (g : γ → Tree → α)
    (hleaf : ∀ context text position, g context (.leaf text position) = f.leaf context text)
    (hnode : ∀ context op text position left right,
      g context (.node op text position left right) =
        f.node context text (g (f.inner context) left) (g (f.inner context) right))
    (context : γ) (t : Tree) : f.result context t = g context t := by
  induction t generalizing context with
  | leaf text position => exact (hleaf context text position).symm
  | node op text position left right ihl ihr => rw [result, ihl, ihr, hnode]

/-- The result for a tree, unless more than so many calls have to be active at a time. -/
def resultWithin (f : Recursion γ α) : Nat → γ → Tree → Option α
  | 0, _, _ => none
  | _ + 1, context, .leaf text _ => some (f.leaf context text)
  | calls + 1, context, .node _ text _ left right =>
    match f.resultWithin calls (f.inner context) left,
      f.resultWithin calls (f.inner context) right with
    | some l, some r => some (f.node context text l r)
    | _, _ => none

/-- There have to be as many calls as the tree is deep, and no more. -/
lemma resultWithin_eq (f : Recursion γ α) (calls : Nat) (context : γ) (t : Tree) :
    f.resultWithin calls context t =
      if t.depth ≤ calls then some (f.result context t) else none := by
  induction t generalizing calls context with
  | leaf text position =>
    cases calls with
    | zero => rfl
    | succ calls => simp [resultWithin, result, depth]
  | node op text position left right ihl ihr =>
    cases calls with
    | zero => simp [resultWithin, depth]
    | succ calls =>
      have hdepth : (Tree.node op text position left right).depth ≤ calls + 1 ↔
          left.depth ≤ calls ∧ right.depth ≤ calls := by
        simp only [depth]
        omega
      simp only [resultWithin, ihl, ihr, result, hdepth]
      by_cases hl : left.depth ≤ calls <;> by_cases hr : right.depth ≤ calls <;> simp [hl, hr]

/-! ## The functions on trees -/

/-- The recursion by which leaves and nodes are counted. -/
def ofSize : Recursion Unit Nat where
  leaf _ _ := 1
  node _ _ left right := 1 + left + right
  inner := id

/-- The recursion by which the depth is found. -/
def ofDepth : Recursion Unit Nat where
  leaf _ _ := 1
  node _ _ left right := 1 + max left right
  inner := id

/-- The recursion that writes a tree on one line. -/
def ofInline : Recursion Unit String where
  leaf _ text := text
  node _ text left right := "(" ++ left ++ " " ++ text ++ " " ++ right ++ ")"
  inner := id

/-- The recursion that writes a tree as an outline. -/
def ofOutline : Recursion Int String where
  leaf level text := indentation level ++ "Number: " ++ text
  node level text left right :=
    indentation level ++ "BinaryOp: " ++ text ++ "\n" ++ left ++ "\n" ++ right
  inner level := level + 1

lemma result_ofSize (t : Tree) : ofSize.result () t = t.size :=
  ofSize.result_eq (fun _ => size) (fun _ _ _ => rfl) (fun _ _ _ _ _ _ => rfl) () t

lemma result_ofDepth (t : Tree) : ofDepth.result () t = t.depth :=
  ofDepth.result_eq (fun _ => depth) (fun _ _ _ => rfl) (fun _ _ _ _ _ _ => rfl) () t

lemma result_ofInline (t : Tree) : ofInline.result () t = t.inline :=
  ofInline.result_eq (fun _ => inline) (fun _ _ _ => rfl) (fun _ _ _ _ _ _ => rfl) () t

lemma result_ofOutline (level : Int) (t : Tree) : ofOutline.result level t = t.outline level :=
  ofOutline.result_eq outline (fun _ _ _ => rfl) (fun _ _ _ _ _ _ => rfl) level t

end Recursion

/-- No more than so many calls of a function on trees are active at a time when its result for the tree is
computed, whichever of the functions it is. -/
structure RecursWithin (t : Tree) (calls : Nat) : Prop where
  size : Recursion.ofSize.resultWithin calls () t = some t.size
  depth : Recursion.ofDepth.resultWithin calls () t = some t.depth
  inline : Recursion.ofInline.resultWithin calls () t = some t.inline
  outline : ∀ level, Recursion.ofOutline.resultWithin calls level t = some (t.outline level)

lemma recursWithin_iff {t : Tree} {calls : Nat} : t.RecursWithin calls ↔ t.depth ≤ calls := by
  constructor
  · intro h
    refine Nat.not_lt.1 fun hdeep => ?_
    have hsize := h.size
    rw [Recursion.resultWithin_eq, if_neg (Nat.not_le.2 hdeep)] at hsize
    exact absurd hsize (by simp)
  · intro h
    constructor
    · rw [Recursion.resultWithin_eq, if_pos h, Recursion.result_ofSize]
    · rw [Recursion.resultWithin_eq, if_pos h, Recursion.result_ofDepth]
    · rw [Recursion.resultWithin_eq, if_pos h, Recursion.result_ofInline]
    · intro level
      rw [Recursion.resultWithin_eq, if_pos h, Recursion.result_ofOutline]

end InfixCalculator.Tree
