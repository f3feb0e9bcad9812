import InfixCalculator.Proofs.Evaluation.Step
import InfixCalculator.Proofs.Tree.Building

/-!
# The value of a tree and the value of its listing

A tree has a value of its own, by recursion (`Tree.value`).  Evaluating a postfix sequence gives the
value of the tree that is built from it, with the same errors, because the listing of a tree, run on
top of any stack, pushes the value of the tree or stops with its error (`run_postorder_append`).

Both stack machines read a sequence in lockstep: while neither fails, their stacks are of one length.
So a sequence from which no tree is built has no value either, and an evaluation that finds a defect
of the sequence itself (`Cause.isStructural`) finds it where the building of the tree fails.  The
main statement is `evaluate_eq_value`.
-/

namespace InfixCalculator

/-- The value of a tree: the left operand comes before the right one, both before the operator, and
the first error ends the evaluation. -/
def Tree.value (limits : Limits) (source : Option String) : Tree → Except Failure Number
  | leaf text position => Rpn.literalValue limits source ⟨.literal, text, position⟩
  | node op _ position left right =>
    match left.value limits source with
    | .error failure => .error failure
    | .ok x =>
      match right.value limits source with
      | .error failure => .error failure
      | .ok y => Rpn.combine limits source op position x y

/-- Whether a defect is one of the sequence, and not of the numbers in it. -/
def Defect.isStructural : Defect → Bool
  | unexpectedToken _ => true
  | missingOperand _ => true
  | noValue => true
  | leftOver _ => true
  | _ => false

/-- Whether a cause is a defect of the sequence. -/
def Cause.isStructural : Cause → Bool
  | malformed defect => defect.isStructural
  | _ => false

namespace Rpn

variable {limits : Limits} {source treeSource : Option String}

/-! ## The listing of a tree -/

/-- Running the listing of a tree pushes its value, whatever stands before and after. -/
lemma run_postorder_append (t : Tree) (stack : List Number) (rest : List Token) :
    run limits source stack (t.postorder ++ rest) =
      match t.value limits source with
      | .error failure => .error failure
      | .ok value => run limits source (value :: stack) rest := by
  -- the operands are listed before the operator, so each of them needs its own stack and rest
  induction t generalizing stack rest with
  | leaf text position =>
    rw [Tree.postorder, List.singleton_append, run_cons, step_literal rfl, Tree.value]
    cases literalValue limits source ⟨.literal, text, position⟩ <;> rfl
  | node op text position left right ihl ihr =>
    rw [Tree.postorder, List.append_assoc, List.append_assoc, ihl, Tree.value]
    cases left.value limits source with
    | error failure => rfl
    | ok x =>
      simp only
      rw [ihr]
      cases right.value limits source with
      | error failure => rfl
      | ok y =>
        simp only [List.singleton_append]
        rw [run_cons, step_operator rfl]
        cases combine limits source op position x y <;> rfl

/-- The listing of a tree evaluates to the value of the tree. -/
lemma evaluate_postorder (t : Tree) :
    evaluate limits source t.postorder = t.value limits source := by
  have h : run limits source [] (t.postorder ++ []) = _ := run_postorder_append t [] []
  rw [List.append_nil] at h
  rw [evaluate, h]
  cases t.value limits source <;> rfl

/-! ## Two machines in lockstep -/

/-- A step of the evaluation is a step of the building of trees. -/
lemma treeStep_of_step {stack stack' : List Number} {trees : List Tree} {token : Token}
    (hlen : stack.length = trees.length) (h : step limits source stack token = .ok stack') :
    ∃ trees', Tree.step treeSource trees token = .ok trees' ∧ stack'.length = trees'.length := by
  obtain ⟨hk, value, -, rfl⟩ | ⟨op, left, right, rest, value, hk, rfl, -, rfl⟩ := step_eq_ok h
  · exact ⟨.leaf token.text token.position :: trees, by simp only [Tree.step, hk], by simp [hlen]⟩
  · obtain ⟨u, tail, rfl⟩ := List.exists_cons_of_length_eq_add_one hlen.symm
    obtain ⟨t, trees', rfl⟩ := List.exists_cons_of_length_eq_add_one (Nat.succ.inj hlen).symm
    exact ⟨.node op token.text token.position t u :: trees', by simp only [Tree.step, hk],
      by simpa using hlen⟩

/-- While the evaluation goes on, so does the building of trees. -/
lemma treeRun_of_run {tokens : List Token} {stack stack' : List Number} {trees : List Tree}
    (hlen : stack.length = trees.length) (h : run limits source stack tokens = .ok stack') :
    ∃ trees', Tree.run treeSource trees tokens = .ok trees' ∧ stack'.length = trees'.length := by
  induction tokens generalizing stack trees with
  | nil =>
    cases h
    exact ⟨trees, rfl, hlen⟩
  | cons token rest ih =>
    obtain ⟨next, hstep, hrun⟩ := run_cons_eq_ok_iff.1 h
    obtain ⟨trees', htree, hlen'⟩ := treeStep_of_step hlen hstep
    obtain ⟨trees'', htrees, hlen''⟩ := ih hlen' hrun
    exact ⟨trees'', Tree.run_cons_eq_ok_iff.2 ⟨trees', htree, htrees⟩, hlen''⟩

/-! ## Defects of the sequence -/

/-- A limit that is exceeded is no defect of the sequence. -/
lemma not_structural_of_exceeded {e : ExpressionError} (h : limits.Exceeded (.error e)) :
    e.cause.isStructural = false := by
  obtain ⟨limit, actual, -, he⟩ := h
  unfold Failure.beyond at he
  split at he
  · cases he
    rfl
  · exact absurd he (by simp)

/-- A literal that is refused is no defect of the sequence. -/
lemma not_structural_of_literalValue {token : Token} {e : ExpressionError}
    (h : literalValue limits source token = .error (.error e)) : e.cause.isStructural = false := by
  rcases literalValue_eq_error h with he | he
  · cases he
    rfl
  · exact not_structural_of_exceeded he

/-- An operation that fails is no defect of the sequence. -/
lemma not_structural_of_combine {op : Operator} {position : Int} {left right : Number}
    {e : ExpressionError} (h : combine limits source op position left right = .error (.error e)) :
    e.cause.isStructural = false := by
  rcases combine_eq_error h with ⟨fault, he⟩ | he
  · cases he
    cases fault <;> rfl
  · exact not_structural_of_exceeded he

/-- Where the evaluation finds a defect of the sequence, no tree can be built. -/
lemma treeStep_of_structural {stack : List Number} {trees : List Tree} {token : Token}
    {e : ExpressionError} (hlen : stack.length = trees.length)
    (h : step limits source stack token = .error (.error e)) (he : e.cause.isStructural = true) :
    ∃ e', Tree.step treeSource trees token = .error (.error e') ∧ e'.position = e.position := by
  cases hk : token.kind with
  -- a literal fails for its text or for a limit only
  | literal =>
    rw [step_literal hk] at h
    split at h
    · next hvalue =>
        cases h
        rw [not_structural_of_literalValue hvalue] at he
        exact absurd he (by simp)
    · exact absurd h (by simp)
  -- the stacks are of one length, so the operator is short of operands on both of them
  | operator op =>
    by_cases hs : stack.length < 2
    · rw [step_operator_of_short hk hs] at h
      cases h
      exact ⟨_, Tree.step_operator_of_short hk (hlen ▸ hs), rfl⟩
    · match stack, hs with
      | [_], hs => exact absurd (by simp) hs
      | right :: left :: rest, _ =>
        rw [step_operator hk] at h
        split at h
        · next hcombine =>
            cases h
            rw [not_structural_of_combine hcombine] at he
            exact absurd he (by simp)
        · exact absurd h (by simp)
  | openParen =>
    rw [step_parenthesis (Or.inl hk)] at h
    cases h
    exact ⟨_, Tree.step_parenthesis (Or.inl hk) trees, rfl⟩
  | closeParen =>
    rw [step_parenthesis (Or.inr hk)] at h
    cases h
    exact ⟨_, Tree.step_parenthesis (Or.inr hk) trees, rfl⟩

/-- The first defect of the sequence is where the building of trees ends. -/
lemma treeRun_of_structural {tokens : List Token} {stack : List Number} {trees : List Tree}
    {e : ExpressionError} (hlen : stack.length = trees.length)
    (h : run limits source stack tokens = .error (.error e)) (he : e.cause.isStructural = true) :
    ∃ e', Tree.run treeSource trees tokens = .error (.error e') ∧ e'.position = e.position := by
  induction tokens generalizing stack trees with
  | nil => exact absurd h (by simp)
  | cons token rest ih =>
    rw [run_cons] at h
    split at h
    · next hstep =>
        cases h
        obtain ⟨e', htree, hpos⟩ := treeStep_of_structural hlen hstep he
        exact ⟨e', by rw [Tree.run_cons, htree], hpos⟩
    · next next hstep =>
        obtain ⟨trees', htree, hlen'⟩ := treeStep_of_step hlen hstep
        obtain ⟨e', hrun, hpos⟩ := ih hlen' h
        exact ⟨e', by rw [Tree.run_cons, htree]; exact hrun, hpos⟩

/-! ## Sequences as a whole -/

/-- A sequence that has a value is the listing of a tree. -/
lemma exists_tree_of_evaluate {tokens : List Token} {value : Number}
    (h : evaluate limits source tokens = .ok value) :
    ∃ t, Tree.ofPostorder treeSource tokens = .ok t := by
  obtain ⟨trees, htree, hlen⟩ : ∃ trees, Tree.run treeSource [] tokens = .ok trees ∧
      [value].length = trees.length := treeRun_of_run rfl (run_of_evaluate h)
  match trees, hlen with
  | [t], _ => exact ⟨t, by rw [Tree.ofPostorder, htree]⟩

/-- A defect of the sequence, found at a token or at the end, is found there by the building of trees
as well. -/
lemma ofPostorder_of_structural {tokens : List Token} {e : ExpressionError}
    (h : evaluate limits source tokens = .error (.error e)) (he : e.cause.isStructural = true) :
    ∃ e', Tree.ofPostorder treeSource tokens = .error (.error e') ∧ e'.position = e.position := by
  unfold evaluate at h
  split at h
  · next hrun =>
      cases h
      obtain ⟨e', htree, hpos⟩ : ∃ e', Tree.run treeSource [] tokens = .error (.error e') ∧
          e'.position = e.position := treeRun_of_structural rfl hrun he
      exact ⟨e', by rw [Tree.ofPostorder, htree], hpos⟩
  · next stack hrun =>
      obtain ⟨trees, htree, hlen⟩ : ∃ trees, Tree.run treeSource [] tokens = .ok trees ∧
          stack.length = trees.length := treeRun_of_run rfl hrun
      obtain ⟨hone, hpos⟩ := result_eq_error h
      exact ⟨_, Tree.ofPostorder_of_length_ne_one htree (hlen ▸ hone), hpos.symm⟩

/-- Evaluating a postfix sequence and evaluating the tree that is built from it agree, on the value
and on the error.  A sequence from which no tree is built has no value, and if the evaluation blames
the sequence itself, the building of the tree fails at the same position. -/
theorem evaluate_eq_value (limits : Limits) (source treeSource : Option String)
    (tokens : List Token) :
    (∀ t, Tree.ofPostorder treeSource tokens = .ok t →
        evaluate limits source tokens = t.value limits source) ∧
      (∀ failure, Tree.ofPostorder treeSource tokens = .error failure →
        ∃ failure', evaluate limits source tokens = .error failure') ∧
      ∀ e, evaluate limits source tokens = .error (.error e) → e.cause.isStructural = true →
        ∃ e', Tree.ofPostorder treeSource tokens = .error (.error e') ∧
          e'.position = e.position := by
  refine ⟨?_, ?_, fun e => ofPostorder_of_structural⟩
  · intro t ht
    rw [Tree.ofPostorder_eq_ok_iff.1 ht]
    exact evaluate_postorder t
  · intro failure ht
    cases hv : evaluate limits source tokens with
    | error failure' => exact ⟨failure', rfl⟩
    | ok value =>
      obtain ⟨t, ht'⟩ : ∃ t, Tree.ofPostorder treeSource tokens = .ok t :=
        exists_tree_of_evaluate hv
      rw [ht] at ht'
      exact absurd ht' (by simp)

/-- The tree of `5/0+x`, in which the division is the first fault. -/
def faultyTree : Tree :=
  .node .add "+" 3 (.node .div "/" 1 (.leaf "5" 0) (.leaf "0" 2)) (.leaf "x" 4)

/-- At the listing of a tree, at a literal too many and at an operator too many. -/
theorem evaluate_eq_value_sample :
    (evaluate {} none faultyTree.postorder = faultyTree.value {} none ∧
      faultyTree.value {} none = .error (.atPosition .divisionByZero 1 none)) ∧
    (∃ failure, evaluate {} none [⟨.literal, "1", 0⟩, ⟨.literal, "2", 2⟩] = .error failure) ∧
    ∃ e, Tree.ofPostorder none [⟨.literal, "1", 0⟩, ⟨.operator .add, "+", 2⟩] =
      .error (.error e) ∧ e.position = some 2 :=
  ⟨⟨(evaluate_eq_value {} none none _).1 faultyTree rfl, rfl⟩,
    (evaluate_eq_value {} none none _).2.1 (.overall (.malformed .notOneTree) none) rfl,
    (evaluate_eq_value {} none none _).2.2 ⟨.malformed (.missingOperand "+"), some 2, none⟩
      rfl rfl⟩

end Rpn

end InfixCalculator
