import InfixCalculator.Proofs.Evaluation.Agreement
import InfixCalculator.Proofs.Number.Exact

/-!
# Integer results are exact

The exact value of a tree is computed in the rational numbers (`Tree.rational?`).  If a sequence
evaluates to an integer, then all its literals are digits, all numbers of the run are integers, for a
double would have spoiled every later result (`ints_of_step`), and the integer is the exact value of
the tree.  If on the other hand all exact values in a tree are integers, its listing evaluates to the
exact value, unless a limit is exceeded.  The main statement is `evaluate_eq_exact`.
-/

namespace InfixCalculator

namespace Tree

/-- The exact value of a tree whose literals are digits. -/
def rational? : Tree → Option ℚ
  | leaf text _ =>
    if Number.isDigits text.toList then some (Number.decimalValue text.toList : ℚ) else none
  | node op _ _ left right =>
    left.rational?.bind fun x => right.rational?.bind fun y => op.rational? x y

/-- A tree and all trees within it. -/
def subtrees : Tree → List Tree
  | leaf text position => [leaf text position]
  | node op text position left right =>
    node op text position left right :: (left.subtrees ++ right.subtrees)

lemma mem_subtrees_self (t : Tree) : t ∈ t.subtrees := by
  cases t <;> simp [subtrees]

/-- The operands of a tree with an exact value have one. -/
lemma rational?_node_eq_some {op : Operator} {text : String} {position : Int} {left right : Tree}
    {x y : ℚ} (hx : left.rational? = some x) (hy : right.rational? = some y) :
    (node op text position left right).rational? = op.rational? x y := by
  simp [rational?, hx, hy]

/-- A tree whose value is an integer has that integer as its exact value. -/
lemma rational?_of_value {limits : Limits} {source : Option String} {t : Tree} {n : Int}
    (h : t.value limits source = .ok (.int n)) : t.rational? = some (n : ℚ) := by
  induction t generalizing n with
  | leaf text position =>
    obtain ⟨hd, -, hn⟩ := Number.literal?_eq_some_int_iff.1 (Rpn.literalValue_eq_ok h)
    rw [rational?, if_pos hd, hn, Int.cast_natCast]
  | node op text position left right ihl ihr =>
    rw [value] at h
    split at h
    · exact absurd h (by simp)
    · next x hx =>
        split at h
        · exact absurd h (by simp)
        · next y hy =>
            obtain ⟨a, b, rfl, rfl, hab⟩ :=
              Operator.apply_eq_ok_int_iff.1 (Rpn.combine_eq_ok h)
            rw [rational?_node_eq_some (ihl hx) (ihr hy), hab]

end Tree

namespace Rpn

variable {limits : Limits} {source treeSource : Option String}

/-! ## Integers all along -/

/-- All numbers on the stack are integers. -/
def Ints (stack : List Number) : Prop :=
  ∀ x ∈ stack, ∃ n : Int, x = .int n

/-- A step that leaves only integers has found only integers, and has read no other literal. -/
lemma ints_of_step {stack stack' : List Number} {token : Token}
    (h : step limits source stack token = .ok stack') (hi : Ints stack') :
    Ints stack ∧ (token.kind = .literal → Number.isDigits token.text.toList = true) := by
  obtain ⟨-, value, hvalue, rfl⟩ | ⟨op, left, right, rest, value, hk, rfl, hvalue, rfl⟩ :=
    step_eq_ok h
  · obtain ⟨n, rfl⟩ := hi value List.mem_cons_self
    obtain ⟨hd, -, -⟩ := Number.literal?_eq_some_int_iff.1 (literalValue_eq_ok hvalue)
    exact ⟨fun x hx => hi x (List.mem_cons_of_mem _ hx), fun _ => hd⟩
  -- an operand that is a double would have made the result one
  · obtain ⟨n, rfl⟩ := hi value List.mem_cons_self
    obtain ⟨a, b, rfl, rfl, -⟩ := Operator.apply_eq_ok_int_iff.1 (combine_eq_ok hvalue)
    have hrest : Ints rest := fun x hx => hi x (List.mem_cons_of_mem _ hx)
    refine ⟨List.forall_mem_cons.2 ⟨⟨b, rfl⟩, List.forall_mem_cons.2 ⟨⟨a, rfl⟩, hrest⟩⟩, ?_⟩
    exact fun hl => absurd hl (by simp [hk])

/-- A run that leaves only integers has started from integers, and has read no other literal. -/
lemma ints_of_run {tokens : List Token} {stack stack' : List Number}
    (h : run limits source stack tokens = .ok stack') (hi : Ints stack') :
    Ints stack ∧
      ∀ token ∈ tokens, token.kind = .literal → Number.isDigits token.text.toList = true := by
  induction tokens generalizing stack with
  | nil =>
    cases h
    exact ⟨hi, by simp⟩
  | cons token rest ih =>
    obtain ⟨next, hstep, hrun⟩ := run_cons_eq_ok_iff.1 h
    obtain ⟨hnext, hrest⟩ := ih hrun
    obtain ⟨hstack, htoken⟩ := ints_of_step hstep hnext
    exact ⟨hstack, List.forall_mem_cons.2 ⟨htoken, hrest⟩⟩

/-- While a run goes on to leave only integers, all numbers on the stack are integers. -/
lemma exists_ints_of_run_append {s t : List Token} {stack stack' : List Number}
    (h : run limits source stack (s ++ t) = .ok stack') (hi : Ints stack') :
    ∃ middle, run limits source stack s = .ok middle ∧ Ints middle := by
  rw [run_append] at h
  split at h
  · exact absurd h (by simp)
  · next middle hs => exact ⟨middle, hs, (ints_of_run h hi).1⟩

/-! ## Exact values are reached -/

/-- The outcome is the integer, or a limit is exceeded. -/
def Reaches (limits : Limits) (n : Int) (outcome : Except Failure Number) : Prop :=
  outcome = .ok (.int n) ∨ ∃ failure, outcome = .error failure ∧ limits.Exceeded failure

lemma reaches_checkInteger (n : Int) :
    Reaches limits n
      (match limits.checkInteger n with
      | .error failure => .error failure
      | .ok () => .ok (.int n)) := by
  rcases limits.check_eq_ok_or_exceeded .integerBits (Number.bitLength n) with h | ⟨failure, h, hex⟩
  · rw [Limits.checkInteger, h]
    exact Or.inl rfl
  · rw [Limits.checkInteger, h]
    exact Or.inr ⟨failure, rfl, hex⟩

/-- A literal of digits is the number that they denote. -/
lemma reaches_literalValue {token : Token} {n : Int}
    (h : Number.literal? token.text.toList = some (.int n)) :
    Reaches limits n (literalValue limits source token) := by
  rw [literalValue, h]
  exact reaches_checkInteger n

/-- An operator other than the power is carried out if its result is an integer. -/
lemma admissible_of_ne_pow {op : Operator} {a b n : Int} (hop : op ≠ .pow)
    (h : op.apply (.int a) (.int b) = .ok (.int n)) (position : Int) :
    admissible limits source op position (.int a) (.int b) = .ok () := by
  cases op with
  | add => rfl
  | sub => rfl
  | mul => rfl
  | div =>
    obtain ⟨hb, -⟩ := Number.intQuotient_eq_ok_int_iff.1 h
    simp [admissible, Number.isZero, hb]
  | pow => exact absurd rfl hop

/-- Before a power of integers that is an integer, its size is looked at. -/
lemma admissible_pow {a b : Int} (hb : 0 ≤ b) (position : Int) :
    admissible limits source .pow position (.int a) (.int b) = checkPower limits a b := by
  simp [admissible, Number.isNegative, hb]

/-- Where the exact result of an operator is an integer, only a limit stands in its way. -/
lemma admissible_of_rational? {op : Operator} {position : Int} {a b n : Int}
    (h : op.rational? a b = some (n : ℚ)) :
    admissible limits source op position (.int a) (.int b) = .ok () ∨
      ∃ failure, admissible limits source op position (.int a) (.int b) = .error failure ∧
        limits.Exceeded failure := by
  rw [Operator.rational?_eq_some_int_iff] at h
  by_cases hop : op = .pow
  · subst hop
    obtain ⟨hb, -⟩ := Number.pow_eq_ok_int_iff.1 h
    rw [admissible_pow hb]
    cases hcheck : checkPower limits a b with
    | ok u => exact Or.inl rfl
    | error failure => exact Or.inr ⟨failure, rfl, checkPower_eq_error hcheck⟩
  · exact Or.inl (admissible_of_ne_pow hop h position)

/-- The exact result of an operator is reached if it is an integer. -/
lemma reaches_combine {op : Operator} {position : Int} {a b n : Int}
    (h : op.rational? a b = some (n : ℚ)) :
    Reaches limits n (combine limits source op position (.int a) (.int b)) := by
  unfold combine
  rcases admissible_of_rational? h with hadm | ⟨failure, hadm, hex⟩
  · rw [hadm, Operator.rational?_eq_some_int_iff.1 h]
    exact reaches_checkInteger n
  · rw [hadm]
    exact Or.inr ⟨failure, rfl, hex⟩

/-- The exact value of a tree is reached if all exact values in it are integers. -/
lemma reaches_value {t : Tree}
    (hl : ∀ token ∈ t.postorder, token.kind = .literal →
      token.text.length ≤ Numeral.maxDigits)
    (ht : ∀ u ∈ t.subtrees, ∃ n : Int, u.rational? = some (n : ℚ)) :
    ∃ n : Int, t.rational? = some (n : ℚ) ∧ Reaches limits n (t.value limits source) := by
  induction t with
  | leaf text position =>
    obtain ⟨n, hn⟩ := ht _ (Tree.mem_subtrees_self _)
    refine ⟨n, hn, reaches_literalValue ?_⟩
    rw [Tree.rational?] at hn
    split_ifs at hn with hd
    have hlen : text.toList.length ≤ Numeral.maxDigits :=
      String.length_toList ▸ hl ⟨.literal, text, position⟩ (by simp [Tree.postorder]) rfl
    refine Number.literal?_eq_some_int_iff.2 ⟨hd, hlen, ?_⟩
    exact_mod_cast (Option.some.inj hn).symm
  | node op text position left right ihl ihr =>
    obtain ⟨a, ha, hva⟩ := ihl (fun token hm => hl token (by simp [Tree.postorder, hm]))
      (fun u hu => ht u (by simp [Tree.subtrees, hu]))
    obtain ⟨b, hb, hvb⟩ := ihr (fun token hm => hl token (by simp [Tree.postorder, hm]))
      (fun u hu => ht u (by simp [Tree.subtrees, hu]))
    obtain ⟨n, hn⟩ := ht _ (Tree.mem_subtrees_self _)
    refine ⟨n, hn, ?_⟩
    rw [Tree.rational?_node_eq_some ha hb] at hn
    rw [Tree.value]
    -- the left operand is evaluated first, so its failure hides what becomes of the right one
    rcases hva with hva | ⟨failure, hva, hex⟩
    · rcases hvb with hvb | ⟨failure, hvb, hex⟩
      · rw [hva, hvb]
        exact reaches_combine hn
      · rw [hva, hvb]
        exact Or.inr ⟨failure, rfl, hex⟩
    · rw [hva]
      exact Or.inr ⟨failure, rfl, hex⟩

/-- If a postfix sequence evaluates to an integer, its literals are digits, all numbers of the run
are integers, and the integer is the exact value of its tree.  If the literals of a sequence are
digits that are not too long, and all exact values in its tree are integers, then the sequence
evaluates to the exact value of the tree, unless a limit is exceeded. -/
theorem evaluate_eq_exact (limits : Limits) (source treeSource : Option String)
    (tokens : List Token) :
    (∀ n : Int, evaluate limits source tokens = .ok (.int n) →
        (∀ token ∈ tokens, token.kind = .literal →
          Number.isDigits token.text.toList = true) ∧
        (∀ s t, tokens = s ++ t → ∃ stack, run limits source [] s = .ok stack ∧
          ∀ x ∈ stack, ∃ k : Int, x = .int k) ∧
        ∃ t, Tree.ofPostorder treeSource tokens = .ok t ∧ t.rational? = some (n : ℚ)) ∧
      ∀ t, Tree.ofPostorder treeSource tokens = .ok t →
        (∀ token ∈ tokens, token.kind = .literal →
          Number.isDigits token.text.toList = true ∧ token.text.length ≤ Numeral.maxDigits) →
        (∀ u ∈ t.subtrees, ∃ n : Int, u.rational? = some (n : ℚ)) →
        ∃ n : Int, t.rational? = some (n : ℚ) ∧
          (evaluate limits source tokens = .ok (.int n) ∨
            ∃ failure, evaluate limits source tokens = .error failure ∧
              limits.Exceeded failure) := by
  refine ⟨?_, ?_⟩
  · intro n h
    have hrun := run_of_evaluate h
    have hi : Ints [.int n] := by simp [Ints]
    refine ⟨(ints_of_run hrun hi).2, ?_, ?_⟩
    · rintro s t rfl
      exact exists_ints_of_run_append hrun hi
    · obtain ⟨t, ht⟩ : ∃ t, Tree.ofPostorder treeSource tokens = .ok t :=
        exists_tree_of_evaluate h
      rw [Tree.ofPostorder_eq_ok_iff.1 ht, evaluate_postorder] at h
      exact ⟨t, ht, Tree.rational?_of_value h⟩
  · intro t ht hl hu
    rw [Tree.ofPostorder_eq_ok_iff.1 ht] at hl ⊢
    rw [evaluate_postorder]
    exact reaches_value (fun token hm hk => (hl token hm hk).2) hu

/-- The tree of `1-2^3`. -/
def exactTree : Tree :=
  .node .sub "-" 1 (.leaf "1" 0) (.node .pow "^" 3 (.leaf "2" 2) (.leaf "3" 4))

lemma exists_int_of_mem_subtrees_exactTree :
    ∀ u ∈ exactTree.subtrees, ∃ n : Int, u.rational? = some (n : ℚ) := by
  have hvalue : ∀ u ∈ exactTree.subtrees, ∃ n : Int, u.value {} none = .ok (.int n) := by
    simp only [exactTree, Tree.subtrees, List.forall_mem_cons, List.cons_append, List.nil_append]
    exact ⟨⟨-7, rfl⟩, ⟨1, rfl⟩, ⟨8, rfl⟩, ⟨2, rfl⟩, ⟨3, rfl⟩, by simp⟩
  intro u hu
  obtain ⟨n, hn⟩ := hvalue u hu
  exact ⟨n, Tree.rational?_of_value hn⟩

/-- At `1-2^3`, in both directions. -/
theorem evaluate_eq_exact_sample :
    (∃ t, Tree.ofPostorder none exactTree.postorder = .ok t ∧
      t.rational? = some ((-7 : Int) : ℚ)) ∧
    ∃ n : Int, exactTree.rational? = some (n : ℚ) ∧
      (evaluate {} none exactTree.postorder = .ok (.int n) ∨
        ∃ failure, evaluate {} none exactTree.postorder = .error failure ∧
          Limits.Exceeded {} failure) :=
  ⟨((evaluate_eq_exact {} none none exactTree.postorder).1 (-7) rfl).2.2,
    (evaluate_eq_exact {} none none exactTree.postorder).2 exactTree rfl (by decide)
      exists_int_of_mem_subtrees_exactTree⟩

end Rpn

end InfixCalculator
