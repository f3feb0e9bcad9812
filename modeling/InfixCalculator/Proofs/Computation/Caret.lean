import InfixCalculator.Proofs.Computation.Culprit

/-!
# Where the caret stands

The context of an error that has a position ends with the expression and, in a line of its own, a caret
(`ExpressionError.caretBelow_context`).  Both are moved to the right by two spaces, so the caret stands
under the character to blame if the expression is one line.  Of several lines only the first is moved,
and the caret stands below the last one, as far to the right as if the position were counted from the
beginning of that line (`caretUnder_of_compute`).
-/

namespace InfixCalculator

/-- The text ends with the line and, below it, a line in which there is only a caret, at the column. -/
def CaretBelow (text above : List Char) (column : ℕ) : Prop :=
  ∃ front, text.splitOn '\n' = front ++ [above, List.replicate column ' ' ++ ['^']]

/-- There is only a caret in the last line of the text, and it stands under the character. -/
def CaretUnder (text : List Char) (c : Char) : Prop :=
  ∃ above column, CaretBelow text above column ∧ above[column]? = some c

/-- The last of the lines of a text. -/
def lastLine (s : List Char) : List Char :=
  (s.splitOn '\n').getLast (List.splitOn_ne_nil '\n' s)

variable {s text above : List Char} {column : ℕ} {c : Char}

/-! ## Lines -/

lemma lastLine_eq_self (h : '\n' ∉ s) : lastLine s = s := by
  simp only [lastLine, List.splitOn_eq_singleton h, List.getLast_singleton]

lemma lastLine_append (s t : List Char) : lastLine (s ++ '\n' :: t) = lastLine t := by
  simp only [lastLine, List.splitOn_append_cons_self]
  exact List.getLast_append_of_ne_nil _ (List.splitOn_ne_nil '\n' t)

/-- What stands before a text that has several lines does not change the last of them. -/
lemma lastLine_append_of_mem (s : List Char) {t : List Char} (h : '\n' ∈ t) :
    lastLine (s ++ t) = lastLine t := by
  obtain ⟨before, after, rfl⟩ := List.append_of_mem h
  rw [← List.append_assoc, lastLine_append, lastLine_append]

/-- A caret in a line of its own stands below the last line of the text before it. -/
lemma caretBelow_append (s : List Char) (column : ℕ) :
    CaretBelow (s ++ '\n' :: (List.replicate column ' ' ++ ['^'])) (lastLine s) column := by
  have hcaret : '\n' ∉ List.replicate column ' ' ++ ['^'] := by simp [List.mem_replicate]
  refine ⟨(s.splitOn '\n').dropLast, ?_⟩
  rw [List.splitOn_append_cons_self, List.splitOn_eq_singleton hcaret]
  conv_lhs => rw [← List.dropLast_append_getLast (List.splitOn_ne_nil '\n' s)]
  exact List.append_assoc ..

/-- A text ends in one way only. -/
lemma CaretBelow.eq {above' : List Char} {column' : ℕ} (h : CaretBelow text above column)
    (h' : CaretBelow text above' column') : above' = above ∧ column' = column := by
  obtain ⟨front, hfront⟩ := h
  obtain ⟨front', hfront'⟩ := h'
  obtain ⟨-, hlines⟩ := List.append_inj' (hfront'.symm.trans hfront) rfl
  obtain ⟨habove, hcaret⟩ : above' = above ∧
      List.replicate column' ' ' ++ ['^'] = List.replicate column ' ' ++ ['^'] := by
    simpa using hlines
  exact ⟨habove, by simpa using congrArg List.length hcaret⟩

lemma CaretBelow.caretUnder_iff (h : CaretBelow text above column) :
    CaretUnder text c ↔ above[column]? = some c := by
  constructor
  · rintro ⟨above', column', hbelow, hc⟩
    obtain ⟨rfl, rfl⟩ := h.eq hbelow
    exact hc
  · exact fun hc => ⟨above, column, h, hc⟩

/-! ## Contexts -/

/-- A context ends with the expression and a caret, both indented. -/
lemma ExpressionError.caretBelow_context {e : ExpressionError} {expression : String} {k : ℕ}
    (he : e.expression = some expression) (hp : e.position = some (k : ℤ)) :
    CaretBelow e.context.toList (lastLine ("  ".toList ++ expression.toList)) (k + 2) := by
  have hcontext : e.context.toList = e.message.toList ++ '\n' :: ("  ".toList ++ expression.toList) ++
      '\n' :: (List.replicate (k + 2) ' ' ++ ['^']) := by
    rw [context, he, hp]
    simp [List.replicate_succ]
  rw [hcontext, ← lastLine_append e.message.toList]
  exact caretBelow_append _ _

/-- The error of a computation is about the expression, and blames what is wrong there. -/
lemma blames_of_outcome {limits : Limits} {expression : String} {c : Computation}
    {e : ExpressionError} (h : compute limits expression = .ok c) (he : c.outcome = .error e) :
    e.expression = some expression ∧ Blames expression.toList e.cause e.position := by
  rcases outcome_of_compute h with ⟨x, -, hvalue⟩ | ⟨found, hfound, hout⟩
  · exact absurd (he.symm.trans hvalue) (by simp)
  · obtain rfl : e = found.within expression := Except.error.inj (he.symm.trans hout)
    obtain ⟨hsource, hblames⟩ := blames_of_calculate hfound found rfl
    exact ⟨by rw [ExpressionError.within_expression, hsource], hblames⟩

/-- The position of an error is that of a character of the expression, and the context ends with a line
in which there is only a caret.  In an expression of one line, the caret stands under this character.  In
an expression of several lines it stands under the character that is two places further from the
beginning of the last line than the position is from the beginning of the expression, if there is one. -/
theorem caretUnder_of_compute {limits : Limits} {expression : String} {c : Computation}
    {e : ExpressionError} {p : ℤ} (h : compute limits expression = .ok c)
    (he : c.outcome = .error e) (hp : e.position = some p) :
    ∃ k : ℕ, p = k ∧ k < expression.length ∧
      CaretBelow e.context.toList (lastLine ("  ".toList ++ expression.toList)) (k + 2) ∧
      ('\n' ∉ expression.toList →
        ∃ char, expression.toList[k]? = some char ∧ CaretUnder e.context.toList char) ∧
      ('\n' ∈ expression.toList →
        ∀ char, CaretUnder e.context.toList char ↔
          (lastLine expression.toList)[k + 2]? = some char) := by
  obtain ⟨hexpression, hblames⟩ := blames_of_outcome h he
  obtain ⟨hnonneg, hlt⟩ := hblames.position_lt p hp
  obtain ⟨k, rfl⟩ := Int.eq_ofNat_of_zero_le hnonneg
  have hk : k < expression.toList.length := by exact_mod_cast hlt
  have hbelow := ExpressionError.caretBelow_context hexpression hp
  refine ⟨k, rfl, by rwa [← String.length_toList], hbelow, fun hone => ?_, fun hseveral char => ?_⟩
  · -- the line above the caret is the expression, two columns further in as the caret is
    refine ⟨expression.toList[k], List.getElem?_eq_getElem hk, hbelow.caretUnder_iff.2 ?_⟩
    rw [lastLine_eq_self (by simpa using hone)]
    exact List.getElem?_eq_getElem hk
  · -- the two spaces are in front of another line
    rw [hbelow.caretUnder_iff, lastLine_append_of_mem _ hseveral]

/-- The parenthesis is the sixth character, behind a tab and a carriage return. -/
theorem caretUnder_of_compute_sample :
    compute {} "1\t+\r2)" =
        .ok ⟨"1\t+\r2)", .error ⟨.unmatchedClose, some 5, some "1\t+\r2)"⟩⟩ ∧
      CaretUnder (ExpressionError.context ⟨.unmatchedClose, some 5, some "1\t+\r2)"⟩).toList ')' := by
  have hcompute : compute {} "1\t+\r2)" =
      .ok ⟨"1\t+\r2)", .error ⟨.unmatchedClose, some 5, some "1\t+\r2)"⟩⟩ := rfl
  obtain ⟨k, hk, -, -, hone, -⟩ := caretUnder_of_compute hcompute rfl rfl
  obtain rfl : k = 5 := by omega
  obtain ⟨char, hchar, hunder⟩ := hone (by decide)
  obtain rfl : ')' = char := Option.some.inj hchar
  exact ⟨hcompute, hunder⟩

/-- The expression has two lines.  The parenthesis is alone in the second one, and the caret stands four
columns to the right of it. -/
theorem not_forall_caretUnder :
    ¬ ∀ (limits : Limits) (expression : String) (c : Computation) (e : ExpressionError) (k : ℕ),
      compute limits expression = .ok c → c.outcome = .error e → e.position = some (k : ℤ) →
      ∃ char, expression.toList[k]? = some char ∧ CaretUnder e.context.toList char := by
  intro h
  have hcompute : compute {} "1\n)" =
      .ok ⟨"1\n)", .error ⟨.unmatchedClose, some 2, some "1\n)"⟩⟩ := rfl
  obtain ⟨char, -, hunder⟩ := h {} "1\n)" _ _ 2 hcompute rfl rfl
  have hbelow := ExpressionError.caretBelow_context (k := 2)
    (e := ⟨.unmatchedClose, some 2, some "1\n)"⟩) rfl rfl
  have hlast : lastLine ("  ".toList ++ "1\n)".toList) = [')'] := by decide
  rw [hbelow.caretUnder_iff, hlast] at hunder
  exact absurd hunder (by simp)

end InfixCalculator
