import InfixCalculator.Proofs.Computation.Relocation
import InfixCalculator.Proofs.Computation.Shown
import InfixCalculator.Proofs.Conversion.Group
import InfixCalculator.Proofs.Token.Unplaced

/-!
# Replacing a group by its value

A group may be replaced by the text of its value, if the value is an integer that is not negative.  The
text is read back as that integer; in the postfix order the integer stands where the tokens of the
group stood; and evaluating those pushes the integer.  What comes before and after the group is read
alike, so the value is the same, or the error (`Segments.value_replace`).

The two expressions are not equally long, and do not have equally many tokens or groups.  Their
outcomes may differ where one of them exceeds a limit on these (`Computation.EndsAtSize`), and
nowhere else (`compute_replace_group`).
-/

namespace InfixCalculator

open Token Numeral

variable {limits : Limits} {failure : Failure} {text : String}

/-! ## Limits on the size of expressions -/

/-- The limits on an expression as a text, and not on the numbers in it. -/
def Limit.ofSize : List Limit :=
  [.expressionLength, .tokenCount, .nestingDepth]

/-- The failure reports that an expression is too long, has too many tokens or is nested too deeply. -/
def Limits.SizeExceeded (limits : Limits) (failure : Failure) : Prop :=
  ∃ limit ∈ Limit.ofSize, ∃ actual, limits.check limit actual = .error failure

/-- The computation ends with an error which says that the expression is too long, has too many tokens
or is nested too deeply. -/
def Computation.EndsAtSize (c : Computation) : Prop :=
  ∃ e limit bound actual, c.outcome = .error e ∧ limit ∈ Limit.ofSize ∧
    e.cause = .limitExceeded limit.name bound actual

/-- The errors of limits name them. -/
lemma cause_of_sizeExceeded {e : ExpressionError} (h : limits.SizeExceeded (.error e)) :
    ∃ limit bound actual, limit ∈ Limit.ofSize ∧ e.cause = .limitExceeded limit.name bound actual := by
  obtain ⟨limit, hlimit, actual, hcheck⟩ := h
  unfold Limits.check Failure.beyond at hcheck
  split at hcheck
  · split at hcheck
    · cases hcheck
      exact ⟨limit, _, _, hlimit, rfl⟩
    · exact absurd hcheck (by simp)
  · exact absurd hcheck (by simp)

/-! ## A group and its value -/

namespace Rpn

/-- A sequence that has a value pushes it, whatever stands before and after. -/
lemma run_append_of_evaluate {source : Option String} {rpn : List Token} {value : Number}
    (h : evaluate limits source rpn = .ok value) (stack : List Number) (rest : List Token) :
    run limits source stack (rpn ++ rest) = run limits source (value :: stack) rest := by
  obtain ⟨t, ht⟩ : ∃ t, Tree.ofPostorder none rpn = .ok t := exists_tree_of_evaluate h
  obtain rfl : rpn = t.postorder := Tree.ofPostorder_eq_ok_iff.1 ht
  rw [evaluate_postorder] at h
  rw [run_postorder_append, h]

/-- A sequence that has a value may stand for a literal with this value. -/
lemma evaluate_replace {source : Option String} {rpn : List Token} {operand : Token}
    {value : Number} (hl : operand.kind = .literal)
    (hvalue : literalValue limits source operand = .ok value)
    (h : evaluate limits source rpn = .ok value) (first last : List Token) :
    evaluate limits source (first ++ rpn ++ last) =
      evaluate limits source (first ++ operand :: last) := by
  rw [evaluate, evaluate, List.append_assoc, run_append, run_append]
  cases run limits source [] first with
  | error failure => rfl
  | ok stack =>
    simp only
    rw [run_append_of_evaluate h, run_cons, step_literal hl, hvalue]

/-- A group that has a value may stand for a literal with this value, unless it is nested too deeply. -/
lemma infixValue_replace {source : Option String} {opening closing operand : Token}
    {tokens rpn : List Token} {value : Number} (ho : opening.kind = .openParen)
    (hc : closing.kind = .closeParen) (hl : operand.kind = .literal)
    (hrpn : ofInfix limits source tokens = .ok rpn)
    (hrun : evaluate limits source rpn = .ok value)
    (hvalue : literalValue limits source operand = .ok value) (before after : List Token) :
    infixValue limits source (before ++ opening :: (tokens ++ closing :: after)) =
        infixValue limits source (before ++ operand :: after) ∨
      ∃ failure, infixValue limits source (before ++ opening :: (tokens ++ closing :: after)) =
        .error failure ∧ limits.SizeExceeded failure := by
  rw [infixValue, infixValue]
  rcases ofInfix_group ho hc hl hrpn before after with ⟨failure, hgroup, depth, hdeep⟩ |
    ⟨failure, hgroup, hoperand⟩ | ⟨first, last, hgroup, hoperand⟩
  · exact .inr ⟨failure, by rw [hgroup], _, by simp [Limit.ofSize], depth, hdeep⟩
  · exact .inl (by rw [hgroup, hoperand])
  · refine .inl ?_
    rw [hgroup, hoperand]
    exact evaluate_replace hl hvalue hrun first last

end Rpn

lemma sizeExceeded_tooMany (limits : Limits) : limits.SizeExceeded (tooMany limits) :=
  ⟨.tokenCount, by simp [Limit.ofSize], _, check_tooMany limits⟩

/-- In a text a group that has a value may stand for a literal with this value, unless there are too
many tokens or groups. -/
lemma Token.Segments.value_replace {opening closing operand : Token} {tokens rpn : List Token}
    {value : Number} (ho : opening.kind = .openParen) (hc : closing.kind = .closeParen)
    (hl : operand.kind = .literal) (hrpn : Rpn.ofInfix limits (some text) tokens = .ok rpn)
    (hrun : Rpn.evaluate limits (some text) rpn = .ok value)
    (hvalue : Rpn.literalValue limits (some text) operand = .ok value) (before after : Segments) :
    (before.andThen (after.prepend (opening :: (tokens ++ [closing])))).value limits text =
        (before.andThen (after.prepend [operand])).value limits text ∨
      (∃ failure, (before.andThen (after.prepend (opening :: (tokens ++ [closing])))).value limits
          text = .error failure ∧ limits.SizeExceeded failure) ∨
      ∃ failure, (before.andThen (after.prepend [operand])).value limits text = .error failure ∧
        limits.SizeExceeded failure := by
  obtain ⟨first, stop⟩ := before
  obtain ⟨last, stop'⟩ := after
  cases stop with
  | some stop => exact .inl rfl
  | none =>
    have hsplit : opening :: (tokens ++ [closing]) ++ last =
        opening :: (tokens ++ closing :: last) := by simp
    simp only [Segments.andThen, Segments.prepend, hsplit, List.singleton_append]
    rw [Segments.value_mk, Segments.value_mk]
    by_cases hgroup : limits.tokenCount.toNat <
        (first ++ opening :: (tokens ++ closing :: last)).length
    · exact .inr (.inl ⟨tooMany limits, if_pos hgroup, sizeExceeded_tooMany limits⟩)
    · by_cases hoperand : limits.tokenCount.toNat < (first ++ operand :: last).length
      · exact .inr (.inr ⟨tooMany limits, if_pos hoperand, sizeExceeded_tooMany limits⟩)
      · rw [if_neg hgroup, if_neg hoperand]
        cases stop' with
        | some stop => exact .inl rfl
        | none => exact (Rpn.infixValue_replace ho hc hl hrpn hrun hvalue first last).imp_right .inl

/-! ## Expressions -/

/-- The value of an expression or its failure, with all positions forgotten. -/
def unplacedValue (limits : Limits) (text : String) : Except Failure Number :=
  (calculate limits text).mapError (Failure.relocate (fun _ => 0) "")

/-- It is the value of its tokens without their positions, unless the expression is too long. -/
lemma unplacedValue_eq {c : Char} (hmem : c ∈ text.toList) (hc : Text.isSeparator c = false) :
    unplacedValue limits text = (Segments.unplaced text.toList).value limits "" ∨
      ∃ failure, unplacedValue limits text = .error failure ∧ limits.SizeExceeded failure := by
  have hblank : isBlank text = false := by
    rw [isBlank, List.all_eq_false]
    exact ⟨c, hmem, by simp [hc]⟩
  rw [unplacedValue, calculate_eq_value hblank]
  cases hcheck : limits.checkLength text with
  | error failure =>
    refine .inr ⟨failure, ?_, .expressionLength, by simp [Limit.ofSize], _, hcheck⟩
    exact congrArg Except.error (Limits.check_eq_error hcheck).relocate_eq
  | ok u =>
    refine .inl ?_
    rw [Segments.unplaced, Segments.value_relocate text]

/-- An expression with a value has tokens, which have a postfix order with that value, whatever their
positions are. -/
lemma unplaced_of_calculate {value : Number} (h : calculate limits text = .ok value) :
    ∃ tokens rpn, Segments.unplaced text.toList = ⟨tokens, none⟩ ∧
      Rpn.ofInfix limits (some "") tokens = .ok rpn ∧
      Rpn.evaluate limits (some "") rpn = .ok value := by
  obtain ⟨tokens, rpn, htokens, hrpn, hvalue⟩ := stages_of_calculate h
  obtain ⟨-, hsegments, -⟩ := tokenize_eq_ok_iff.1 htokens
  refine ⟨tokens.map (relocate fun _ => 0), rpn.map (relocate fun _ => 0), ?_, ?_, ?_⟩
  · rw [Segments.unplaced, hsegments]
    rfl
  · rw [Rpn.ofInfix_relocate (Failure.moves_relocate limits _ text ""), hrpn]
    rfl
  · rw [Rpn.evaluate_relocate (Failure.moves_relocate limits _ text ""), hvalue]
    rfl

/-- The tokens of an expression with a group. -/
lemma unplaced_group {s : List Char} {tokens : List Token}
    (hs : Segments.unplaced s = ⟨tokens, none⟩) (u v : List Char) :
    Segments.unplaced (u ++ '(' :: (s ++ ')' :: v)) =
      (Segments.unplaced u).andThen ((Segments.unplaced v).prepend
        (⟨.openParen, "(", 0⟩ :: (tokens ++ [⟨.closeParen, ")", 0⟩]))) := by
  have hopen : isBoundary '(' = true := rfl
  have hclose : isBoundary ')' = true := rfl
  rw [unplaced_append (parted_cons hopen u _), unplaced_cons hopen,
    unplaced_append (parted_cons hclose s v), unplaced_cons hclose, hs,
    @Segments.andThen_of_none ⟨tokens, none⟩ rfl, Segments.prepend_prepend,
    Segments.prepend_prepend]
  rfl

/-- The tokens of an expression with a number between spaces. -/
lemma unplaced_number (n : Nat) (u v : List Char) :
    Segments.unplaced (u ++ ' ' :: (digits n ++ ' ' :: v)) =
      (Segments.unplaced u).andThen
        ((Segments.unplaced v).prepend [⟨.literal, String.ofList (digits n), 0⟩]) := by
  have hspace : isBoundary ' ' = true := rfl
  have hdigits : ∀ c ∈ digits n, isBoundary c = false ∧ Text.isPrintable c = true :=
    fun c hc => literal_of_isDigit (isDigit_of_mem_digits hc)
  rw [unplaced_append (parted_cons hspace u _), unplaced_cons hspace,
    unplaced_append (parted_cons hspace _ v), unplaced_cons hspace,
    unplaced_word hdigits (digits_ne_nil n),
    @Segments.andThen_of_none ⟨[⟨.literal, String.ofList (digits n), 0⟩], none⟩ rfl,
    Segments.prepend_prepend, Segments.prepend_prepend]
  rfl

/-- The text of an integer that fits has the integer as its value. -/
lemma literalValue_digits {source : Option String} {n : Nat} (position : Int)
    (hn : n < writableBound) (hfits : (Number.int n).Fits limits.integerBits) :
    Rpn.literalValue limits source ⟨.literal, String.ofList (digits n), position⟩ =
      .ok (.int n) := by
  have hcheck : limits.checkInteger n = .ok () := Limits.check_of_le hfits
  simp only [Rpn.literalValue, String.toList_ofList, Number.literal?_digits hn, hcheck]

/-! ## Computations -/

/-- Computations of expressions that differ in positions only. -/
lemma agree_of_unplacedValue {text' : String} {c c' : Computation}
    (h : unplacedValue limits text = unplacedValue limits text')
    (hc : compute limits text = .ok c) (hc' : compute limits text' = .ok c') :
    (∃ x, c.outcome = .ok x ∧ c'.outcome = .ok x) ∨
      ∃ e e', c.outcome = .error e ∧ c'.outcome = .error e' ∧ e.cause = e'.cause := by
  unfold unplacedValue at h
  rcases outcome_of_compute hc with ⟨x, hx, hout⟩ | ⟨e, he, hout⟩
  · rcases outcome_of_compute hc' with ⟨x', hx', hout'⟩ | ⟨e', he', hout'⟩
    · rw [hx, hx'] at h
      obtain rfl : x = x' := Except.ok.inj h
      exact .inl ⟨x, hout, hout'⟩
    · rw [hx, he'] at h
      exact absurd h (by simp)
  · rcases outcome_of_compute hc' with ⟨x', hx', hout'⟩ | ⟨e', he', hout'⟩
    · rw [he, hx'] at h
      exact absurd h (by simp)
    · rw [he, he'] at h
      have hsame : e.relocate (fun _ => 0) "" = e'.relocate (fun _ => 0) "" :=
        Failure.error.inj (Except.error.inj h)
      have hcauses : (e.relocate (fun _ => 0) "").cause = (e'.relocate (fun _ => 0) "").cause :=
        congrArg ExpressionError.cause hsame
      exact .inr ⟨_, _, hout, hout', hcauses⟩

lemma endsAtSize_of_unplacedValue {c : Computation} (h : unplacedValue limits text = .error failure)
    (hsize : limits.SizeExceeded failure) (hc : compute limits text = .ok c) : c.EndsAtSize := by
  unfold unplacedValue at h
  rcases outcome_of_compute hc with ⟨x, hx, -⟩ | ⟨e, he, hout⟩
  · rw [hx] at h
    exact absurd h (by simp)
  · rw [he] at h
    have hfailure : Failure.error (e.relocate (fun _ => 0) "") = failure := Except.error.inj h
    rw [← hfailure] at hsize
    obtain ⟨limit, bound, actual, hlimit, hname⟩ := cause_of_sizeExceeded hsize
    exact ⟨_, limit, bound, actual, hout, hlimit, hname⟩

/-- A group with an integer as its value may be replaced by the text of the integer, unless there are
too many characters, tokens or groups. -/
lemma unplacedValue_replace {s : String} {n : Nat} (hs : calculate limits s = .ok (.int n))
    (hn : n < writableBound) (u v : String) :
    unplacedValue limits (u ++ "(" ++ s ++ ")" ++ v) =
        unplacedValue limits (u ++ " " ++ String.ofList (digits n) ++ " " ++ v) ∨
      (∃ failure, unplacedValue limits (u ++ "(" ++ s ++ ")" ++ v) = .error failure ∧
        limits.SizeExceeded failure) ∨
      ∃ failure, unplacedValue limits (u ++ " " ++ String.ofList (digits n) ++ " " ++ v) =
        .error failure ∧ limits.SizeExceeded failure := by
  obtain ⟨tokens, rpn, hsegments, hrpn, hrun⟩ := unplaced_of_calculate hs
  have hliteral := @literalValue_digits limits (some "") n 0 hn (fits_of_calculate hs)
  have hgroup : (u ++ "(" ++ s ++ ")" ++ v).toList =
      u.toList ++ '(' :: (s.toList ++ ')' :: v.toList) := by
    simp
  have hnumber : (u ++ " " ++ String.ofList (digits n) ++ " " ++ v).toList =
      u.toList ++ ' ' :: (digits n ++ ' ' :: v.toList) := by
    simp
  obtain ⟨c, hc⟩ := List.exists_mem_of_ne_nil (digits n) (digits_ne_nil n)
  have hboundary : isBoundary c = false := (literal_of_isDigit (isDigit_of_mem_digits hc)).1
  have hdigit : Text.isSeparator c = false := (Bool.or_eq_false_iff.1 hboundary).1
  rcases @unplacedValue_eq limits (u ++ "(" ++ s ++ ")" ++ v) '(' (by simp) rfl with hleft | hleft
  · rcases @unplacedValue_eq limits (u ++ " " ++ String.ofList (digits n) ++ " " ++ v) c
      (by simp [hc]) hdigit with hright | hright
    · rw [hleft, hright, hgroup, hnumber, unplaced_group hsegments, unplaced_number]
      exact Segments.value_replace rfl rfl rfl hrpn hrun hliteral _ _
    · exact .inr (.inr hright)
  · exact .inr (.inl hleft)

/-- Let an expression have an integer as its value that is not negative.  The integer is shown as a
text, and in every context this text may replace the expression in parentheses.  There is a
computation of the whole, before and after, if its length can be written; and two computations have
the same value, or errors of the same kind with the same message, unless one of them ends because the
whole has too many characters, tokens or groups. -/
theorem compute_replace_group (hlimits : limits.InRange) {s : String} {c₀ : Computation} {n : Int}
    (hs : compute limits s = .ok c₀) (hvalue : c₀.outcome = .ok (.int n)) (hn : 0 ≤ n)
    (u v : String) :
    ∃ shown, (Number.int n).display = .ok shown ∧
      (∀ whole ∈ [u ++ "(" ++ s ++ ")" ++ v, u ++ " " ++ shown ++ " " ++ v],
        whole.length < writableBound → ∃ c, compute limits whole = .ok c) ∧
      ∀ c c', compute limits (u ++ "(" ++ s ++ ")" ++ v) = .ok c →
        compute limits (u ++ " " ++ shown ++ " " ++ v) = .ok c' →
        ¬c.EndsAtSize → ¬c'.EndsAtSize →
          (∃ x, c.outcome = .ok x ∧ c'.outcome = .ok x) ∨
            ∃ e e', c.outcome = .error e ∧ c'.outcome = .error e' ∧ e.kind = e'.kind ∧
              e.message = e'.message := by
  obtain ⟨k, rfl⟩ := Int.eq_ofNat_of_zero_le hn
  have hcalculate := calculate_of_compute hs hvalue
  have hwritable : isWritable k = true := isWritable_of_fits hlimits (fits_of_calculate hcalculate)
  have htext : Numeral.text k = String.ofList (digits k) := if_neg (Int.not_lt.2 hn)
  refine ⟨String.ofList (digits k), by rw [Number.display_int hwritable, htext],
    fun whole _ hlength => exists_compute_of_inRange hlimits hlength, ?_⟩
  intro c c' hc hc' hsize hsize'
  rcases unplacedValue_replace hcalculate (isWritable_iff.1 hwritable) u v with
    hsame | ⟨failure, herror, hexceeded⟩ | ⟨failure, herror, hexceeded⟩
  · rcases agree_of_unplacedValue hsame hc hc' with hok | ⟨e, e', hout, hout', hcause⟩
    · exact .inl hok
    · refine .inr ⟨e, e', hout, hout', ?_, ?_⟩
      · rw [ExpressionError.kind, ExpressionError.kind, hcause]
      · rw [ExpressionError.message, ExpressionError.message, hcause]
  · exact absurd (endsAtSize_of_unplacedValue herror hexceeded hc) hsize
  · exact absurd (endsAtSize_of_unplacedValue herror hexceeded hc') hsize'

/-- In `2*(1+2)/0` the division is at position 7, and with `3` for the group it is at position 5.  The
message is the same. -/
theorem compute_replace_group_sample :
    (({} : Limits).InRange ∧ compute {} "1+2" = .ok ⟨"1+2", .ok (.int 3)⟩ ∧ (0 : Int) ≤ 3) ∧
      ∃ c c', compute {} "2*(1+2)/0" = .ok c ∧ compute {} "2* 3 /0" = .ok c' ∧
        (¬c.EndsAtSize ∧ ¬c'.EndsAtSize) ∧
        ((∃ x, c.outcome = .ok x ∧ c'.outcome = .ok x) ∨
          ∃ e e', c.outcome = .error e ∧ c'.outcome = .error e' ∧ e.kind = e'.kind ∧
            e.message = e'.message) := by
  have hlimits : ({} : Limits).InRange := by constructor <;> decide
  have hs : compute {} "1+2" = .ok ⟨"1+2", .ok (.int 3)⟩ := rfl
  have hc : compute {} "2*(1+2)/0" =
    .ok ⟨"2*(1+2)/0", .error ⟨.divisionByZero, some 7, some "2*(1+2)/0"⟩⟩ := rfl
  have hc' : compute {} "2* 3 /0" =
    .ok ⟨"2* 3 /0", .error ⟨.divisionByZero, some 5, some "2* 3 /0"⟩⟩ := rfl
  have hsize (whole : String) (position : Option Int) (source : Option String) :
      ¬(Computation.mk whole (.error ⟨.divisionByZero, position, source⟩)).EndsAtSize := by
    rintro ⟨e, limit, bound, actual, hout, -, hcause⟩
    cases hout
    exact absurd hcause (by simp)
  obtain ⟨shown, hshown, -, hagree⟩ := compute_replace_group hlimits hs rfl (by decide) "2*" "/0"
  have htext : (Number.int 3).display = .ok "3" :=
    Number.display_int (isWritable_iff.2 (by decide +kernel))
  obtain rfl : "3" = shown := Except.ok.inj (htext.symm.trans hshown)
  exact ⟨⟨hlimits, hs, by decide⟩, _, _, hc, hc', ⟨hsize _ _ _, hsize _ _ _⟩,
    hagree _ _ hc hc' (hsize _ _ _) (hsize _ _ _)⟩

end InfixCalculator
