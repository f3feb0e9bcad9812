import InfixCalculator.Proofs.Conversion.Group

/-!
# Operands in their surroundings

A literal, or a group whose tokens have a postfix order, stands for one operand (`IsOperand`).  Where an
operand stands, the conversion puts out its postfix order, and what it puts out before and after that
depends on the tokens around it alone.  So do the cause and the position of a failure, for the nesting
is the only thing that a limit or an operand could have a part in, and it is not too deep for any of
them (`Limits.Roomy`).  What does not depend on the limits and on the expression that is mentioned is
said by a relation between answers (`Alike`), step by step and then for a run.  The main statement is
`ofInfix_operand`.
-/

namespace InfixCalculator

open Rpn Rpn.Conversion

variable {α : Type} {source source' : Option String}

/-- The bound on the nesting is at least the number of opening parentheses, so no tokens could be
nested too deeply. -/
def Limits.Roomy (limits : Limits) (tokens : List Token) : Prop :=
  (openGroups tokens : Int) ≤ limits.nestingDepth

instance (limits : Limits) (tokens : List Token) : Decidable (limits.Roomy tokens) :=
  inferInstanceAs (Decidable ((openGroups tokens : Int) ≤ limits.nestingDepth))

/-! ## Answers that are alike -/

/-- Two answers, each for an expression of its own, are one value, or they blame one cause at one
position. -/
inductive Alike (source source' : Option String) : Except Failure α → Except Failure α → Prop
  | value (a : α) : Alike source source' (.ok a) (.ok a)
  | blame (cause : Cause) (position : Int) :
      Alike source source' (.error (.atPosition cause position source))
        (.error (.atPosition cause position source'))

/-- The two ways in which answers are alike. -/
@[elab_as_elim]
lemma Alike.elim {motive : Except Failure α → Except Failure α → Prop}
    {answer answer' : Except Failure α} (h : Alike source source' answer answer')
    (value : ∀ a, answer = .ok a → motive (.ok a) (.ok a))
    (blame : ∀ cause position, motive (.error (.atPosition cause position source))
      (.error (.atPosition cause position source'))) :
    motive answer answer' := by
  cases h with
  | value a => exact value a rfl
  | blame cause position => exact blame cause position

lemma Alike.eq_of_ok {answer : Except Failure α} {a : α} (h : Alike source source' (.ok a) answer) :
    answer = .ok a := by
  cases h
  rfl

/-- A failure that does not depend on the expression is blamed on a position. -/
lemma Alike.exists_atPosition {answer : Except Failure α} {failure : Failure}
    (h : Alike source source' (.error failure) answer) :
    ∃ cause position, failure = .atPosition cause position source := by
  cases h with
  | blame cause position => exact ⟨cause, position, rfl⟩

lemma Alike.eq_of_atPosition {answer : Except Failure α} {cause : Cause} {position : Int}
    (h : Alike source source' (.error (.atPosition cause position source)) answer) :
    answer = .error (.atPosition cause position source') := by
  generalize hfailure : Failure.atPosition cause position source = failure at h
  cases h with
  | blame cause' position' =>
    cases hfailure
    rfl

/-- Limits that are roomy for all tokens are so for those around some of them. -/
lemma Limits.Roomy.around {limits : Limits} {before operand after : List Token}
    (h : limits.Roomy (before ++ operand ++ after)) : limits.Roomy (before ++ after) := by
  rw [Roomy, openGroups_append, openGroups_append] at h
  rw [Roomy, openGroups_append]
  omega

namespace Rpn

namespace Conversion

variable {limits limits' : Limits} {config config' : Conversion} {token : Token}
  {tokens : List Token}

/-- What is nested too deeply is not blamed on a position. -/
lemma TooDeep.ne_atPosition {cause : Cause} {position : Int} {failure : Failure}
    (h : TooDeep limits failure) : failure ≠ .atPosition cause position source := by
  obtain ⟨depth, hcheck⟩ := h
  rintro rfl
  unfold Limits.check at hcheck
  split at hcheck
  · unfold Failure.beyond at hcheck
    split at hcheck <;> exact absurd hcheck (by simp [Failure.atPosition, Failure.overall])
  · exact absurd hcheck (by simp)

/-- Where the nesting is not too deep, neither the limits nor the expression have a part in a step. -/
lemma alike_step (h : ((config.depth + openGroups [token] : Nat) : Int) ≤ limits.nestingDepth)
    (h' : ((config.depth + openGroups [token] : Nat) : Int) ≤ limits'.nestingDepth) :
    Alike source source' (config.step limits source token) (config.step limits' source' token) := by
  cases hk : token.kind with
  | literal =>
    rw [step_literal hk, step_literal hk]
    exact .value _
  | openParen =>
    have hone : openGroups [token] = 1 := by simp [openGroups, hk]
    rw [hone] at h h'
    rw [step_open_of_le hk h, step_open_of_le hk h']
    exact .value _
  | closeParen =>
    rw [step_close hk, step_close hk]
    cases closeGroup? config.stack config.output with
    | none => exact .blame .unmatchedClose token.position
    | some group => exact .value _
  | operator op =>
    rw [step_operator hk, step_operator hk]
    exact .value _

lemma alike_run (h : ((config.depth + openGroups tokens : Nat) : Int) ≤ limits.nestingDepth)
    (h' : ((config.depth + openGroups tokens : Nat) : Int) ≤ limits'.nestingDepth) :
    Alike source source' (config.run limits source tokens) (config.run limits' source' tokens) := by
  induction tokens generalizing config with
  | nil => exact .value config
  | cons token rest ih =>
    rw [← List.singleton_append, openGroups_append] at h h'
    rw [run_cons, run_cons]
    have hstep : Alike source source' (config.step limits source token)
        (config.step limits' source' token) := alike_step (by omega) (by omega)
    refine hstep.elim (fun next hnext => ?_) Alike.blame
    have hdepth := depth_le_of_step hnext
    exact ih (by omega) (by omega)

lemma alike_drain (stack : List Token) (output : Array Token) :
    Alike source source' (drain source stack output) (drain source' stack output) := by
  induction stack generalizing output with
  | nil => exact .value output
  | cons top rest ih =>
    rw [drain, drain]
    split
    · exact .blame .unmatchedOpen top.position
    · exact ih _

lemma alike_finish (h : ((config.depth + openGroups tokens : Nat) : Int) ≤ limits.nestingDepth)
    (h' : ((config.depth + openGroups tokens : Nat) : Int) ≤ limits'.nestingDepth) :
    Alike source source' (config.finish limits source tokens)
      (config.finish limits' source' tokens) := by
  have hrun : Alike source source' (config.run limits source tokens)
    (config.run limits' source' tokens) := alike_run h h'
  rw [finish, finish]
  exact hrun.elim (fun last _ => alike_drain last.stack last.output) Alike.blame

/-- What is put out before and after a gap does not depend on the limits. -/
lemma alike_around {before after : List Token} (h : limits.Roomy (before ++ after))
    (h' : limits'.Roomy (before ++ after)) :
    Alike source source' (around limits source before after)
      (around limits' source' before after) := by
  rw [Limits.Roomy, openGroups_append] at h h'
  have hbefore : Alike source source' (initial.run limits source before)
    (initial.run limits' source' before) :=
    alike_run (by simp only [initial]; omega) (by simp only [initial]; omega)
  rw [around, around]
  refine hbefore.elim (fun outer houter => ?_) Alike.blame
  have hdepth : outer.depth ≤ 0 + openGroups before := depth_le_of_run houter
  have hafter : Alike source source'
      (({ outer with output := #[] } : Conversion).finish limits source after)
      (({ outer with output := #[] } : Conversion).finish limits' source' after) :=
    alike_finish (by simp only; omega) (by simp only; omega)
  simp only
  exact hafter.elim (fun last _ => .value (outer.output.toList, last.toList)) Alike.blame

end Conversion

open Token

/-- Tokens that stand for one operand, with their postfix order: a literal, or a group of tokens that
have a postfix order under limits that are roomy for them. -/
inductive IsOperand : List Token → List Token → Prop
  | literal {operand : Token} (hl : operand.kind = .literal) : IsOperand [operand] [operand]
  | group {limits : Limits} {source : Option String} {opening closing : Token}
      {tokens rpn : List Token} (ho : opening.kind = .openParen) (hc : closing.kind = .closeParen)
      (hroom : limits.Roomy tokens) (h : ofInfix limits source tokens = .ok rpn) :
      IsOperand (opening :: (tokens ++ [closing])) rpn

variable {limits limits' : Limits} {tokens rpn operand before : List Token}

/-- The postfix order of tokens does not depend on the limits. -/
lemma ofInfix_of_roomy (hroom : limits.Roomy tokens) (hroom' : limits'.Roomy tokens)
    (h : ofInfix limits source tokens = .ok rpn) : ofInfix limits' source' tokens = .ok rpn := by
  have halike : Alike source source' (initial.finish limits source tokens)
      (initial.finish limits' source' tokens) := by
    rw [Limits.Roomy] at hroom hroom'
    exact alike_finish (by simp only [initial]; omega) (by simp only [initial]; omega)
  rw [ofInfix_eq_finish] at h ⊢
  cases hfinish : initial.finish limits source tokens with
  | error failure =>
    rw [hfinish] at h
    exact absurd h (by simp [Except.map])
  | ok output =>
    rw [hfinish] at h halike
    rw [halike.eq_of_ok]
    exact h

/-- An operand adds its postfix order to the output and leaves the stack and the depth as they were. -/
lemma IsOperand.run (h : IsOperand operand rpn) (outer : Conversion)
    (hroom : ((outer.depth + openGroups operand : Nat) : Int) ≤ limits.nestingDepth) :
    outer.run limits source operand = .ok { outer with output := outer.output ++ rpn.toArray } := by
  cases h with
  | literal hl => exact run_literal hl outer
  | @group limits' source' opening closing tokens _ ho hc hroom' h =>
    have hcount : openGroups (opening :: (tokens ++ [closing])) = openGroups tokens + 1 := by
      rw [openGroups_cons_open ho, openGroups_append,
        openGroups_cons_of_ne (by simp [hc] : closing.kind ≠ .openParen)]
      rfl
    have hinner : ofInfix limits source tokens = .ok rpn := by
      refine ofInfix_of_roomy hroom' ?_ h
      rw [Limits.Roomy]
      omega
    refine (run_group ho hc hinner outer).resolve_right ?_
    rintro ⟨failure, herror, hdeep⟩
    have halike : Alike source source (outer.run limits source (opening :: (tokens ++ [closing])))
      (outer.run limits source (opening :: (tokens ++ [closing]))) := alike_run hroom hroom
    rw [herror] at halike
    obtain ⟨cause, position, hplaced⟩ := halike.exists_atPosition
    exact hdeep.ne_atPosition hplaced

/-- Where an operand stands, its postfix order is put out between what the tokens around it put out. -/
lemma IsOperand.ofInfix_eq (h : IsOperand operand rpn) (after : List Token)
    (hroom : limits.Roomy (before ++ operand ++ after)) :
    ofInfix limits source (before ++ operand ++ after) =
      match around limits source before after with
      | .error failure => .error failure
      | .ok (first, last) => .ok (first ++ rpn ++ last) := by
  rw [Limits.Roomy, openGroups_append, openGroups_append] at hroom
  refine ofInfix_eq_around (fun outer houter => h.run outer ?_) after
  have hdepth : outer.depth ≤ 0 + openGroups before := depth_le_of_run houter
  omega

/-- Take any tokens before and after an operand.  Either they have two lists between which the postfix
order of every operand is put out, or there are one cause and one position that are blamed whatever the
operand is.  This does not depend on the limits either, as long as they do not limit the nesting. -/
theorem ofInfix_operand (before after : List Token) :
    (∃ first last, ∀ operand rpn, IsOperand operand rpn → ∀ (limits : Limits) (source : Option String),
        limits.Roomy (before ++ operand ++ after) →
          ofInfix limits source (before ++ operand ++ after) = .ok (first ++ rpn ++ last)) ∨
      ∃ cause position, ∀ operand rpn, IsOperand operand rpn →
        ∀ (limits : Limits) (source : Option String), limits.Roomy (before ++ operand ++ after) →
          ofInfix limits source (before ++ operand ++ after) =
            .error (.atPosition cause position source) := by
  -- any limits that are roomy for the tokens around the operand will do to tell the two cases apart
  let wide : Limits := { nestingDepth := openGroups (before ++ after) }
  have hwide : wide.Roomy (before ++ after) := Int.le_refl _
  have halike (limits : Limits) (source : Option String) (hroom : limits.Roomy (before ++ after)) :
      Alike none source (around wide none before after) (around limits source before after) :=
    alike_around hwide hroom
  cases hwhole : around wide none before after with
  | ok pair =>
    refine .inl ⟨pair.1, pair.2, fun operand rpn h limits source hroom => ?_⟩
    have hsame := halike limits source hroom.around
    rw [hwhole] at hsame
    rw [h.ofInfix_eq after hroom, hsame.eq_of_ok]
  | error failure =>
    have hself := halike wide none hwide
    rw [hwhole] at hself
    obtain ⟨cause, position, rfl⟩ := hself.exists_atPosition
    refine .inr ⟨cause, position, fun operand rpn h limits source hroom => ?_⟩
    have hsame := halike limits source hroom.around
    rw [hwhole] at hsame
    rw [h.ofInfix_eq after hroom, hsame.eq_of_atPosition]

/-- The tokens of `1 2+`, which are no expression but have a postfix order. -/
def strayTokens : List Token :=
  [⟨.literal, "1", 3⟩, ⟨.literal, "2", 5⟩, ⟨.operator .add, "+", 6⟩]

/-- Between `2*` and `^3`, a literal and the group `(1 2+)`, each with just the nesting that it needs. -/
theorem ofInfix_operand_sample :
    IsOperand [⟨.literal, "x", 2⟩] [⟨.literal, "x", 2⟩] ∧
      IsOperand (⟨.openParen, "(", 2⟩ :: (strayTokens ++ [⟨.closeParen, ")", 7⟩])) strayTokens ∧
      ∃ first last,
        ofInfix { nestingDepth := 0 } none ([⟨.literal, "2", 0⟩, ⟨.operator .mul, "*", 1⟩] ++
            [⟨.literal, "x", 2⟩] ++ [⟨.operator .pow, "^", 8⟩, ⟨.literal, "3", 9⟩]) =
          .ok (first ++ [⟨.literal, "x", 2⟩] ++ last) ∧
        ofInfix { nestingDepth := 1 } none ([⟨.literal, "2", 0⟩, ⟨.operator .mul, "*", 1⟩] ++
            (⟨.openParen, "(", 2⟩ :: (strayTokens ++ [⟨.closeParen, ")", 7⟩])) ++
            [⟨.operator .pow, "^", 8⟩, ⟨.literal, "3", 9⟩]) =
          .ok (first ++ strayTokens ++ last) := by
  have hliteral : IsOperand [⟨.literal, "x", 2⟩] [⟨.literal, "x", 2⟩] := .literal rfl
  have hstray : ofInfix { nestingDepth := 0 } none strayTokens = .ok strayTokens := rfl
  have hgroup : IsOperand (⟨.openParen, "(", 2⟩ :: (strayTokens ++ [⟨.closeParen, ")", 7⟩]))
    strayTokens := .group rfl rfl (by decide) hstray
  refine ⟨hliteral, hgroup, ?_⟩
  rcases ofInfix_operand [⟨.literal, "2", 0⟩, ⟨.operator .mul, "*", 1⟩]
    [⟨.operator .pow, "^", 8⟩, ⟨.literal, "3", 9⟩] with ⟨first, last, h⟩ | ⟨cause, position, h⟩
  · exact ⟨first, last, h _ _ hliteral _ none (by decide), h _ _ hgroup _ none (by decide)⟩
  · cases h _ _ hliteral { nestingDepth := 0 } none (by decide)

end Rpn

end InfixCalculator
