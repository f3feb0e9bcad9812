import InfixCalculator.Proofs.Conversion.Contents

/-!
# A group is one operand

The conversion never looks back at what it has put out (`finish_prepend`), and in a group it does not
look below the opening parenthesis: reading tokens there is reading them alone (`run_within`), except
that the groups around count for the nesting.  So a group leaves the stack as it was and adds to the
output the postfix order of its tokens, where a literal would have added itself (`run_group`).  What
comes before and after cannot tell the one from the other (`ofInfix_group`).
-/

namespace InfixCalculator.Rpn

namespace Conversion

variable {limits : Limits} {source : Option String} {token opening closing : Token}
  {config config' : Conversion}

/-! ## The output so far -/

/-- The configuration with more output before its own. -/
def prepend (before : Array Token) (config : Conversion) : Conversion :=
  { config with output := before ++ config.output }

lemma yieldTo_prepend (incoming : Operator) (stack : List Token) (before output : Array Token) :
    yieldTo incoming stack (before ++ output) =
      ((yieldTo incoming stack output).1, before ++ (yieldTo incoming stack output).2) := by
  obtain ⟨waiting, rest, rfl, hw, hr, -⟩ := exists_append_yieldTo incoming stack output
  rw [yieldTo_append hw hr, yieldTo_append hw hr, Array.append_assoc]

lemma closeGroup?_prepend (stack : List Token) (before output : Array Token) :
    closeGroup? stack (before ++ output) =
      (closeGroup? stack output).map fun group => (group.1, before ++ group.2) := by
  induction stack generalizing output with
  | nil => rfl
  | cons top rest ih =>
    rw [closeGroup?, closeGroup?, Array.push_append, ih]
    split <;> rfl

lemma drain_prepend (stack : List Token) (before output : Array Token) :
    drain source stack (before ++ output) = (drain source stack output).map (before ++ ·) := by
  induction stack generalizing output with
  | nil => rfl
  | cons top rest ih =>
    rw [drain, drain, Array.push_append, ih]
    split <;> rfl

lemma step_prepend (before : Array Token) (config : Conversion) :
    (config.prepend before).step limits source token =
      (config.step limits source token).map (prepend before) := by
  cases hk : token.kind with
  | literal =>
    rw [step_literal hk, step_literal hk]
    simp [prepend, Except.map, Array.push_append]
  | openParen =>
    rw [step_open hk, step_open hk]
    simp only [prepend]
    cases limits.check .nestingDepth (config.depth + 1 : Nat) <;> rfl
  | closeParen =>
    rw [step_close hk, step_close hk]
    simp only [prepend, closeGroup?_prepend]
    cases closeGroup? config.stack config.output <;> rfl
  | operator op =>
    rw [step_operator hk, step_operator hk]
    simp only [prepend, yieldTo_prepend]
    rfl

lemma run_prepend (before : Array Token) (config : Conversion) (tokens : List Token) :
    (config.prepend before).run limits source tokens =
      (config.run limits source tokens).map (prepend before) := by
  induction tokens generalizing config with
  | nil => rfl
  | cons token rest ih =>
    rw [run_cons, run_cons, step_prepend]
    cases config.step limits source token with
    | error failure => rfl
    | ok next => exact ih next

/-- All that is put out if these are the last tokens. -/
def finish (limits : Limits) (source : Option String) (config : Conversion) (tokens : List Token) :
    Except Failure (Array Token) :=
  match config.run limits source tokens with
  | .error failure => .error failure
  | .ok config => drain source config.stack config.output

lemma finish_append (config : Conversion) (s t : List Token) :
    config.finish limits source (s ++ t) =
      match config.run limits source s with
      | .error failure => .error failure
      | .ok config => config.finish limits source t := by
  rw [finish, run_append]
  cases config.run limits source s <;> rfl

lemma finish_prepend (before : Array Token) (config : Conversion) (tokens : List Token) :
    (config.prepend before).finish limits source tokens =
      (config.finish limits source tokens).map (before ++ ·) := by
  rw [finish, finish, run_prepend]
  cases config.run limits source tokens with
  | error failure => rfl
  | ok last => exact drain_prepend last.stack before last.output

/-! ## The depth -/

/-- The depth counts the parentheses that wait to be closed. -/
lemma depth_eq_of_step (h : config.step limits source token = .ok config')
    (hd : config.depth = openGroups config.stack) : config'.depth = openGroups config'.stack := by
  rcases step_eq_ok h with ⟨-, rfl⟩ | ⟨hk, -, rfl⟩ | ⟨waiting, opening, stack, -, ho, hw, hs, rfl⟩ |
    ⟨op, waiting, stack, hk, hw, -, hs, rfl⟩
  · exact hd
  · simp only [openGroups_cons_open hk, hd]
  · simp only
    rw [hd, hs, openGroups_append, openGroups_eq_zero_iff.2 hw, openGroups_cons_open ho]
    omega
  · have hne : token.kind ≠ .openParen := by simp [hk]
    simp only
    rw [hd, hs, openGroups_append, openGroups_eq_zero_iff.2 (no_open_of_operators hw),
      Nat.zero_add, openGroups_cons_of_ne hne]

lemma depth_eq_of_run {tokens : List Token} (h : config.run limits source tokens = .ok config')
    (hd : config.depth = openGroups config.stack) : config'.depth = openGroups config'.stack := by
  induction tokens generalizing config with
  | nil =>
    cases h
    exact hd
  | cons token rest ih =>
    obtain ⟨next, hstep, hrun⟩ := run_cons_eq_ok_iff.1 h
    exact ih hrun (depth_eq_of_step hstep hd)

/-! ## Groups -/

/-- The configuration in a group that was opened in an outer one. -/
def within (opening : Token) (outer config : Conversion) : Conversion where
  stack := config.stack ++ opening :: outer.stack
  output := outer.output ++ config.output
  depth := outer.depth + 1 + config.depth

/-- The failure reports that parentheses are nested too deeply. -/
def TooDeep (limits : Limits) (failure : Failure) : Prop :=
  ∃ depth : Nat, limits.check .nestingDepth depth = .error failure

/-- A token that can be read alone can be read in a group, unless it opens a group too many. -/
lemma step_within (ho : opening.kind = .openParen) (outer : Conversion)
    (hd : config.depth = openGroups config.stack)
    (h : config.step limits source token = .ok config') :
    (within opening outer config).step limits source token = .ok (within opening outer config') ∨
      ∃ failure, (within opening outer config).step limits source token = .error failure ∧
        TooDeep limits failure := by
  rcases step_eq_ok h with ⟨hk, rfl⟩ | ⟨hk, -, rfl⟩ | ⟨waiting, inner, stack, hk, hi, hw, hs, rfl⟩ |
    ⟨op, waiting, stack, hk, hw, hstop, hs, rfl⟩
  · rw [step_literal hk]
    simp [within, Array.push_append]
  -- the limit on the nesting may stop what it does not stop outside of the group
  · rw [step_open hk]
    cases hcheck : limits.check .nestingDepth ((within opening outer config).depth + 1 : Nat) with
    | error failure => exact .inr ⟨failure, rfl, _, hcheck⟩
    | ok u => exact .inl rfl
  · have hpos : config.depth ≠ 0 := by
      rw [hd, hs, openGroups_append, openGroups_cons_open hi]
      omega
    have hdepth : outer.depth + 1 + config.depth - 1 = outer.depth + 1 + (config.depth - 1) := by
      omega
    have hclose := closeGroup?_append hi hw (stack ++ opening :: outer.stack)
      (outer.output ++ config.output)
    rw [step_close hk]
    simp only [within, hs, List.append_assoc, List.cons_append, hclose, hdepth, Array.append_assoc]
    simp
  -- the operators that give way are all in the group, for its parenthesis does not
  · have hstop' : ∀ token ∈ (stack ++ opening :: outer.stack).head?, ∀ op',
        token.kind = .operator op' → op.pops op' = false := by
      cases stack with
      | nil =>
        intro token ht op' hop
        obtain rfl : opening = token := Option.mem_some_iff.1 ht
        rw [ho] at hop
        exact absurd hop (by simp)
      | cons top rest => exact hstop
    have hyield := yieldTo_append hw hstop' (outer.output ++ config.output)
    rw [step_operator hk]
    simp only [within, hs, List.append_assoc, hyield, Array.append_assoc]
    simp

lemma run_within (ho : opening.kind = .openParen) (outer : Conversion) {tokens : List Token}
    (hd : config.depth = openGroups config.stack)
    (h : config.run limits source tokens = .ok config') :
    (within opening outer config).run limits source tokens = .ok (within opening outer config') ∨
      ∃ failure, (within opening outer config).run limits source tokens = .error failure ∧
        TooDeep limits failure := by
  induction tokens generalizing config with
  | nil =>
    cases h
    exact .inl rfl
  | cons token rest ih =>
    obtain ⟨next, hstep, hrun⟩ := run_cons_eq_ok_iff.1 h
    rw [run_cons]
    rcases step_within ho outer hd hstep with hok | ⟨failure, herror, hdeep⟩
    · rw [hok]
      exact ih (depth_eq_of_step hstep hd) hrun
    · rw [herror]
      exact .inr ⟨failure, rfl, hdeep⟩

end Conversion

open Conversion

variable {limits : Limits} {source : Option String} {opening closing operand : Token}
  {tokens rpn : List Token}

/-- A group of tokens that have a postfix order adds it to the output and leaves the stack and the
depth as they were. -/
lemma Conversion.run_group (ho : opening.kind = .openParen) (hc : closing.kind = .closeParen)
    (h : ofInfix limits source tokens = .ok rpn) (outer : Conversion) :
    outer.run limits source (opening :: (tokens ++ [closing])) =
        .ok { outer with output := outer.output ++ rpn.toArray } ∨
      ∃ failure, outer.run limits source (opening :: (tokens ++ [closing])) = .error failure ∧
        TooDeep limits failure := by
  obtain ⟨last, hrun, hnone, rfl⟩ := ofInfix_eq_ok h
  have hdepth : last.depth = 0 := hnone ▸ depth_eq_of_run hrun rfl
  have hopen := openGroups_eq_zero_iff.1 hnone
  rw [run_cons, step_open ho]
  cases hcheck : limits.check .nestingDepth (outer.depth + 1 : Nat) with
  | error failure => exact .inr ⟨failure, rfl, _, hcheck⟩
  | ok u =>
    have hstart : (⟨opening :: outer.stack, outer.output, outer.depth + 1⟩ : Conversion) =
        within opening outer initial := by
      simp [within, initial]
    simp only [hstart]
    rw [run_append]
    rcases run_within ho outer rfl hrun with hok | ⟨failure, herror, hdeep⟩
    · have hcontents : outer.output ++ last.contents.toArray =
          outer.output ++ last.output ++ last.stack.toArray := by
        rw [← Array.toList_inj, contents, filter_of_no_open hopen]
        simp
      refine .inl ?_
      rw [hok, hcontents]
      simp only
      rw [run_cons, step_close hc]
      simp only [within, closeGroup?_append ho hopen, hdepth]
      rfl
    · refine .inr ⟨failure, ?_, hdeep⟩
      rw [herror]

lemma ofInfix_eq_finish (tokens : List Token) :
    ofInfix limits source tokens = (initial.finish limits source tokens).map Array.toList := by
  rw [ofInfix, finish]
  cases initial.run limits source tokens with
  | error failure => rfl
  | ok config =>
    simp only
    cases drain source config.stack config.output <;> rfl

/-- What is put out before and after a gap in a token list. -/
def Conversion.around (limits : Limits) (source : Option String) (before after : List Token) :
    Except Failure (List Token × List Token) :=
  match initial.run limits source before with
  | .error failure => .error failure
  | .ok outer =>
    match ({ outer with output := #[] } : Conversion).finish limits source after with
    | .error failure => .error failure
    | .ok last => .ok (outer.output.toList, last.toList)

/-- Tokens that add something to the output, and leave the stack and the depth as they were, fill a
gap: what comes after them cannot tell what they have added. -/
lemma ofInfix_eq_around {before middle put : List Token}
    (h : ∀ outer, initial.run limits source before = .ok outer →
      outer.run limits source middle = .ok { outer with output := outer.output ++ put.toArray })
    (after : List Token) :
    ofInfix limits source (before ++ middle ++ after) =
      match around limits source before after with
      | .error failure => .error failure
      | .ok (first, last) => .ok (first ++ put ++ last) := by
  rw [ofInfix_eq_finish, List.append_assoc, finish_append, around]
  cases hrun : initial.run limits source before with
  | error failure => rfl
  | ok outer =>
    have hput : ({ outer with output := outer.output ++ put.toArray } : Conversion) =
        ({ outer with output := #[] } : Conversion).prepend (outer.output ++ put.toArray) := by
      simp [prepend]
    simp only
    rw [finish_append, h outer hrun]
    simp only [hput, finish_prepend]
    cases ({ outer with output := #[] } : Conversion).finish limits source after with
    | error failure => rfl
    | ok last => simp [Except.map]

/-- A literal adds itself to the output. -/
lemma Conversion.run_literal (hl : operand.kind = .literal) (outer : Conversion) :
    outer.run limits source [operand] =
      .ok { outer with output := outer.output ++ [operand].toArray } := by
  rw [run_cons, step_literal hl]
  simp

/-- A group of tokens that have a postfix order stands for one operand, whatever there is before and
after.  With the one and with the other the conversion fails alike, or it succeeds and the postfix
order of the tokens stands where the operand stands; only the nesting may be too deep for the group. -/
theorem ofInfix_group (ho : opening.kind = .openParen) (hc : closing.kind = .closeParen)
    (hl : operand.kind = .literal) (h : ofInfix limits source tokens = .ok rpn)
    (before after : List Token) :
    (∃ failure, ofInfix limits source (before ++ opening :: (tokens ++ closing :: after)) =
        .error failure ∧ TooDeep limits failure) ∨
      (∃ failure, ofInfix limits source (before ++ opening :: (tokens ++ closing :: after)) =
          .error failure ∧
        ofInfix limits source (before ++ operand :: after) = .error failure) ∨
      ∃ first last, ofInfix limits source (before ++ opening :: (tokens ++ closing :: after)) =
          .ok (first ++ rpn ++ last) ∧
        ofInfix limits source (before ++ operand :: after) = .ok (first ++ operand :: last) := by
  have hgroup : before ++ opening :: (tokens ++ closing :: after) =
      before ++ opening :: (tokens ++ [closing]) ++ after := by simp
  have hliteral : ofInfix limits source (before ++ [operand] ++ after) = _ :=
    ofInfix_eq_around (fun outer _ => run_literal hl outer) after
  rw [← List.append_cons] at hliteral
  rw [hgroup, hliteral]
  by_cases hdeep : ∃ outer failure, initial.run limits source before = .ok outer ∧
      outer.run limits source (opening :: (tokens ++ [closing])) = .error failure ∧
      TooDeep limits failure
  · obtain ⟨outer, failure, hbefore, herror, hdeep⟩ := hdeep
    refine .inl ⟨failure, ?_, hdeep⟩
    rw [ofInfix_eq_finish, List.append_assoc, finish_append, hbefore]
    simp only
    rw [finish_append, herror]
    rfl
  · rw [ofInfix_eq_around fun outer hbefore => (run_group ho hc h outer).resolve_right
      fun ⟨failure, herror, htoo⟩ => hdeep ⟨outer, failure, hbefore, herror, htoo⟩]
    cases around limits source before after with
    | error failure => exact .inr (.inl ⟨failure, rfl, rfl⟩)
    | ok pair => exact .inr (.inr ⟨pair.1, pair.2, rfl, by simp⟩)

end InfixCalculator.Rpn
