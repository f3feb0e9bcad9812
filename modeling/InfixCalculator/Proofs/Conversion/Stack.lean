import InfixCalculator.Proofs.Conversion.Contents

/-!
# What waits on the stack

Nothing but opening parentheses and operators wait on the stack.  The parentheses are those that are
still open (`opened_of_step`).  The operators above the last of them are the innermost group, and there
no operator makes one below it give way (`Ranked`).  So if the operator on top does not give way to the
next one, neither does any other of the group: an operator is never kept on the stack only because it is
covered by one that binds more tightly (`not_pops_of_mem_group`).
-/

namespace InfixCalculator

namespace Operator

/-- An operator makes all give way but those that bind less tightly, and a power makes none. -/
lemma pops_eq_false_iff {incoming top : Operator} :
    incoming.pops top = false ↔ top.precedence < incoming.precedence ∨ incoming = .pow := by
  cases incoming with
  | pow => simp
  | add | sub | mul | div => simp [pops, associativity]

/-- An operator that does not make another give way makes none give way that the other spares. -/
lemma pops_eq_false_trans {incoming middle top : Operator} (h : incoming.pops middle = false)
    (h' : middle.pops top = false) : incoming.pops top = false := by
  rw [pops_eq_false_iff] at *
  rcases h with hlt | rfl
  · rcases h' with hlt' | rfl
    · exact Or.inl (hlt'.trans hlt)
    -- nothing binds more tightly than a power
    · cases incoming <;> exact absurd hlt (by decide)
  · exact Or.inr rfl

end Operator

/-- The parentheses that are open after a token, if some are open before it.  The innermost comes
first. -/
def Token.openAfter (waiting : List Token) (token : Token) : List Token :=
  match token.kind with
  | .openParen => token :: waiting
  | .closeParen => waiting.tail
  | _ => waiting

namespace Rpn.Conversion

variable {limits : Limits} {source : Option String} {token opening : Token}
  {config config' : Conversion} {waiting stack : List Token}

/-! ## Parentheses -/

/-- The parentheses on a stack, the innermost first. -/
def opened (stack : List Token) : List Token :=
  stack.filter (·.kind = .openParen)

lemma length_opened (stack : List Token) : (opened stack).length = openGroups stack :=
  List.countP_eq_length_filter.symm

lemma opened_cons_open (h : token.kind = .openParen) (stack : List Token) :
    opened (token :: stack) = token :: opened stack :=
  List.filter_cons_of_pos (by simp [h])

lemma opened_cons_of_ne (h : token.kind ≠ .openParen) (stack : List Token) :
    opened (token :: stack) = opened stack :=
  List.filter_cons_of_neg (by simp [h])

lemma opened_append_of_no_open (h : ∀ token ∈ waiting, token.kind ≠ .openParen)
    (stack : List Token) : opened (waiting ++ stack) = opened stack := by
  have hnone : waiting.filter (·.kind = .openParen) = [] := by
    rw [List.filter_eq_nil_iff]
    simpa using h
  rw [opened, List.filter_append, hnone, List.nil_append, opened]

/-- A token opens or closes a parenthesis on the stack as it does in the text. -/
lemma opened_of_step (h : config.step limits source token = .ok config') :
    opened config'.stack = token.openAfter (opened config.stack) := by
  rcases step_eq_ok h with ⟨hk, rfl⟩ | ⟨hk, -, rfl⟩ | ⟨waiting, opening, stack, hk, ho, hw, hs, rfl⟩ |
    ⟨op, waiting, stack, hk, hw, -, hs, rfl⟩
  · simp [Token.openAfter, hk]
  · simp [Token.openAfter, hk, opened_cons_open hk]
  · rw [hs, opened_append_of_no_open hw, opened_cons_open ho]
    simp [Token.openAfter, hk]
  · have hne : token.kind ≠ .openParen := by simp [hk]
    rw [hs, opened_append_of_no_open (no_open_of_operators hw), opened_cons_of_ne hne]
    simp [Token.openAfter, hk]

/-- Where there is nothing to close, nothing is open. -/
lemma opened_eq_nil_of_closeGroup? {output : Array Token}
    (h : closeGroup? stack output = none) : opened stack = [] := by
  induction stack generalizing output with
  | nil => rfl
  | cons top rest ih =>
    rw [closeGroup?] at h
    split at h
    · exact absurd h (by simp)
    · next htop =>
        rw [opened_cons_of_ne htop]
        exact ih h

/-! ## Operators -/

/-- The innermost group of a stack: what waits above the last parenthesis. -/
def group (stack : List Token) : List Token :=
  stack.takeWhile (·.kind ≠ .openParen)

lemma group_cons_open (h : opening.kind = .openParen) (stack : List Token) :
    group (opening :: stack) = [] := by
  simp [group, h]

lemma group_append (h : ∀ token ∈ waiting, token.kind ≠ .openParen) (stack : List Token) :
    group (waiting ++ stack) = waiting ++ group stack :=
  List.takeWhile_append_of_pos (by simpa using h)

/-- A stack of opening parentheses and operators, where no operator makes one below it in the same group
give way. -/
inductive Ranked : List Token → Prop
  | nil : Ranked []
  | opening {token : Token} {stack : List Token} (hk : token.kind = .openParen) (h : Ranked stack) :
      Ranked (token :: stack)
  | operator {token : Token} {op : Operator} {stack : List Token} (hk : token.kind = .operator op)
      (hgroup : ∀ lower ∈ group stack, ∀ below, lower.kind = .operator below →
        op.pops below = false)
      (h : Ranked stack) : Ranked (token :: stack)

lemma Ranked.of_append (h : Ranked (waiting ++ stack)) : Ranked stack := by
  induction waiting with
  | nil => exact h
  | cons token waiting ih =>
    cases h with
    | opening _ h => exact ih h
    | operator _ _ h => exact ih h

/-- If the top of the stack does not give way, nothing in its group does. -/
lemma not_pops_of_mem_group {incoming op : Operator} (h : Ranked stack)
    (htop : ∀ token ∈ stack.head?, ∀ op, token.kind = .operator op → incoming.pops op = false)
    {lower : Token} (hmem : lower ∈ group stack) (hk : lower.kind = .operator op) :
    incoming.pops op = false := by
  cases h with
  | nil => exact absurd hmem (by simp [group])
  | opening ho _ => exact absurd hmem (by simp [group_cons_open ho])
  | @operator token top stack htoken hgroup _ =>
    have hne : token.kind ≠ .openParen := by simp [htoken]
    have hspared : incoming.pops top = false := htop token rfl top htoken
    rw [← List.singleton_append, group_append (by simpa using hne)] at hmem
    rcases List.mem_append.1 hmem with hmem | hmem
    · obtain rfl := List.mem_singleton.1 hmem
      exact htop lower rfl op hk
    · exact Operator.pops_eq_false_trans hspared (hgroup lower hmem op hk)

lemma ranked_of_step (h : config.step limits source token = .ok config')
    (hr : Ranked config.stack) : Ranked config'.stack := by
  rcases step_eq_ok h with ⟨-, rfl⟩ | ⟨hk, -, rfl⟩ | ⟨waiting, opening, stack, -, -, -, hs, rfl⟩ |
    ⟨op, waiting, stack, hk, -, htop, hs, rfl⟩
  · exact hr
  · exact .opening hk hr
  · rw [hs, ← List.singleton_append, ← List.append_assoc] at hr
    exact hr.of_append
  · rw [hs] at hr
    have hrest : Ranked stack := hr.of_append
    exact .operator hk (fun lower hmem below hb => not_pops_of_mem_group hrest htop hmem hb) hrest

lemma ranked_of_run {tokens : List Token} (h : config.run limits source tokens = .ok config')
    (hr : Ranked config.stack) : Ranked config'.stack := by
  induction tokens generalizing config with
  | nil =>
    cases h
    exact hr
  | cons token rest ih =>
    obtain ⟨next, hstep, hrun⟩ := run_cons_eq_ok_iff.1 h
    exact ih hrun (ranked_of_step hstep hr)

end Rpn.Conversion

end InfixCalculator
