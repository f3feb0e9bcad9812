import InfixCalculator.Rpn.Conversion
import Mathlib.Tactic.Lemma

/-!
# Steps of the conversion

What one token does to a configuration, by the kind of the token, and what happens to a stack on
which operators wait on top of others: they leave it from the top down, and `yieldTo`, `closeGroup?`
and `drain` differ only in what makes them stop.
-/

namespace InfixCalculator

namespace Operator

/-- A left-associative operator lets those go first that bind as tightly as itself. -/
lemma pops_of_le {incoming top : Operator} (ha : incoming.associativity = .left)
    (h : incoming.precedence ≤ top.precedence) : incoming.pops top = true := by
  simpa [pops, ha] using h

/-- No operator lets one go first that binds less tightly than itself. -/
lemma pops_of_lt {incoming top : Operator} (h : top.precedence < incoming.precedence) :
    incoming.pops top = false := by
  cases ha : incoming.associativity with
  | left => simpa [pops, ha] using h
  | right => simpa [pops, ha] using Nat.le_of_lt h

end Operator

namespace Rpn.Conversion

variable {limits : Limits} {source : Option String} {token : Token}

@[simp] lemma run_cons (config : Conversion) (token : Token) (rest : List Token) :
    config.run limits source (token :: rest) =
      match config.step limits source token with
      | .error failure => .error failure
      | .ok config => config.run limits source rest := rfl

/-! ## One token -/

lemma step_literal (h : token.kind = .literal) (config : Conversion) :
    config.step limits source token = .ok { config with output := config.output.push token } := by
  simp only [step, h]

lemma step_open (h : token.kind = .openParen) (config : Conversion) :
    config.step limits source token =
      match limits.check .nestingDepth (config.depth + 1 : Nat) with
      | .error failure => .error failure
      | .ok () => .ok ⟨token :: config.stack, config.output, config.depth + 1⟩ := by
  cases token
  cases h
  rfl

lemma step_close (h : token.kind = .closeParen) (config : Conversion) :
    config.step limits source token =
      match closeGroup? config.stack config.output with
      | some (stack, output) => .ok ⟨stack, output, config.depth - 1⟩
      | none => .error (.atPosition .unmatchedClose token.position source) := by
  cases token
  cases h
  rfl

lemma step_operator {op : Operator} (h : token.kind = .operator op) (config : Conversion) :
    config.step limits source token =
      .ok ⟨token :: (yieldTo op config.stack config.output).1,
        (yieldTo op config.stack config.output).2, config.depth⟩ := by
  simp only [step, h]

/-- A parenthesis may be opened where the nesting is within its limit. -/
lemma step_open_of_le (h : token.kind = .openParen) {config : Conversion}
    (hle : ((config.depth + 1 : Nat) : Int) ≤ limits.nestingDepth) :
    config.step limits source token =
      .ok ⟨token :: config.stack, config.output, config.depth + 1⟩ := by
  rw [step_open h, Limits.check_of_le hle]

/-! ## Operators that wait -/

/-- Moving a token to the output and then others is moving them all. -/
lemma push_append_toArray (output : Array Token) (token : Token) (rest : List Token) :
    output.push token ++ rest.toArray = output ++ (token :: rest).toArray := by
  rw [← Array.toList_inj]
  simp

/-- Operators that give way leave in front of a stack that does not. -/
lemma yieldTo_append {incoming : Operator} {waiting stack : List Token}
    (hw : ∀ token ∈ waiting, ∃ op, token.kind = .operator op ∧ incoming.pops op = true)
    (hs : ∀ token ∈ stack.head?, ∀ op, token.kind = .operator op → incoming.pops op = false)
    (output : Array Token) :
    yieldTo incoming (waiting ++ stack) output = (stack, output ++ waiting.toArray) := by
  induction waiting generalizing output with
  | nil =>
    cases stack with
    | nil => simp [yieldTo]
    | cons top rest =>
      have htop := hs top rfl
      cases hk : top.kind with
      | operator op => simp [yieldTo, hk, Token.Kind.operator?, htop op hk]
      | literal => simp [yieldTo, hk, Token.Kind.operator?]
      | openParen => simp [yieldTo, hk, Token.Kind.operator?]
      | closeParen => simp [yieldTo, hk, Token.Kind.operator?]
  | cons top rest ih =>
    obtain ⟨op, hk, hpop⟩ := hw top List.mem_cons_self
    have hrest := ih (fun token ht => hw token (List.mem_cons_of_mem _ ht)) (output.push top)
    rw [List.cons_append, yieldTo, hk]
    simp only [Token.Kind.operator?, hpop, if_true]
    rw [hrest, push_append_toArray]

/-- Closing a group moves all that waits above its opening parenthesis. -/
lemma closeGroup?_append {opening : Token} (ho : opening.kind = .openParen) {waiting : List Token}
    (hw : ∀ token ∈ waiting, token.kind ≠ .openParen) (stack : List Token) (output : Array Token) :
    closeGroup? (waiting ++ opening :: stack) output = some (stack, output ++ waiting.toArray) := by
  induction waiting generalizing output with
  | nil => simp [closeGroup?, ho]
  | cons top rest ih =>
    have hrest := ih (fun token ht => hw token (List.mem_cons_of_mem _ ht)) (output.push top)
    rw [List.cons_append, closeGroup?, if_neg (hw top List.mem_cons_self), hrest,
      push_append_toArray]

/-- At the end all that waits is moved. -/
lemma drain_of_no_open {waiting : List Token} (hw : ∀ token ∈ waiting, token.kind ≠ .openParen)
    (output : Array Token) : drain source waiting output = .ok (output ++ waiting.toArray) := by
  induction waiting generalizing output with
  | nil => simp [drain]
  | cons top rest ih =>
    have hrest := ih (fun token ht => hw token (List.mem_cons_of_mem _ ht)) (output.push top)
    rw [drain, if_neg (hw top List.mem_cons_self), hrest, push_append_toArray]

/-! ## What a step can do -/

/-- A stack parts into the operators that give way and those that need not. -/
lemma exists_append_yieldTo (incoming : Operator) (stack : List Token) (output : Array Token) :
    ∃ waiting rest, stack = waiting ++ rest ∧
      (∀ token ∈ waiting, ∃ op, token.kind = .operator op ∧ incoming.pops op = true) ∧
      (∀ token ∈ rest.head?, ∀ op, token.kind = .operator op → incoming.pops op = false) ∧
      yieldTo incoming stack output = (rest, output ++ waiting.toArray) := by
  suffices h : ∃ waiting rest, stack = waiting ++ rest ∧
      (∀ token ∈ waiting, ∃ op, token.kind = .operator op ∧ incoming.pops op = true) ∧
      ∀ token ∈ rest.head?, ∀ op, token.kind = .operator op → incoming.pops op = false by
    obtain ⟨waiting, rest, rfl, hw, hr⟩ := h
    exact ⟨waiting, rest, rfl, hw, hr, yieldTo_append hw hr output⟩
  induction stack with
  | nil => exact ⟨[], [], rfl, by simp, by simp⟩
  | cons top stack ih =>
    by_cases htop : ∃ op, top.kind = .operator op ∧ incoming.pops op = true
    · obtain ⟨waiting, rest, rfl, hw, hr⟩ := ih
      exact ⟨top :: waiting, rest, rfl, List.forall_mem_cons.2 ⟨htop, hw⟩, hr⟩
    · refine ⟨[], top :: stack, rfl, by simp, fun token ht op hk => ?_⟩
      cases Option.mem_some_iff.1 ht
      exact Bool.eq_false_iff.2 fun hpops => htop ⟨op, hk, hpops⟩

/-- A group is closed at the innermost of the parentheses that were opened. -/
lemma closeGroup?_eq_some {stack stack' : List Token} {output output' : Array Token}
    (h : closeGroup? stack output = some (stack', output')) :
    ∃ waiting opening, stack = waiting ++ opening :: stack' ∧ opening.kind = .openParen ∧
      (∀ token ∈ waiting, token.kind ≠ .openParen) ∧ output' = output ++ waiting.toArray := by
  induction stack generalizing output with
  | nil => exact absurd h (by simp [closeGroup?])
  | cons top rest ih =>
    by_cases htop : top.kind = .openParen
    · rw [closeGroup?, if_pos htop] at h
      cases h
      exact ⟨[], top, rfl, htop, by simp, by simp⟩
    · rw [closeGroup?, if_neg htop] at h
      obtain ⟨waiting, opening, rfl, ho, hw, rfl⟩ := ih h
      exact ⟨top :: waiting, opening, rfl, ho, List.forall_mem_cons.2 ⟨htop, hw⟩,
        push_append_toArray output top waiting⟩

/-- The stack is drained if no parenthesis is left on it. -/
lemma drain_eq_ok {stack : List Token} {output output' : Array Token}
    (h : drain source stack output = .ok output') :
    (∀ token ∈ stack, token.kind ≠ .openParen) ∧ output' = output ++ stack.toArray := by
  induction stack generalizing output with
  | nil =>
    cases h
    exact ⟨by simp, by simp⟩
  | cons top rest ih =>
    by_cases htop : top.kind = .openParen
    · rw [drain, if_pos htop] at h
      exact absurd h (by simp)
    · rw [drain, if_neg htop] at h
      obtain ⟨hrest, rfl⟩ := ih h
      exact ⟨List.forall_mem_cons.2 ⟨htop, hrest⟩, push_append_toArray output top rest⟩

/-- What a step can do: put out a literal, open a group, close one, or let operators go and have the
next one wait in their place. -/
lemma step_eq_ok {config config' : Conversion} (h : config.step limits source token = .ok config') :
    (token.kind = .literal ∧ config' = { config with output := config.output.push token }) ∨
      (token.kind = .openParen ∧ ((config.depth + 1 : Nat) : Int) ≤ limits.nestingDepth ∧
        config' = ⟨token :: config.stack, config.output, config.depth + 1⟩) ∨
      (∃ waiting opening stack, token.kind = .closeParen ∧ opening.kind = .openParen ∧
        (∀ token ∈ waiting, token.kind ≠ .openParen) ∧
        config.stack = waiting ++ opening :: stack ∧
        config' = ⟨stack, config.output ++ waiting.toArray, config.depth - 1⟩) ∨
      ∃ incoming waiting stack, token.kind = .operator incoming ∧
        (∀ token ∈ waiting, ∃ op, token.kind = .operator op ∧ incoming.pops op = true) ∧
        (∀ token ∈ stack.head?, ∀ op, token.kind = .operator op → incoming.pops op = false) ∧
        config.stack = waiting ++ stack ∧
        config' = ⟨token :: stack, config.output ++ waiting.toArray, config.depth⟩ := by
  cases hk : token.kind with
  | literal =>
    rw [step_literal hk] at h
    exact .inl ⟨rfl, (Except.ok.inj h).symm⟩
  | openParen =>
    rw [step_open hk] at h
    split at h
    · exact absurd h (by simp)
    · next hcheck =>
        have hle := Limits.check_eq_ok_iff.1 hcheck
        exact .inr (.inl ⟨rfl, hle, (Except.ok.inj h).symm⟩)
  | closeParen =>
    rw [step_close hk] at h
    split at h
    · next stack output hclose =>
        obtain ⟨waiting, opening, hstack, ho, hw, rfl⟩ := closeGroup?_eq_some hclose
        exact .inr (.inr (.inl ⟨waiting, opening, stack, rfl, ho, hw, hstack,
          (Except.ok.inj h).symm⟩))
    · exact absurd h (by simp)
  | operator incoming =>
    obtain ⟨waiting, stack, hstack, hw, hs, hyield⟩ :=
      exists_append_yieldTo incoming config.stack config.output
    rw [step_operator hk, hyield] at h
    exact .inr (.inr (.inr ⟨incoming, waiting, stack, rfl, hw, hs, hstack,
      (Except.ok.inj h).symm⟩))

/-- How a step can fail: by opening a group that is nested too deeply, or closing one that is not
open. -/
lemma step_eq_error {config : Conversion} {failure : Failure}
    (h : config.step limits source token = .error failure) :
    (token.kind = .openParen ∧
        limits.check .nestingDepth (config.depth + 1 : Nat) = .error failure) ∨
      (token.kind = .closeParen ∧ closeGroup? config.stack config.output = none ∧
        failure = .atPosition .unmatchedClose token.position source) := by
  cases hk : token.kind with
  | literal =>
    rw [step_literal hk] at h
    exact absurd h (by simp)
  | openParen =>
    rw [step_open hk] at h
    split at h
    · next hcheck => exact .inl ⟨rfl, by rw [hcheck, Except.error.inj h]⟩
    · exact absurd h (by simp)
  | closeParen =>
    rw [step_close hk] at h
    split at h
    · exact absurd h (by simp)
    · next hclose => exact .inr ⟨rfl, hclose, (Except.error.inj h).symm⟩
  | operator op =>
    rw [step_operator hk] at h
    exact absurd h (by simp)

lemma run_cons_eq_ok_iff {config config' : Conversion} {rest : List Token} :
    config.run limits source (token :: rest) = .ok config' ↔
      ∃ next, config.step limits source token = .ok next ∧
        next.run limits source rest = .ok config' := by
  rw [run_cons]
  cases config.step limits source token with
  | error failure => simp
  | ok next => simp

lemma run_append_eq_ok_iff {config config' : Conversion} {s t : List Token} :
    config.run limits source (s ++ t) = .ok config' ↔
      ∃ middle, config.run limits source s = .ok middle ∧
        middle.run limits source t = .ok config' := by
  rw [run_append]
  cases config.run limits source s with
  | error failure => simp
  | ok middle => simp

end Rpn.Conversion

/-- A conversion fails while the tokens are read, or at the group that is open in the end. -/
lemma Rpn.ofInfix_eq_error {limits : Limits} {source : Option String} {tokens : List Token}
    {failure : Failure} (h : ofInfix limits source tokens = .error failure) :
    Conversion.initial.run limits source tokens = .error failure ∨
      ∃ config, Conversion.initial.run limits source tokens = .ok config ∧
        Conversion.drain source config.stack config.output = .error failure := by
  unfold ofInfix at h
  split at h
  · next hrun =>
      cases h
      exact Or.inl hrun
  · next config hrun =>
      split at h
      · next hdrain =>
          cases h
          exact Or.inr ⟨config, hrun, hdrain⟩
      · exact absurd h (by simp)

end InfixCalculator
