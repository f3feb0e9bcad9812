import InfixCalculator.Proofs.Conversion.Group
import InfixCalculator.Proofs.Conversion.Stack
import Mathlib.Data.List.Infix

/-!
# What holds all along a conversion

A conversion passes through the configurations after each of its tokens.  Between two of them, and after
the last, operators leave the stack for the output one by one, and these are configurations as well
(`Visits`).  In each of them the stack is what the tokens that have been read make of it (`Invariant`).
Its parentheses are those that are not closed among these tokens.  What is closed in a token list is told
by counting (`Token.LeavesOpen`), with no stack: a parenthesis is open as long as the tokens after it
have closed no more than they have opened.  Between parentheses the operators bind more tightly the higher
they wait.

Every step keeps the invariant (`Invariant.step`), and so does an operator that leaves
(`Invariant.move`), whether `yieldTo`, `closeGroup?` or `drain` moves it.
-/

namespace InfixCalculator

/-- The operators that need not give way bind no more tightly, and as tightly only if both are powers. -/
lemma Operator.pops_eq_false_iff_precedence {incoming top : Operator} :
    incoming.pops top = false ↔
      top.precedence ≤ incoming.precedence ∧
        (top.precedence = incoming.precedence → top = .pow ∧ incoming = .pow) := by
  cases incoming <;> cases top <;> decide

namespace Token

/-! ## Parentheses that are not closed -/

/-- The tokens do not close a parenthesis that stands before all of them: however many of them are read,
they close no more parentheses than they open. -/
def LeavesOpen (tokens : List Token) : Prop :=
  ∀ front ∈ tokens.inits,
    front.countP (·.kind = .closeParen) ≤ front.countP (·.kind = .openParen)

instance (tokens : List Token) : Decidable (LeavesOpen tokens) :=
  inferInstanceAs (Decidable (∀ front ∈ tokens.inits, _))

/-- The opening parentheses of a list that are not closed in it, in their order. -/
def unclosed : List Token → List Token
  | [] => []
  | token :: rest =>
    if token.kind = .openParen ∧ LeavesOpen rest then token :: unclosed rest else unclosed rest

/-- How many parentheses the tokens close that stand before all of them. -/
def closings : List Token → Nat
  | [] => 0
  | token :: rest =>
    match token.kind with
    | .openParen => closings rest - 1
    | .closeParen => closings rest + 1
    | _ => closings rest

variable {token : Token} {tokens : List Token}

/-- The tokens close no more than a number of parentheses before them if they never close more than this
number and those that they open. -/
lemma closings_le_iff {bound : Nat} :
    closings tokens ≤ bound ↔ ∀ front ∈ tokens.inits,
      front.countP (·.kind = .closeParen) ≤ front.countP (·.kind = .openParen) + bound := by
  induction tokens generalizing bound with
  | nil => simp [closings]
  | cons token rest ih =>
    rw [List.inits_cons, List.forall_mem_cons, List.forall_mem_map]
    cases hk : token.kind with
    | literal => simp [closings, hk, ih]
    | operator op => simp [closings, hk, ih]
    | openParen =>
      have hbound : closings rest - 1 ≤ bound ↔ closings rest ≤ bound + 1 := by omega
      simp [closings, hk, hbound, ih, Nat.add_right_comm, Nat.add_assoc]
    | closeParen =>
      cases bound with
      -- the first token closes one already
      | zero =>
        refine iff_of_false (by simp [closings, hk]) fun h => ?_
        have hfirst := h.2 [] (by simp)
        simp [hk] at hfirst
      | succ bound => simp [closings, hk, ih, ← Nat.add_assoc]

lemma leavesOpen_iff : LeavesOpen tokens ↔ closings tokens = 0 := by
  rw [← Nat.le_zero, closings_le_iff]
  rfl

lemma unclosed_cons_open (h : token.kind = .openParen) :
    unclosed (token :: tokens) =
      if closings tokens = 0 then token :: unclosed tokens else unclosed tokens := by
  simp only [unclosed, leavesOpen_iff, h, true_and]

lemma unclosed_cons_of_ne (h : token.kind ≠ .openParen) :
    unclosed (token :: tokens) = unclosed tokens := by
  rw [unclosed, if_neg fun hc => h hc.1]

/-- What the second part of a concatenation closes is open in the first part, or stands before it. -/
lemma closings_append (s t : List Token) :
    closings (s ++ t) = closings s + (closings t - (unclosed s).length) := by
  induction s with
  | nil => simp [closings, unclosed]
  | cons token s ih =>
    rw [List.cons_append]
    by_cases hk : token.kind = .openParen
    · rw [unclosed_cons_open hk]
      simp only [closings, hk, ih]
      split
      · rw [List.length_cons]
        omega
      · omega
    · rw [unclosed_cons_of_ne hk, closings, ih, closings]
      split
      · next hopen => exact absurd hopen hk
      · omega
      · rfl

/-- The parentheses that are not closed in a concatenation are those of the second part, and those of
the first that the second leaves open.  The last one comes first here. -/
lemma reverse_unclosed_append (s t : List Token) :
    (unclosed (s ++ t)).reverse =
      (unclosed t).reverse ++ (unclosed s).reverse.drop (closings t) := by
  induction s with
  | nil => simp [unclosed]
  | cons token s ih =>
    rw [List.cons_append]
    by_cases hk : token.kind = .openParen
    · rw [unclosed_cons_open hk, unclosed_cons_open hk, closings_append]
      by_cases hs : closings s = 0
      · rw [if_pos hs]
        by_cases ht : closings t ≤ (unclosed s).length
        · have hleft : closings t ≤ (unclosed s).reverse.length := by rwa [List.length_reverse]
          rw [if_pos (by omega), List.reverse_cons, List.reverse_cons, ih,
            List.drop_append_of_le_length hleft, List.append_assoc]
        -- the second part closes all that is open in the first, the new parenthesis included
        · have hnone : (unclosed s).reverse.length ≤ closings t := by
            rw [List.length_reverse]
            omega
          have hnone' : (token :: unclosed s).reverse.length ≤ closings t := by
            rw [List.length_reverse, List.length_cons]
            omega
          rw [if_neg (by omega), ih, List.drop_of_length_le hnone, List.drop_of_length_le hnone']
      · rw [if_neg (by omega), if_neg hs, ih]
    · rw [unclosed_cons_of_ne hk, unclosed_cons_of_ne hk, ih]

/-- One more token opens a parenthesis or closes the last one that is open. -/
lemma reverse_unclosed_concat (tokens : List Token) (token : Token) :
    (unclosed (tokens ++ [token])).reverse = token.openAfter (unclosed tokens).reverse := by
  rw [reverse_unclosed_append]
  cases hk : token.kind <;> simp [unclosed, closings, openAfter, leavesOpen_iff, hk]

/-- In `)(()(` the parentheses at the positions 1 and 4 are not closed. -/
example : unclosed [⟨.closeParen, ")", 0⟩, ⟨.openParen, "(", 1⟩, ⟨.openParen, "(", 2⟩,
    ⟨.closeParen, ")", 3⟩, ⟨.openParen, "(", 4⟩] =
      [⟨.openParen, "(", 1⟩, ⟨.openParen, "(", 4⟩] := by
  decide

/-- If both tokens are operators, the one above binds more tightly than the one below, or both are
powers. -/
def Outranks (above below : Token) : Prop :=
  ∀ op op', above.kind = .operator op → below.kind = .operator op' →
    op'.precedence ≤ op.precedence ∧
      (op'.precedence = op.precedence → op' = .pow ∧ op = .pow)

end Token

namespace Rpn.Conversion

open Token

variable {limits : Limits} {source : Option String} {token : Token}
  {tokens read stack : List Token} {config config' : Conversion}

/-! ## Runs of operators -/

/-- What waits between two parentheses, above the last or below the first.  The uppermost run comes
first, and each from the top down. -/
def runs (stack : List Token) : List (List Token) :=
  stack.splitOnP (·.kind = .openParen)

lemma runs_cons_open (h : token.kind = .openParen) (stack : List Token) :
    runs (token :: stack) = [] :: runs stack := by
  rw [runs, List.splitOnP_cons_eq_if_modifyHead, if_pos (by simpa using h), runs]

lemma runs_cons_of_ne (h : token.kind ≠ .openParen) (stack : List Token) :
    runs (token :: stack) = (runs stack).modifyHead (token :: ·) := by
  rw [runs, List.splitOnP_cons_eq_if_modifyHead, if_neg (by simpa using h), runs]

/-- The uppermost run is the innermost group. -/
lemma exists_runs_eq (stack : List Token) : ∃ lower, runs stack = group stack :: lower := by
  induction stack with
  | nil => exact ⟨[], rfl⟩
  | cons token stack ih =>
    obtain ⟨lower, hruns⟩ := ih
    by_cases hk : token.kind = .openParen
    · exact ⟨runs stack, by rw [runs_cons_open hk, group_cons_open hk]⟩
    · have hno : ∀ t ∈ [token], t.kind ≠ .openParen := by simpa using hk
      have hgroup : group (token :: stack) = token :: group stack := group_append hno stack
      exact ⟨lower, by rw [runs_cons_of_ne hk, hruns, List.modifyHead_cons, hgroup]⟩

/-- An operator is put on top of a run if it outranks all of it. -/
lemma forall_runs_cons_iff (h : token.kind ≠ .openParen) :
    (∀ run ∈ runs (token :: stack), run.Pairwise Outranks) ↔
      (∀ lower ∈ group stack, token.Outranks lower) ∧
        ∀ run ∈ runs stack, run.Pairwise Outranks := by
  obtain ⟨lower, hruns⟩ := exists_runs_eq stack
  rw [runs_cons_of_ne h, hruns, List.modifyHead_cons, List.forall_mem_cons, List.forall_mem_cons,
    List.pairwise_cons, and_assoc]

lemma Ranked.kinds (h : Ranked stack) :
    ∀ token ∈ stack, token.kind = .openParen ∨ ∃ op, token.kind = .operator op := by
  induction h with
  | nil => simp
  | opening hk _ ih => exact List.forall_mem_cons.2 ⟨.inl hk, ih⟩
  | operator hk _ _ ih => exact List.forall_mem_cons.2 ⟨.inr ⟨_, hk⟩, ih⟩

lemma Ranked.pairwise (h : Ranked stack) : ∀ run ∈ runs stack, run.Pairwise Outranks := by
  induction h with
  | nil => simp [runs]
  | opening hk _ ih =>
    rw [runs_cons_open hk, List.forall_mem_cons]
    exact ⟨List.Pairwise.nil, ih⟩
  | @operator token top stack hk hgroup _ ih =>
    rw [forall_runs_cons_iff (by simp [hk])]
    refine ⟨fun lower hmem op op' hop hop' => ?_, ih⟩
    obtain rfl : top = op := by simpa [hk] using hop
    exact Operator.pops_eq_false_iff_precedence.1 (hgroup lower hmem op' hop')

/-- A stack of parentheses and operators is ranked if in each of its runs the operators outrank those
below them. -/
lemma ranked_of_runs
    (hkinds : ∀ token ∈ stack, token.kind = .openParen ∨ ∃ op, token.kind = .operator op)
    (hruns : ∀ run ∈ runs stack, run.Pairwise Outranks) : Ranked stack := by
  induction stack with
  | nil => exact .nil
  | cons token stack ih =>
    obtain ⟨hkind, hkinds⟩ := List.forall_mem_cons.1 hkinds
    rcases hkind with hk | ⟨op, hk⟩
    · rw [runs_cons_open hk, List.forall_mem_cons] at hruns
      exact .opening hk (ih hkinds hruns.2)
    · obtain ⟨hgroup, hruns⟩ := (forall_runs_cons_iff (by simp [hk])).1 hruns
      refine .operator hk (fun lower hmem below hbelow => ?_) (ih hkinds hruns)
      exact Operator.pops_eq_false_iff_precedence.2 (hgroup lower hmem op below hk hbelow)

/-! ## The invariant -/

/-- What a configuration has to do with the tokens that have been read. -/
structure Invariant (read : List Token) (config : Conversion) : Prop where
  /-- Nothing but opening parentheses and operators wait. -/
  kinds : ∀ token ∈ config.stack, token.kind = .openParen ∨ ∃ op, token.kind = .operator op
  /-- The depth is the number of the parentheses that wait. -/
  depth_eq : config.depth = openGroups config.stack
  /-- From the bottom up, the parentheses that wait are those that have been read and not closed. -/
  opened_eq : (opened config.stack).reverse = unclosed read
  /-- Between parentheses, an operator binds more tightly than those below it, unless both are powers. -/
  pairwise : ∀ run ∈ runs config.stack, run.Pairwise Outranks
  /-- What has been read is in the output or waits, each token as often as it has been read, but for
  parentheses. -/
  perm : config.contents.Perm (read.filter (!·.isParenthesis))

namespace Invariant

lemma ranked (h : Invariant read config) : Ranked config.stack :=
  ranked_of_runs h.kinds h.pairwise

lemma initial : Invariant [] initial where
  kinds := by simp [Conversion.initial]
  depth_eq := rfl
  opened_eq := rfl
  pairwise := by simp [Conversion.initial, runs]
  perm := by simp [contents, Conversion.initial]

/-- A token that is taken in keeps the invariant. -/
lemma step (h : Invariant read config) (hstep : config.step limits source token = .ok config') :
    Invariant (read ++ [token]) config' := by
  have hranked := ranked_of_step hstep h.ranked
  have hopened : opened config'.stack = (unclosed (read ++ [token])).reverse := by
    rw [opened_of_step hstep, reverse_unclosed_concat, ← h.opened_eq, List.reverse_reverse]
  refine ⟨hranked.kinds, depth_eq_of_step hstep h.depth_eq, List.reverse_eq_iff.2 hopened,
    hranked.pairwise, ?_⟩
  rw [List.filter_append]
  exact (contents_of_step hstep).trans (h.perm.append_right _)

/-- An operator that leaves the stack for the output keeps the invariant. -/
lemma move {top : Token} {output : Array Token} {depth : Nat}
    (h : Invariant read ⟨top :: stack, output, depth⟩) (hk : top.kind ≠ .openParen) :
    Invariant read ⟨stack, output.push top, depth⟩ := by
  have htop : Ranked ([top] ++ stack) := h.ranked
  have hranked : Ranked stack := htop.of_append
  have hdepth := h.depth_eq
  have hopened := h.opened_eq
  have hcontents : (⟨stack, output.push top, depth⟩ : Conversion).contents =
      (⟨top :: stack, output, depth⟩ : Conversion).contents := by
    simp [contents, hk]
  simp only [openGroups_cons_of_ne hk] at hdepth
  simp only [opened_cons_of_ne hk] at hopened
  exact ⟨hranked.kinds, hdepth, hopened, hranked.pairwise, hcontents ▸ h.perm⟩

lemma run (h : Invariant read config) (hrun : config.run limits source tokens = .ok config') :
    Invariant (read ++ tokens) config' := by
  induction tokens generalizing read config with
  | nil =>
    cases hrun
    simpa using h
  | cons token rest ih =>
    obtain ⟨next, hstep, hrun⟩ := run_cons_eq_ok_iff.1 hrun
    simpa using ih (h.step hstep) hrun

end Invariant

/-! ## A whole conversion -/

/-- The configurations that the conversion of a token list passes through, with the tokens that have been
read until then.  An operator, a closing parenthesis and the end of the list make some of the operators on
top leave the stack before anything else is done; they leave one after the other. -/
inductive Visits (limits : Limits) (source : Option String) (tokens : List Token) :
    List Token → Conversion → Prop
  /-- Some of the tokens have been taken in. -/
  | read {before after : List Token} {config : Conversion} (hsplit : tokens = before ++ after)
      (hrun : initial.run limits source before = .ok config) :
      Visits limits source tokens before config
  /-- The top of the stack, which is no parenthesis, has been moved to the output. -/
  | move {before stack : List Token} {top : Token} {output : Array Token} {depth : Nat}
      (h : Visits limits source tokens before ⟨top :: stack, output, depth⟩)
      (hk : top.kind ≠ .openParen) :
      Visits limits source tokens before ⟨stack, output.push top, depth⟩

lemma Visits.invariant (h : Visits limits source tokens read config) : Invariant read config := by
  induction h with
  | read _ hrun => exact Invariant.initial.run hrun
  | move _ hk ih => exact ih.move hk

/-- Several of the operators on top leave one after the other. -/
lemma Visits.moves {waiting : List Token} {output : Array Token} {depth : Nat}
    (h : Visits limits source tokens read ⟨waiting ++ stack, output, depth⟩)
    (hw : ∀ token ∈ waiting, token.kind ≠ .openParen) :
    Visits limits source tokens read ⟨stack, output ++ waiting.toArray, depth⟩ := by
  induction waiting generalizing output with
  | nil => simpa using h
  | cons top rest ih =>
    obtain ⟨htop, hrest⟩ := List.forall_mem_cons.1 hw
    rw [← push_append_toArray]
    exact ih (h.move htop) hrest

/-- Whatever the tokens and the limits are, and whether the conversion succeeds in the end or not, the
invariant holds of every configuration that it passes through.  If it succeeds, it ends in one of them,
with an empty stack and with its answer for the output. -/
theorem invariant_of_visits (limits : Limits) (source : Option String) (tokens : List Token) :
    (∀ read config, Visits limits source tokens read config → Invariant read config) ∧
      ∀ rpn, ofInfix limits source tokens = .ok rpn →
        ∃ config, Visits limits source tokens tokens config ∧ config.stack = [] ∧
          config.output.toList = rpn := by
  refine ⟨fun read config h => h.invariant, fun rpn h => ?_⟩
  obtain ⟨⟨stack, output, depth⟩, hrun, hopen, rfl⟩ := ofInfix_eq_ok h
  have hno : ∀ token ∈ stack, token.kind ≠ .openParen := openGroups_eq_zero_iff.1 hopen
  have hread : Visits limits source tokens tokens ⟨stack ++ [], output, depth⟩ := by
    rw [List.append_nil]
    exact .read (List.append_nil tokens).symm hrun
  refine ⟨_, hread.moves hno, rfl, ?_⟩
  rw [contents, filter_of_no_open hno, Array.toList_append]

/-- The tokens of `1*2^3^(4-5*6`. -/
def groupTokens : List Token :=
  [⟨.literal, "1", 0⟩, ⟨.operator .mul, "*", 1⟩, ⟨.literal, "2", 2⟩, ⟨.operator .pow, "^", 3⟩,
    ⟨.literal, "3", 4⟩, ⟨.operator .pow, "^", 5⟩, ⟨.openParen, "(", 6⟩, ⟨.literal, "4", 7⟩,
    ⟨.operator .sub, "-", 8⟩, ⟨.literal, "5", 9⟩, ⟨.operator .mul, "*", 10⟩, ⟨.literal, "6", 11⟩]

/-- At the end of `1*2^3^(4-5*6`, when one operator has left and the conversion has not failed yet; and
if the tokens up to the parenthesis are all. -/
theorem invariant_of_visits_sample :
    (∃ config, Visits {} none groupTokens groupTokens config ∧
      config.stack.map Token.text = ["-", "(", "^", "^", "*"] ∧
      config.output.toList.map Token.text = ["1", "2", "3", "4", "5", "6", "*"] ∧
      Invariant groupTokens config) ∧
    ∃ config, Visits {} none (groupTokens.take 6) (groupTokens.take 6) config ∧
      config.output.toList.map Token.text = ["1", "2", "3", "^", "^", "*"] := by
  have hread : Visits {} none groupTokens groupTokens
      ⟨[⟨.operator .mul, "*", 10⟩, ⟨.operator .sub, "-", 8⟩, ⟨.openParen, "(", 6⟩,
          ⟨.operator .pow, "^", 5⟩, ⟨.operator .pow, "^", 3⟩, ⟨.operator .mul, "*", 1⟩],
        #[⟨.literal, "1", 0⟩, ⟨.literal, "2", 2⟩, ⟨.literal, "3", 4⟩, ⟨.literal, "4", 7⟩,
          ⟨.literal, "5", 9⟩, ⟨.literal, "6", 11⟩], 1⟩ :=
    .read (List.append_nil groupTokens).symm rfl
  have hmove := hread.move (by decide)
  obtain ⟨hinvariant, -⟩ := invariant_of_visits {} none groupTokens
  obtain ⟨-, hend⟩ := invariant_of_visits {} none (groupTokens.take 6)
  obtain ⟨config, hvisits, -, houtput⟩ := hend _ rfl
  exact ⟨⟨_, hmove, rfl, rfl, hinvariant _ _ hmove⟩, config, hvisits, by rw [houtput]; rfl⟩

end Rpn.Conversion

end InfixCalculator
