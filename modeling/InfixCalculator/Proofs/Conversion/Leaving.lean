import InfixCalculator.Proofs.Conversion.Stack
import InfixCalculator.Proofs.Grammar.Nesting

/-!
# When an operator leaves the stack

An operator waits until a token of its own group dismisses it (`GivesWay`): the parenthesis that closes
the group, or an operator to which it gives way.  Before that it stays, with all that comes after it
above it (`stays_of_step`); then it goes, whatever is above it (`leaves_of_step`).  What leaves the stack
goes to the output, and the top goes first (`exists_contents_eq_of_run`).

So of two tokens the later one comes out first exactly if the earlier one is an operator that has not
been dismissed when the later one is read.
-/

namespace InfixCalculator

namespace Token

variable {top : Operator} {token : Token} {rest : List Token} {depth : Nat}

/-- The token dismisses an operator that waits in its group: it closes the group, or it is an operator to
which the other gives way. -/
def Dismisses (top : Operator) (token : Token) : Prop :=
  token.kind = .closeParen ∨ ∃ op, token.kind = .operator op ∧ op.pops top = true

/-- One of the tokens dismisses an operator before them.  The tokens between the two close all
parentheses that they open and `depth` more, and no others, so both are in one group if there are
`depth` parentheses between them already. -/
def GivesWay (top : Operator) (depth : Nat) (tokens : List Token) : Prop :=
  ∃ between token after, tokens = between ++ token :: after ∧ closes depth between = true ∧
    token.Dismisses top

lemma closes_cons_iff :
    closes depth (token :: rest) = true ↔
      ¬(depth = 0 ∧ token.kind = .closeParen) ∧ closes (token.kind.shift depth) rest = true := by
  cases hk : token.kind <;> simp [closes, Kind.shift, hk]

@[simp] lemma not_givesWay_nil : ¬GivesWay top depth [] := by
  rintro ⟨between, token, after, h, -⟩
  exact absurd h (by simp)

/-- Whether the operator gives way is decided at the first token, if that dismisses it, and otherwise
after that. -/
lemma givesWay_cons_iff :
    GivesWay top depth (token :: rest) ↔
      (depth = 0 ∧ token.Dismisses top) ∨
        ¬(depth = 0 ∧ token.kind = .closeParen) ∧
          GivesWay top (token.kind.shift depth) rest := by
  constructor
  · rintro ⟨between, dismissing, after, h, hclose, hdismiss⟩
    cases between with
    | nil =>
      obtain ⟨rfl, rfl⟩ := List.cons.inj h
      exact Or.inl ⟨by simpa [closes] using hclose, hdismiss⟩
    | cons first between =>
      obtain ⟨rfl, rfl⟩ := List.cons.inj h
      obtain ⟨hnot, hclose⟩ := closes_cons_iff.1 hclose
      exact Or.inr ⟨hnot, between, dismissing, after, rfl, hclose, hdismiss⟩
  · rintro (⟨rfl, hdismiss⟩ | ⟨hnot, between, dismissing, after, rfl, hclose, hdismiss⟩)
    · exact ⟨[], token, rest, rfl, rfl, hdismiss⟩
    · exact ⟨token :: between, dismissing, after, rfl, closes_cons_iff.2 ⟨hnot, hclose⟩, hdismiss⟩

lemma givesWay_cons_of_not (h : ¬(depth = 0 ∧ token.Dismisses top)) :
    GivesWay top depth (token :: rest) ↔ GivesWay top (token.kind.shift depth) rest := by
  have hnot : ¬(depth = 0 ∧ token.kind = .closeParen) := fun hc => h ⟨hc.1, Or.inl hc.2⟩
  rw [givesWay_cons_iff]
  constructor
  · rintro (hdismiss | ⟨-, hrest⟩)
    · exact absurd hdismiss h
    · exact hrest
  · exact fun hrest => Or.inr ⟨hnot, hrest⟩

/-- An operator that has not given way to some tokens gives way to those after them, or not at all. -/
lemma givesWay_append_of_not {s t : List Token} (h : ¬GivesWay top depth s) :
    GivesWay top depth (s ++ t) ↔ GivesWay top (depthAfter depth s) t := by
  induction s generalizing depth with
  | nil => rfl
  | cons token s ih =>
    have hnot : ¬(depth = 0 ∧ token.Dismisses top) := fun hc => h (givesWay_cons_iff.2 (Or.inl hc))
    rw [givesWay_cons_of_not hnot] at h
    rw [List.cons_append, givesWay_cons_of_not hnot, depthAfter_cons]
    exact ih h

lemma givesWay_append_left {s : List Token} (h : GivesWay top depth s) (t : List Token) :
    GivesWay top depth (s ++ t) := by
  obtain ⟨between, token, after, rfl, hclose, hdismiss⟩ := h
  exact ⟨between, token, after ++ t, by simp, hclose, hdismiss⟩

end Token

namespace Rpn.Conversion

open Token

variable {limits : Limits} {source : Option String} {token operator : Token} {top : Operator}
  {config config' : Conversion} {above below tokens : List Token}

/-! ## Staying and leaving -/

/-- What is taken from the top of a stack is above an element that is not among it. -/
lemma exists_of_append_eq {waiting stack : List Token}
    (h : above ++ operator :: below = waiting ++ stack)
    (hnot : ∀ covered, waiting ≠ above ++ operator :: covered) :
    ∃ rest, above = waiting ++ rest ∧ stack = rest ++ operator :: below := by
  rcases List.append_eq_append_iff.1 h with ⟨covered, hwaiting, hstack⟩ | ⟨rest, habove, hstack⟩
  · cases covered with
    | nil => exact ⟨[], by simpa using hwaiting.symm, by simpa using hstack.symm⟩
    | cons first covered =>
      obtain ⟨rfl, -⟩ := List.cons.inj hstack
      exact absurd hwaiting (hnot covered)
  · exact ⟨rest, habove, hstack⟩

/-- An operator that is not dismissed stays where it is, below what has come after it. -/
lemma stays_of_step (h : config.step limits source token = .ok config')
    (hs : config.stack = above ++ operator :: below) (ho : operator.kind = .operator top)
    (hnot : ¬(openGroups above = 0 ∧ token.Dismisses top)) :
    ∃ above', config'.stack = above' ++ operator :: below ∧
      openGroups above' = token.kind.shift (openGroups above) ∧
      ∀ op, token.kind = .operator op → ∃ rest, above' = token :: rest := by
  rcases step_eq_ok h with ⟨hk, rfl⟩ | ⟨hk, -, rfl⟩ |
    ⟨waiting, opening, stack, hk, hopen, hw, hsplit, rfl⟩ |
    ⟨op, waiting, stack, hk, hw, -, hsplit, rfl⟩
  · exact ⟨above, hs, by simp [hk, Kind.shift], by simp [hk]⟩
  · refine ⟨token :: above, by simp [hs], ?_, by simp [hk]⟩
    rw [openGroups_cons_open hk, hk]
    rfl
  -- the parenthesis that is closed is above the operator, or the operator would be dismissed
  · have hpos : openGroups above ≠ 0 := fun hzero => hnot ⟨hzero, Or.inl hk⟩
    have hcovered (covered : List Token) : waiting ≠ above ++ operator :: covered := fun hwaiting =>
      hpos (openGroups_eq_zero_iff.2 fun t ht => hw t (by simp [hwaiting, ht]))
    obtain ⟨rest, habove, hrest⟩ := exists_of_append_eq (hs.symm.trans hsplit) hcovered
    cases rest with
    | nil =>
      obtain ⟨rfl, -⟩ := List.cons.inj hrest
      rw [ho] at hopen
      exact absurd hopen (by simp)
    | cons first rest =>
      obtain ⟨rfl, hstack⟩ := List.cons.inj hrest
      refine ⟨rest, hstack, ?_, by simp [hk]⟩
      rw [habove, openGroups_append, openGroups_eq_zero_iff.2 hw, openGroups_cons_open hopen, hk,
        Kind.shift]
      omega
  -- operators that give way are above the operator, or it would give way as well
  · have hno := no_open_of_operators hw
    have hcovered (covered : List Token) : waiting ≠ above ++ operator :: covered := by
      intro hwaiting
      obtain ⟨op', hop', hpops⟩ := hw operator (by simp [hwaiting])
      rw [ho] at hop'
      cases hop'
      exact hnot ⟨openGroups_eq_zero_iff.2 fun t ht => hno t (by simp [hwaiting, ht]),
        Or.inr ⟨op, hk, hpops⟩⟩
    obtain ⟨rest, habove, hstack⟩ := exists_of_append_eq (hs.symm.trans hsplit) hcovered
    refine ⟨token :: rest, by simp [hstack], ?_, fun _ _ => ⟨rest, rfl⟩⟩
    rw [openGroups_cons_of_ne (by simp [hk]), habove, openGroups_append,
      openGroups_eq_zero_iff.2 hno, Nat.zero_add, hk]
    rfl

/-- An operator that is dismissed goes to the output, for nothing above it in its group stays. -/
lemma leaves_of_step (h : config.step limits source token = .ok config')
    (hr : Ranked config.stack) (hs : config.stack = above ++ operator :: below)
    (ho : operator.kind = .operator top) (hgroup : openGroups above = 0)
    (hdismiss : token.Dismisses top) : operator ∈ config'.output.toList := by
  have hno : ∀ t ∈ above ++ [operator], t.kind ≠ .openParen := by
    intro t ht
    rcases List.mem_append.1 ht with ht | ht
    · exact openGroups_eq_zero_iff.1 hgroup t ht
    · rw [List.mem_singleton.1 ht, ho]
      simp
  have hmem : operator ∈ group config.stack := by
    have hsplit : above ++ operator :: below = above ++ [operator] ++ below := by simp
    rw [hs, hsplit, group_append hno]
    simp
  rcases step_eq_ok h with ⟨hk, -⟩ | ⟨hk, -⟩ | ⟨waiting, opening, stack, -, hopen, hw, hsplit, rfl⟩ |
    ⟨op, waiting, stack, hk, hw, htop, hsplit, rfl⟩
  · exact absurd hdismiss (by simp [Dismisses, hk])
  · exact absurd hdismiss (by simp [Dismisses, hk])
  · rw [hsplit, group_append hw, group_cons_open hopen, List.append_nil] at hmem
    simp [hmem]
  · have hpops : op.pops top = true := by
      rcases hdismiss with hclose | ⟨op', hop', hpops⟩
      · rw [hk] at hclose
        exact absurd hclose (by simp)
      · rw [hk] at hop'
        cases hop'
        exact hpops
    rw [hsplit] at hr
    rw [hsplit, group_append (no_open_of_operators hw)] at hmem
    rcases List.mem_append.1 hmem with hmem | hmem
    · simp [hmem]
    · have hspared := not_pops_of_mem_group hr.of_append htop hmem ho
      rw [hpops] at hspared
      exact absurd hspared (by simp)

lemma stays_of_run (h : config.run limits source tokens = .ok config')
    (hs : config.stack = above ++ operator :: below) (ho : operator.kind = .operator top)
    (hnot : ¬GivesWay top (openGroups above) tokens) :
    ∃ above', config'.stack = above' ++ operator :: below ∧
      openGroups above' = depthAfter (openGroups above) tokens := by
  induction tokens generalizing config above with
  | nil =>
    cases h
    exact ⟨above, hs, rfl⟩
  | cons token rest ih =>
    obtain ⟨next, hstep, hrun⟩ := run_cons_eq_ok_iff.1 h
    have hnow : ¬(openGroups above = 0 ∧ token.Dismisses top) :=
      fun hc => hnot (givesWay_cons_iff.2 (Or.inl hc))
    obtain ⟨above', hs', hopen, -⟩ := stays_of_step hstep hs ho hnow
    rw [givesWay_cons_of_not hnow, ← hopen] at hnot
    rw [depthAfter_cons, ← hopen]
    exact ih hrun hs' hnot

/-! ## The output -/

/-- The output is added to at its end. -/
lemma output_prefix_of_step (h : config.step limits source token = .ok config') :
    config.output.toList <+: config'.output.toList := by
  rcases step_eq_ok h with ⟨-, rfl⟩ | ⟨-, -, rfl⟩ | ⟨_, _, _, -, -, -, -, rfl⟩ |
    ⟨_, _, _, -, -, -, -, rfl⟩ <;> simp

lemma output_prefix_of_run (h : config.run limits source tokens = .ok config') :
    config.output.toList <+: config'.output.toList := by
  induction tokens generalizing config with
  | nil =>
    cases h
    exact List.prefix_rfl
  | cons token rest ih =>
    obtain ⟨next, hstep, hrun⟩ := run_cons_eq_ok_iff.1 h
    exact (output_prefix_of_step hstep).trans (ih hrun)

lemma leaves_of_run (h : config.run limits source tokens = .ok config') (hr : Ranked config.stack)
    (hs : config.stack = above ++ operator :: below) (ho : operator.kind = .operator top)
    (hway : GivesWay top (openGroups above) tokens) : operator ∈ config'.output.toList := by
  induction tokens generalizing config above with
  | nil => exact absurd hway not_givesWay_nil
  | cons token rest ih =>
    obtain ⟨next, hstep, hrun⟩ := run_cons_eq_ok_iff.1 h
    by_cases hnow : openGroups above = 0 ∧ token.Dismisses top
    · exact (output_prefix_of_run hrun).subset (leaves_of_step hstep hr hs ho hnow.1 hnow.2)
    · obtain ⟨above', hs', hopen, -⟩ := stays_of_step hstep hs ho hnow
      rw [givesWay_cons_of_not hnow, ← hopen] at hway
      exact ih hrun (ranked_of_step hstep hr) hs' hway

/-- What there is in the end comes after what has been put out before.  Among it are the operators that
wait, from the top down, and the tokens that are still to be read. -/
lemma exists_contents_eq_of_run (h : config.run limits source tokens = .ok config') :
    ∃ rest, config'.contents = config.output.toList ++ rest ∧
      (config.stack.filter (·.kind ≠ .openParen)).Sublist rest ∧
      ∀ token ∈ tokens, token.isParenthesis = false → token ∈ rest := by
  suffices hstack : ∃ rest, config'.contents = config.output.toList ++ rest ∧
      (config.stack.filter (·.kind ≠ .openParen)).Sublist rest by
    obtain ⟨rest, hcontents, hsublist⟩ := hstack
    refine ⟨rest, hcontents, hsublist, fun token ht hp => ?_⟩
    have hperm := contents_of_run h
    rw [hcontents, contents, List.append_assoc, List.perm_append_left_iff] at hperm
    exact hperm.mem_iff.2 (List.mem_append_right _ (List.mem_filter.2 ⟨ht, by simp [hp]⟩))
  induction tokens generalizing config with
  | nil =>
    cases h
    exact ⟨_, rfl, List.Sublist.refl _⟩
  | cons token tokens ih =>
    obtain ⟨next, hstep, hrun⟩ := run_cons_eq_ok_iff.1 h
    obtain ⟨rest, hcontents, hsublist⟩ := ih hrun
    rcases step_eq_ok hstep with ⟨hk, rfl⟩ | ⟨hk, -, rfl⟩ |
      ⟨waiting, opening, stack, hk, hopen, hw, hs, rfl⟩ | ⟨op, waiting, stack, hk, hw, -, hs, rfl⟩
    · exact ⟨token :: rest, by simp [hcontents], hsublist.trans (List.sublist_cons_self token rest)⟩
    · rw [List.filter_cons_of_neg (by simp [hk])] at hsublist
      exact ⟨rest, hcontents, hsublist⟩
    · refine ⟨waiting ++ rest, by simp [hcontents], ?_⟩
      rw [hs, List.filter_append, filter_of_no_open hw, List.filter_cons_of_neg (by simp [hopen])]
      exact hsublist.append_left waiting
    · refine ⟨waiting ++ rest, by simp [hcontents], ?_⟩
      rw [List.filter_cons_of_pos (by simp [hk])] at hsublist
      rw [hs, List.filter_append, filter_of_no_open (no_open_of_operators hw)]
      exact ((List.sublist_cons_self _ _).trans hsublist).append_left waiting

/-- What has been put out comes before what waits and what is still to be read. -/
lemma pair_sublist_of_run {first second : Token}
    (h : config.run limits source tokens = .ok config') (hfirst : first ∈ config.output.toList)
    (hsecond : second ∈ config.stack ∨ second ∈ tokens) (hp : second.isParenthesis = false) :
    [first, second].Sublist config'.contents := by
  obtain ⟨rest, hcontents, hsublist, hmem⟩ := exists_contents_eq_of_run h
  have hne : second.kind ≠ .openParen := by
    simp only [isParenthesis, Bool.or_eq_false_iff, decide_eq_false_iff_not] at hp
    exact hp.1
  have hrest : second ∈ rest := by
    rcases hsecond with hstack | htokens
    · exact hsublist.subset (List.mem_filter.2 ⟨hstack, by simpa using hne⟩)
    · exact hmem second htokens hp
  rw [hcontents, ← List.singleton_append]
  exact (List.singleton_sublist.2 hfirst).append (List.singleton_sublist.2 hrest)

end Rpn.Conversion

end InfixCalculator
