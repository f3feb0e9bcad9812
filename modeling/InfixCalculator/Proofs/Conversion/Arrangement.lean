import InfixCalculator.Proofs.Computation.Relocation
import InfixCalculator.Proofs.Conversion.Leaving
import Mathlib.Data.List.Basic
import Mathlib.Data.List.Nodup

/-!
# The order of the output

Whatever the order of a token list, its conversion, if it succeeds, puts out every token but the
parentheses exactly once, and of any two of them the list says which comes first (`Arranged`).  A literal
comes before all that is read after it.  An operator comes before a later token exactly if it has given
way when that token has been read.

Equal tokens may stand at several places of a list, so the order is one of places, not of tokens.  The
places are taken along through the conversion as positions (`numbered`), which it does not look at.
-/

namespace InfixCalculator

open Token

/-- The order lists the places of all tokens but the parentheses, as the conversion arranges them. -/
structure Arranged (tokens : List Token) (order : List Nat) : Prop where
  /-- No place is listed twice. -/
  nodup : order.Nodup
  /-- The places of parentheses are left out, and no others. -/
  mem_iff : ∀ i, i ∈ order ↔ ∃ token, tokens[i]? = some token ∧ token.isParenthesis = false
  /-- A literal comes before all that is read after it. -/
  literal : ∀ {i j token}, i < j → tokens[i]? = some token → token.kind = .literal → j ∈ order →
    order.idxOf i < order.idxOf j
  /-- An operator comes before a later token exactly if one of the tokens after it, up to that token,
  closes its group or is an operator of its group to which it gives way. -/
  operator : ∀ {i j token op}, i < j → tokens[i]? = some token → token.kind = .operator op →
    j ∈ order →
      (order.idxOf i < order.idxOf j ↔ GivesWay op 0 ((tokens.drop (i + 1)).take (j - i)))

namespace Rpn

namespace Conversion

variable {limits : Limits} {source : Option String} {first second : Token}
  {before between after tokens rpn : List Token}

/-! ## Two tokens -/

/-- The configuration in which an operator has just been read. -/
lemma exists_run_operator {op : Operator} (ho : first.kind = .operator op)
    (h : ofInfix limits source (before ++ first :: after) = .ok rpn) :
    ∃ (config last : Conversion) (below : List Token),
      config.stack = [] ++ first :: below ∧ Ranked config.stack ∧
        config.run limits source after = .ok last ∧ last.contents = rpn := by
  obtain ⟨last, hrun, -, rfl⟩ := ofInfix_eq_ok h
  obtain ⟨start, hbefore, hrun⟩ := run_append_eq_ok_iff.1 hrun
  obtain ⟨config, hstep, hrun⟩ := run_cons_eq_ok_iff.1 hrun
  have hranked := ranked_of_step hstep (ranked_of_run hbefore .nil)
  rw [step_operator ho] at hstep
  cases hstep
  exact ⟨_, last, _, rfl, hranked, hrun, rfl⟩

/-- A literal comes before all that is read after it. -/
lemma pair_sublist_of_literal (h : ofInfix limits source (before ++ first :: after) = .ok rpn)
    (hl : first.kind = .literal) (hmem : second ∈ after) (hp : second.isParenthesis = false) :
    [first, second].Sublist rpn := by
  obtain ⟨last, hrun, -, rfl⟩ := ofInfix_eq_ok h
  obtain ⟨start, -, hrun⟩ := run_append_eq_ok_iff.1 hrun
  obtain ⟨config, hstep, hrun⟩ := run_cons_eq_ok_iff.1 hrun
  rw [step_literal hl] at hstep
  cases hstep
  exact pair_sublist_of_run hrun (by simp) (Or.inr hmem) hp

/-- An operator that has given way comes before the token that is read then. -/
lemma pair_sublist_of_givesWay {op : Operator}
    (h : ofInfix limits source (before ++ first :: (between ++ second :: after)) = .ok rpn)
    (ho : first.kind = .operator op) (hp : second.isParenthesis = false)
    (hway : GivesWay op 0 (between ++ [second])) : [first, second].Sublist rpn := by
  obtain ⟨config, last, below, hs, hranked, hrun, rfl⟩ := exists_run_operator ho h
  obtain ⟨middle, hmiddle, hafter⟩ := run_append_eq_ok_iff.1 hrun
  by_cases hbetween : GivesWay op 0 between
  · have hleft := leaves_of_run hmiddle hranked hs ho hbetween
    exact pair_sublist_of_run hafter hleft (Or.inr List.mem_cons_self) hp
  -- it has given way to the later token, which is an operator then and waits itself
  · have hdismiss : second.Dismisses op := by
      rw [givesWay_append_of_not hbetween, givesWay_cons_iff] at hway
      rcases hway with ⟨-, hdismiss⟩ | ⟨-, hnil⟩
      · exact hdismiss
      · exact absurd hnil not_givesWay_nil
    obtain ⟨next, hstep, hafter⟩ := run_cons_eq_ok_iff.1 hafter
    have hnext : config.run limits source (between ++ [second]) = .ok next :=
      run_append_eq_ok_iff.2 ⟨middle, hmiddle, run_cons_eq_ok_iff.2 ⟨next, hstep, rfl⟩⟩
    have hleft := leaves_of_run hnext hranked hs ho hway
    rcases hdismiss with hclose | ⟨op', hop', -⟩
    · exact absurd hp (by simp [isParenthesis, hclose])
    · rw [step_operator hop'] at hstep
      cases hstep
      exact pair_sublist_of_run hafter hleft (Or.inl List.mem_cons_self) hp

/-- An operator that has not given way comes after the token that is read then. -/
lemma pair_sublist_of_not_givesWay {op : Operator}
    (h : ofInfix limits source (before ++ first :: (between ++ second :: after)) = .ok rpn)
    (ho : first.kind = .operator op) (hp : second.isParenthesis = false)
    (hway : ¬GivesWay op 0 (between ++ [second])) : [second, first].Sublist rpn := by
  have hfirst : first.isParenthesis = false := by simp [isParenthesis, ho]
  have hbetween : ¬GivesWay op 0 between := fun hc => hway (givesWay_append_left hc _)
  obtain ⟨config, last, below, hs, -, hrun, rfl⟩ := exists_run_operator ho h
  obtain ⟨middle, hmiddle, hrun⟩ := run_append_eq_ok_iff.1 hrun
  obtain ⟨next, hstep, hafter⟩ := run_cons_eq_ok_iff.1 hrun
  obtain ⟨above, hs, hopen⟩ := stays_of_run hmiddle hs ho hbetween
  have hnow : ¬(openGroups above = 0 ∧ second.Dismisses op) := by
    intro hc
    rw [givesWay_append_of_not hbetween] at hway
    exact hway (givesWay_cons_iff.2 (Or.inl ⟨hopen ▸ hc.1, hc.2⟩))
  obtain ⟨above', hs', -, hcover⟩ := stays_of_step hstep hs ho hnow
  cases hk : second.kind with
  | literal =>
    rw [step_literal hk] at hstep
    cases hstep
    exact pair_sublist_of_run hafter (by simp) (Or.inl (by simp [hs])) hfirst
  -- an operator waits above the first one, and the top of the stack goes first
  | operator op' =>
    obtain ⟨rest, rfl⟩ := hcover op' hk
    obtain ⟨out, hcontents, hsublist, -⟩ := exists_contents_eq_of_run hafter
    have hpair : [second, first].Sublist (next.stack.filter (·.kind ≠ .openParen)) := by
      rw [hs', List.cons_append, List.filter_cons_of_pos (by simp [hk])]
      refine List.Sublist.cons_cons second (List.singleton_sublist.2 (List.mem_filter.2 ⟨?_, ?_⟩))
      · simp
      · simp [ho]
    rw [hcontents]
    exact (hpair.trans hsublist).trans (List.sublist_append_right _ _)
  | openParen => exact absurd hp (by simp [isParenthesis, hk])
  | closeParen => exact absurd hp (by simp [isParenthesis, hk])

end Conversion

/-! ## Places -/

variable {limits : Limits} {source : Option String} {tokens rpn : List Token}

/-- The token with a place in a list as its position. -/
def placedAt (place : Nat) (token : Token) : Token :=
  { token with position := place }

lemma isParenthesis_placedAt (place : Nat) (token : Token) :
    (placedAt place token).isParenthesis = token.isParenthesis := rfl

/-- The tokens with their places in the list as positions. -/
def numbered (tokens : List Token) : List Token :=
  tokens.mapIdx placedAt

/-- The position of the token at a place. -/
def positionAt (tokens : List Token) (place : Int) : Int :=
  (tokens[place.toNat]?.map Token.position).getD 0

lemma getElem?_numbered (tokens : List Token) (i : Nat) :
    (numbered tokens)[i]? = tokens[i]?.map (placedAt i) :=
  List.getElem?_mapIdx

/-- A token at its place becomes the token of the list if it gets its position back. -/
lemma getElem?_eq_relocate {token : Token} (h : token ∈ numbered tokens) :
    tokens[token.position.toNat]? = some (token.relocate (positionAt tokens)) := by
  obtain ⟨i, hi⟩ := List.mem_iff_getElem?.1 h
  rw [getElem?_numbered, Option.map_eq_some_iff] at hi
  obtain ⟨original, ho, rfl⟩ := hi
  simp [placedAt, Token.relocate, positionAt, ho]

lemma map_relocate_numbered (tokens : List Token) :
    (numbered tokens).map (Token.relocate (positionAt tokens)) = tokens := by
  refine List.ext_getElem? fun i => ?_
  rw [List.getElem?_map, getElem?_numbered]
  cases h : tokens[i]? with
  | none => rfl
  | some token => simp [placedAt, Token.relocate, positionAt, h]

lemma nodup_position_numbered (tokens : List Token) :
    ((numbered tokens).map fun token => token.position.toNat).Nodup := by
  have hplaces : (numbered tokens).map (fun token => token.position.toNat) =
      List.range tokens.length := by
    refine List.ext_getElem? fun i => ?_
    rw [List.getElem?_map, getElem?_numbered]
    by_cases hi : i < tokens.length
    · simp [placedAt, hi]
    · simp [Nat.not_lt.1 hi]
  rw [hplaces]
  exact List.nodup_range

/-- Moved failures of the work on an expression are failures of that work at other positions. -/
lemma moves_relocate_self (limits : Limits) (source : Option String) (f : Int → Int) :
    Failure.Moves limits source source f (Failure.relocate f (source.getD "")) where
  placed _ _ := by cases source <;> rfl
  overall _ := by cases source <;> rfl
  exceeded _ h := h.relocate_eq

/-- The conversion takes the places along. -/
lemma ofInfix_numbered (h : ofInfix limits source tokens = .ok rpn) :
    ∃ placed, ofInfix limits source (numbered tokens) = .ok placed ∧
      placed.map (Token.relocate (positionAt tokens)) = rpn := by
  have hmoved := ofInfix_relocate (moves_relocate_self limits source (positionAt tokens))
    (numbered tokens)
  rw [map_relocate_numbered, h] at hmoved
  cases hplaced : ofInfix limits source (numbered tokens) with
  | error failure =>
    rw [hplaced] at hmoved
    exact absurd hmoved (by simp [Except.map])
  | ok placed =>
    rw [hplaced] at hmoved
    exact ⟨placed, rfl, (Except.ok.inj hmoved).symm⟩

/-- A list parts at one of its places. -/
lemma eq_take_append_cons {token : Token} {i : Nat} (h : tokens[i]? = some token) :
    tokens = tokens.take i ++ token :: tokens.drop (i + 1) := by
  obtain ⟨hi, rfl⟩ := List.getElem?_eq_some_iff.1 h
  rw [← List.drop_eq_getElem_cons hi, List.take_append_drop]

/-- A list parts at two of its places. -/
lemma exists_eq_append_cons {first second : Token} {i j : Nat} (hij : i < j)
    (hi : tokens[i]? = some first) (hj : tokens[j]? = some second) :
    ∃ before between after, tokens = before ++ first :: (between ++ second :: after) ∧
      (tokens.drop (i + 1)).take (j - i) = between ++ [second] := by
  obtain ⟨d, rfl⟩ : ∃ d, j = i + 1 + d := ⟨j - i - 1, by omega⟩
  have hj' : (tokens.drop (i + 1))[d]? = some second := by rwa [List.getElem?_drop]
  have hlength : i + 1 + d - i = d + 1 := by omega
  refine ⟨tokens.take i, (tokens.drop (i + 1)).take d, (tokens.drop (i + 1)).drop (d + 1), ?_, ?_⟩
  · rw [← eq_take_append_cons hj']
    exact eq_take_append_cons hi
  · rw [hlength, List.take_add_one, hj']
    rfl

/-- Whether an operator gives way does not depend on positions. -/
lemma givesWay_relocate {top : Operator} {f : Int → Int} {depth : Nat} :
    GivesWay top depth (tokens.map (Token.relocate f)) ↔ GivesWay top depth tokens := by
  induction tokens generalizing depth with
  | nil => rfl
  | cons token tokens ih =>
    rw [List.map_cons, givesWay_cons_iff, givesWay_cons_iff, relocate_kind, ih]
    rfl

/-- In a list without repetitions, what stands before another has the smaller place. -/
lemma idxOf_lt_of_pair_sublist {order : List Nat} {i j : Nat} (hn : order.Nodup)
    (h : [i, j].Sublist order) : order.idxOf i < order.idxOf j := by
  obtain ⟨front, back, rfl, hi, hback⟩ := List.cons_sublist_iff.1 h
  have hj : j ∈ back := List.singleton_sublist.1 hback
  have hnot : j ∉ front := fun hmem => List.disjoint_of_nodup_append hn hmem hj
  have hlt := List.idxOf_lt_length_iff.2 hi
  rw [List.idxOf_append_of_mem hi, List.idxOf_append_of_notMem hnot]
  omega

variable {placed : List Token}

/-- The positions of tokens that are places in a list. -/
def places (placed : List Token) : List Nat :=
  placed.map fun token => token.position.toNat

lemma getElem?_numbered_of_some {token : Token} {i : Nat} (h : tokens[i]? = some token) :
    (numbered tokens)[i]? = some (placedAt i token) := by
  rw [getElem?_numbered, h]
  rfl

lemma nodup_places (h : placed.Perm ((numbered tokens).filter (!·.isParenthesis))) :
    (places placed).Nodup := by
  rw [places, (h.map _).nodup_iff]
  exact (List.filter_sublist.map _).nodup (nodup_position_numbered tokens)

lemma mem_places_iff (h : placed.Perm ((numbered tokens).filter (!·.isParenthesis))) (i : Nat) :
    i ∈ places placed ↔ ∃ token, tokens[i]? = some token ∧ token.isParenthesis = false := by
  rw [places, (h.map _).mem_iff, List.mem_map]
  constructor
  · rintro ⟨token, ht, rfl⟩
    obtain ⟨hmem, hp⟩ := List.mem_filter.1 ht
    have hkind : (token.relocate (positionAt tokens)).isParenthesis = token.isParenthesis := rfl
    exact ⟨_, getElem?_eq_relocate hmem, by simpa [hkind] using hp⟩
  · rintro ⟨token, hi, hp⟩
    have hmem := List.mem_of_getElem? (getElem?_numbered_of_some hi)
    exact ⟨placedAt i token, List.mem_filter.2 ⟨hmem, by simpa [isParenthesis_placedAt] using hp⟩,
      Int.toNat_natCast i⟩

/-- Two tokens in the order of the output have their places in this order. -/
lemma idxOf_lt_of_pair_placed {first second : Token} {i j : Nat}
    (h : placed.Perm ((numbered tokens).filter (!·.isParenthesis)))
    (hpair : [placedAt i first, placedAt j second].Sublist placed) :
    (places placed).idxOf i < (places placed).idxOf j := by
  have hplaces : [i, j] = places [placedAt i first, placedAt j second] := by
    simp [places, placedAt]
  refine idxOf_lt_of_pair_sublist (nodup_places h) ?_
  rw [hplaces]
  exact hpair.map _

/-- The places of a list that has been converted together with them. -/
lemma arranged_places (h : ofInfix limits source (numbered tokens) = .ok placed) :
    Arranged tokens (places placed) where
  nodup := nodup_places (ofInfix_perm h)
  mem_iff := mem_places_iff (ofInfix_perm h)
  literal := by
    intro i j first hij hi hl hj
    obtain ⟨second, hsecond, hp⟩ := (mem_places_iff (ofInfix_perm h) j).1 hj
    obtain ⟨before, between, after, hsplit, -⟩ := exists_eq_append_cons hij
      (getElem?_numbered_of_some hi) (getElem?_numbered_of_some hsecond)
    have hperm := ofInfix_perm h
    rw [hsplit] at h
    have hmem : placedAt j second ∈ between ++ placedAt j second :: after := by simp
    exact idxOf_lt_of_pair_placed hperm (Conversion.pair_sublist_of_literal h hl hmem hp)
  operator := by
    intro i j first op hij hi ho hj
    obtain ⟨second, hsecond, hp⟩ := (mem_places_iff (ofInfix_perm h) j).1 hj
    obtain ⟨before, between, after, hsplit, hsegment⟩ := exists_eq_append_cons hij
      (getElem?_numbered_of_some hi) (getElem?_numbered_of_some hsecond)
    have hperm := ofInfix_perm h
    have htokens : (tokens.drop (i + 1)).take (j - i) =
        (between ++ [placedAt j second]).map (Token.relocate (positionAt tokens)) := by
      rw [← hsegment, List.map_take, List.map_drop, map_relocate_numbered]
    rw [hsplit] at h
    rw [htokens, givesWay_relocate]
    constructor
    · intro hlt
      by_contra hway
      have hpair := Conversion.pair_sublist_of_not_givesWay h ho hp hway
      have hgt := idxOf_lt_of_pair_placed hperm hpair
      omega
    · intro hway
      exact idxOf_lt_of_pair_placed hperm (Conversion.pair_sublist_of_givesWay h ho hp hway)

/-- If the conversion of a token list succeeds, whatever its tokens are, the output consists of the
tokens that are no parentheses, each as often as it is in the list.  Taken by their places, they come in
the order that the list prescribes. -/
theorem ofInfix_arranged (h : ofInfix limits source tokens = .ok rpn) :
    rpn.Perm (tokens.filter (!·.isParenthesis)) ∧
      ∃ order, Arranged tokens order ∧ order.map (tokens[·]?) = rpn.map some := by
  obtain ⟨placed, hplaced, rfl⟩ := ofInfix_numbered h
  refine ⟨ofInfix_perm h, places placed, arranged_places hplaced, ?_⟩
  rw [places, List.map_map, List.map_map]
  refine List.map_congr_left fun token ht => ?_
  exact getElem?_eq_relocate (List.mem_filter.1 ((ofInfix_perm hplaced).mem_iff.1 ht)).1

/-- The tokens of `-1^(+1)1*` with no position known, so that the literals are equal. -/
def equalTokens : List Token :=
  [⟨.operator .sub, "-", 0⟩, ⟨.literal, "1", 0⟩, ⟨.operator .pow, "^", 0⟩, ⟨.openParen, "(", 0⟩,
    ⟨.operator .add, "+", 0⟩, ⟨.literal, "1", 0⟩, ⟨.closeParen, ")", 0⟩, ⟨.literal, "1", 0⟩,
    ⟨.operator .mul, "*", 0⟩]

/-- The product makes the power before the group give way, but not the difference. -/
theorem ofInfix_arranged_sample :
    ofInfix {} none equalTokens =
        .ok [⟨.literal, "1", 0⟩, ⟨.literal, "1", 0⟩, ⟨.operator .add, "+", 0⟩, ⟨.literal, "1", 0⟩,
          ⟨.operator .pow, "^", 0⟩, ⟨.operator .mul, "*", 0⟩, ⟨.operator .sub, "-", 0⟩] ∧
      ∃ order, Arranged equalTokens order ∧ order.length = 7 := by
  have hconvert : ofInfix {} none equalTokens =
      .ok [⟨.literal, "1", 0⟩, ⟨.literal, "1", 0⟩, ⟨.operator .add, "+", 0⟩, ⟨.literal, "1", 0⟩,
        ⟨.operator .pow, "^", 0⟩, ⟨.operator .mul, "*", 0⟩, ⟨.operator .sub, "-", 0⟩] := rfl
  obtain ⟨-, order, harranged, hmap⟩ := ofInfix_arranged hconvert
  have hlength := congrArg List.length hmap
  rw [List.length_map, List.length_map] at hlength
  exact ⟨hconvert, order, harranged, hlength⟩

end Rpn

end InfixCalculator
