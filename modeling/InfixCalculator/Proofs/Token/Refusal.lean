import InfixCalculator.Proofs.Token.Faithful

/-!
# What the scan refuses

Two faults compete in a scan, a token too many and a character that can be part of no token.  Which of
them is reported is decided by the text before the first such character (`foreignIndex`).  Its tokens
are those of a text of its own, but a literal that goes up to the character is not counted, for nothing
has ended it (`complete`).  So the answer of the scan follows from the one faithful segmentation of that
text, under all limits (`tokenize_eq_refusal`).
-/

namespace InfixCalculator.Token

variable {position : Int} {pending s t : List Char} {c : Char}

/-- Whether a character can be part of no token: it is neither a separator nor a symbol, nor is it
printable. -/
def isForeign (c : Char) : Bool :=
  !isBoundary c && !Text.isPrintable c

/-- The index of the first foreign character of a text; the length of the text if there is none. -/
def foreignIndex (s : List Char) : Nat :=
  s.findIdx isForeign

/-- The tokens that are complete when a scan stops at a position: a literal that goes up to there is
not. -/
def completeAt (position : Int) (tokens : List Token) : List Token :=
  tokens.filter fun token => !(token.kind = .literal && token.stop = position)

/-- The tokens that a scan completes, among those before the first foreign character. -/
def complete (s : List Char) (tokens : List Token) : List Token :=
  if foreignIndex s < s.length then completeAt (foreignIndex s) tokens else tokens

/-! ## Up to the first foreign character -/

lemma completeAt_literalToken (position : Int) (pending : List Char) :
    completeAt position (literalToken position pending) = [] := by
  cases pending with
  | nil => rfl
  | cons c rest => simp [completeAt, literalToken, Token.stop]

/-- A literal that a boundary has ended does not go up to a later position. -/
lemma completeAt_append_boundary {later : Int} (h : position < later) (pending : List Char)
    (c : Char) (tokens : List Token) :
    completeAt later (literalToken position pending ++ symbolToken position c ++ tokens) =
      literalToken position pending ++ symbolToken position c ++ completeAt later tokens := by
  have hkeep : ∀ token ∈ literalToken position pending ++ symbolToken position c,
      (!(token.kind = .literal && token.stop = later)) = true := by
    intro token ht
    rcases List.mem_append.1 ht with ht | ht
    · cases pending with
      | nil => exact absurd ht (by simp)
      | cons d rest =>
        obtain rfl : token = _ := List.mem_singleton.1 ht
        have hstop : position ≠ later := by omega
        simpa [Token.stop] using hstop
    · unfold symbolToken at ht
      split at ht
      · next kind hkind =>
          obtain rfl : token = _ := List.mem_singleton.1 ht
          have hne : kind ≠ .literal := fun hk => ofSymbol?_ne_literal c (hk ▸ hkind)
          simp [hne]
      · exact absurd ht (by simp)
  rw [completeAt, List.filter_append, List.filter_eq_self.2 hkeep]
  rfl

/-- A text without foreign characters is scanned to its end. -/
lemma stop_eq_none (h : ∀ c ∈ s, isForeign c = false) : (segments position pending s).stop = none := by
  fun_induction segments position pending s with
  | case1 position pending => rfl
  | case2 position pending c rest hb ih => exact ih (List.forall_mem_cons.1 h).2
  | case3 position pending c rest hb hp ih => exact ih (List.forall_mem_cons.1 h).2
  | case4 position pending c rest hb hp =>
    have hc := (List.forall_mem_cons.1 h).1
    exact absurd hc (by simp [isForeign, hb, hp])

/-- At a foreign character those of the tokens before it remain that are complete. -/
lemma segments_append_foreign (ht : ∀ d ∈ t, isForeign d = false) (hc : isForeign c = true)
    (rest : List Char) :
    segments position pending (t ++ c :: rest) =
      ⟨completeAt (position + t.length) (segments position pending t).tokens,
        some (c, position + t.length)⟩ := by
  obtain ⟨hcb, hcp⟩ : isBoundary c = false ∧ Text.isPrintable c = false := by
    simpa [isForeign] using hc
  induction t generalizing position pending with
  | nil =>
    have hplace : position + ([] : List Char).length = position := by simp
    rw [List.nil_append, segments_stop hcb hcp, hplace, segments, completeAt_literalToken]
  | cons d t ih =>
    obtain ⟨hd, ht⟩ := List.forall_mem_cons.1 ht
    have hmove : position + (d :: t).length = position + 1 + t.length := by
      rw [List.length_cons]
      omega
    rw [List.cons_append, hmove]
    by_cases hb : isBoundary d = true
    · rw [segments_boundary hb, segments_boundary hb, ih ht, Segments.prepend, Segments.prepend,
        completeAt_append_boundary (by omega)]
    · have hb' : isBoundary d = false := by simpa using hb
      have hp : Text.isPrintable d = true := by simpa [isForeign, hb'] using hd
      rw [segments_literal hb' hp, segments_literal hb' hp, ih ht]

/-- The tokens of a text are the complete ones among those before its first foreign character, and they
end at that character. -/
lemma segments_eq_complete (s : List Char) :
    ∃ tokens, Faithful 0 (s.take (foreignIndex s)) tokens ∧
      segments 0 [] s = ⟨complete s tokens,
        s[foreignIndex s]?.map fun c => (c, (foreignIndex s : Int))⟩ := by
  have hclean : ∀ d ∈ s.take (foreignIndex s), isForeign d = false := by
    intro d hd
    obtain ⟨k, hk, rfl⟩ := List.mem_take_iff_getElem.1 hd
    exact List.not_of_lt_findIdx (by rw [foreignIndex] at hk; omega)
  have hbefore : segments 0 [] (s.take (foreignIndex s)) =
      ⟨(segments 0 [] (s.take (foreignIndex s))).tokens, none⟩ :=
    congrArg (Segments.mk _) (stop_eq_none hclean)
  refine ⟨_, faithful_iff_segments_eq.2 hbefore, ?_⟩
  by_cases hlt : foreignIndex s < s.length
  · have hsplit : s.take (foreignIndex s) ++ s[foreignIndex s] :: s.drop (foreignIndex s + 1) = s := by
      rw [← List.drop_eq_getElem_cons hlt, List.take_append_drop]
    have hforeign : isForeign s[foreignIndex s] = true := List.findIdx_getElem
    have hlength : (s.take (foreignIndex s)).length = foreignIndex s := by
      rw [List.length_take]
      omega
    have hstop : segments 0 [] _ = _ :=
      segments_append_foreign hclean hforeign (s.drop (foreignIndex s + 1))
    rw [hsplit, hlength, Int.zero_add] at hstop
    rw [hstop, complete, if_pos hlt, List.getElem?_eq_getElem hlt]
    rfl
  · have hall : s.take (foreignIndex s) = s := List.take_of_length_le (Nat.not_lt.1 hlt)
    rw [hall] at hbefore
    rw [complete, if_neg hlt, List.getElem?_eq_none (Nat.not_lt.1 hlt), hall]
    exact hbefore

/-- The answer of the scan, for every expression and all limits.  An expression that is too long is
refused whatever it holds.  Otherwise take the faithful segmentation of the text before the first foreign
character.  If too many of its tokens are complete, this is reported, with a count that exceeds the bound
by one; a negative bound counts as zero here.  If not, the foreign character is reported, and without one
the tokens are returned. -/
theorem tokenize_eq_refusal (limits : Limits) (source : String) :
    ∃ tokens, Faithful 0 (source.toList.take (foreignIndex source.toList)) tokens ∧
      tokenize limits source =
        if limits.expressionLength < source.length then
          .error (.beyond Limit.expressionLength.name limits.expressionLength source.length)
        else if max limits.tokenCount 0 < (complete source.toList tokens).length then
          .error (.beyond Limit.tokenCount.name limits.tokenCount (max limits.tokenCount 0 + 1))
        else
          match source.toList[foreignIndex source.toList]? with
          | some c =>
            .error (.atPosition (.invalidCharacter (String.singleton c))
              (foreignIndex source.toList) (some source))
          | none => .ok tokens := by
  obtain ⟨tokens, hfaithful, hsegments⟩ := segments_eq_complete source.toList
  refine ⟨tokens, hfaithful, ?_⟩
  rw [tokenize_eq_verdict, hsegments]
  by_cases hlong : limits.expressionLength < source.length
  · have hcheck : limits.checkLength source = .error _ := Limits.check_of_lt hlong
    rw [hcheck, if_pos hlong]
    rfl
  · have hcheck : limits.checkLength source = .ok () := Limits.check_of_le (Int.not_lt.1 hlong)
    rw [hcheck, if_neg hlong]
    simp only [Segments.verdict]
    by_cases hmany : max limits.tokenCount 0 < (complete source.toList tokens).length
    · have hcount : ((limits.tokenCount.toNat + 1 : Nat) : Int) = max limits.tokenCount 0 + 1 := by
        omega
      rw [if_pos (by omega), if_pos hmany, tooMany, hcount]
    · rw [if_neg (by omega), if_neg hmany]
      by_cases hforeign : foreignIndex source.toList < source.toList.length
      · rw [List.getElem?_eq_getElem hforeign]
        rfl
      · rw [List.getElem?_eq_none (Nat.not_lt.1 hforeign), complete, if_neg hforeign]
        rfl

/-- The last literal of `1+1+1` is one token too many, but before a foreign character it is not counted. -/
example :
    tokenize { tokenCount := 4 } "1+1+1\x00" =
        .error (.atPosition (.invalidCharacter "\x00") 5 (some "1+1+1\x00")) ∧
      tokenize { tokenCount := 4 } "1+1+1 \x00" = .error (.beyond "max_token_count" 4 5) :=
  ⟨rfl, rfl⟩

/-- A bound below zero does not refuse a text without tokens, although there are more than it admits:
the tokens are counted only when one of them is completed. -/
theorem not_forall_tokenize_eq_tooMany :
    ¬∀ (limits : Limits) (source : String) (tokens : List Token),
      (source.length : Int) ≤ limits.expressionLength →
      Faithful 0 (source.toList.take (foreignIndex source.toList)) tokens →
      limits.tokenCount < (complete source.toList tokens).length →
      tokenize limits source =
        .error (.beyond Limit.tokenCount.name limits.tokenCount (max limits.tokenCount 0 + 1)) := by
  intro h
  have hempty : tokenize { tokenCount := -1 } "" = .ok [] := rfl
  have hrefused := h { tokenCount := -1 } "" [] (by decide) (Faithful.nil 0) (by decide)
  rw [hempty] at hrefused
  exact absurd hrefused (by simp)

end InfixCalculator.Token
