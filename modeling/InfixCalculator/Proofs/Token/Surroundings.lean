import InfixCalculator.Proofs.Token.Spelling

/-!
# What stands around a token

A text is cut in three by each of its tokens: what stands before the token, the text of the token, and
what stands after it (`StandsApart`).  A literal is cut off on both sides by a separator, a symbol or
an end of the text, so no other character of a literal stands next to it.  This is proved along the
scan, for the literal that is being read is preceded by a boundary at any time
(`standsApart_of_mem_segments`).

Where the scan ends early, it is at a character that can be part of no token (`mem_of_stop`).
-/

namespace InfixCalculator.Token

/-- In a text whose first character stands at the position `start`, the text of the token stands at the
token's position, and no character of a literal stands next to a literal. -/
def StandsApart (start : Int) (s : List Char) (token : Token) : Prop :=
  ∃ before after, s = before ++ token.text.toList ++ after ∧
    token.position = start + before.length ∧
    (token.kind = .literal →
      (∀ c ∈ before.getLast?, isBoundary c = true) ∧ ∀ c ∈ after.head?, isBoundary c = true)

variable {token : Token} {position : Int} {pending s : List Char} {c : Char}

/-- A character that is read as a kind of token is the symbol of that kind. -/
lemma symbol?_of_ofSymbol? {kind : Kind} (h : Kind.ofSymbol? c = some kind) :
    kind.symbol? = some c := by
  unfold Kind.ofSymbol? at h
  split at h
  · next hc =>
      cases h
      rw [beq_iff_eq.1 hc]
      rfl
  · split at h
    · next hc =>
        cases h
        rw [beq_iff_eq.1 hc]
        rfl
    · obtain ⟨op, hop, rfl⟩ := Option.map_eq_some_iff.1 h
      unfold Operator.ofSymbol? at hop
      split at hop <;> cases hop <;> rfl

/-- A text may be put in front that ends with a boundary. -/
lemma StandsApart.append {start : Int} {u : List Char}
    (hu : ∀ c ∈ u.getLast?, isBoundary c = true) (h : token.StandsApart (start + u.length) s) :
    token.StandsApart start (u ++ s) := by
  obtain ⟨before, after, rfl, hp, hapart⟩ := h
  refine ⟨u ++ before, after, by simp, by rw [hp, List.length_append]; omega, fun hk => ?_⟩
  refine ⟨fun c hc => ?_, (hapart hk).2⟩
  cases before with
  | nil => exact hu c (by simpa using hc)
  | cons d rest => exact (hapart hk).1 c (by simpa [List.getLast?_append] using hc)

/-- The literal that has been read is cut off by what comes next. -/
lemma standsApart_of_mem_literalToken (h : token ∈ literalToken position pending)
    (hs : ∀ c ∈ s.head?, isBoundary c = true) :
    token.StandsApart (position - pending.length) (pending.reverse ++ s) := by
  cases pending with
  | nil => exact absurd h (by simp)
  | cons c rest =>
    obtain rfl : token = _ := List.mem_singleton.1 h
    exact ⟨[], s, by simp, by simp, fun _ => ⟨by simp, hs⟩⟩

lemma standsApart_of_mem_symbolToken (h : token ∈ symbolToken position c) (pending rest : List Char) :
    token.StandsApart (position - pending.length) (pending.reverse ++ c :: rest) := by
  unfold symbolToken at h
  split at h
  · next kind hkind =>
      obtain rfl : token = _ := List.mem_singleton.1 h
      refine ⟨pending.reverse, rest, by simp, by simp, fun hk => ?_⟩
      obtain rfl : kind = .literal := hk
      exact absurd hkind (ofSymbol?_ne_literal c)
  · exact absurd h (by simp)

/-- Every token of a text stands apart in it, where what has been read before belongs to the text. -/
lemma standsApart_of_mem_segments (h : token ∈ (segments position pending s).tokens) :
    token.StandsApart (position - pending.length) (pending.reverse ++ s) := by
  fun_induction segments position pending s with
  | case1 position pending => exact standsApart_of_mem_literalToken h (by simp)
  | case2 position pending c rest hb ih =>
    rcases List.mem_append.1 h with h | h
    · rcases List.mem_append.1 h with h | h
      · exact standsApart_of_mem_literalToken h (by simpa using hb)
      · exact standsApart_of_mem_symbolToken h pending rest
    · have hplace : position - pending.length + (pending.reverse ++ [c]).length =
          position + 1 - ([] : List Char).length := by
        simp only [List.length_append, List.length_reverse, List.length_singleton, List.length_nil]
        omega
      have happend := StandsApart.append (u := pending.reverse ++ [c]) (by simpa using hb)
        (hplace ▸ ih h)
      simpa using happend
  | case3 position pending c rest hb hprint ih =>
    have hplace : position + 1 - (c :: pending).length = position - pending.length := by
      rw [List.length_cons]
      omega
    have hih := ih h
    rwa [hplace, List.reverse_cons, List.append_assoc, List.singleton_append] at hih
  | case4 position pending c rest hb hprint => exact absurd h (by simp)

lemma standsApart_of_tokenize {limits : Limits} {source : String} {tokens : List Token}
    (h : tokenize limits source = .ok tokens) :
    ∀ token ∈ tokens, token.StandsApart 0 source.toList := by
  obtain ⟨-, hsegments, -⟩ := tokenize_eq_ok_iff.1 h
  intro token ht
  have hmem : token ∈ (segments 0 [] source.toList).tokens := by rwa [hsegments]
  simpa using standsApart_of_mem_segments hmem

/-- A symbol stands in the text at the position of its token, and is the text of the token. -/
lemma StandsApart.char_of_symbol (h : token.StandsApart 0 s) (hs : token.Spelled)
    (hc : token.kind.symbol? = some c) :
    ∃ k : Nat, token.position = k ∧ s[k]? = some c ∧ token.text = String.singleton c := by
  rcases hs with ⟨d, hkind, htext⟩ | ⟨hkind, -, -⟩
  · obtain rfl : d = c := Option.some.inj ((symbol?_of_ofSymbol? hkind).symm.trans hc)
    obtain ⟨before, after, rfl, hp, -⟩ := h
    exact ⟨before.length, by simpa using hp, by simp [htext], htext⟩
  · rw [hkind] at hc
    exact absurd hc (by simp [Kind.symbol?])

/-- The scan stops at a character that is no symbol, no separator and not printable. -/
lemma mem_of_stop {p : Int} (h : (segments position pending s).stop = some (c, p)) :
    ∃ k : Nat, p = position + k ∧ s[k]? = some c ∧ isBoundary c = false ∧
      Text.isPrintable c = false := by
  fun_induction segments position pending s with
  | case1 position pending => exact absurd h (by simp)
  | case2 position pending d rest hb ih =>
    obtain ⟨k, hp, hk, hc⟩ := ih h
    exact ⟨k + 1, by omega, by simpa using hk, hc⟩
  | case3 position pending d rest hb hprint ih =>
    obtain ⟨k, hp, hk, hc⟩ := ih h
    exact ⟨k + 1, by omega, by simpa using hk, hc⟩
  | case4 position pending d rest hb hprint =>
    cases h
    exact ⟨0, by simp, rfl, by simpa using hb, by simpa using hprint⟩

end InfixCalculator.Token
