import InfixCalculator.Proofs.Token.Unplaced

/-!
# How tokens are spelled

The tokens of a text are symbols, each with the kind that its character denotes, and literals: runs of
printable characters none of which is a separator or a symbol (`Spelled`, `spelled_of_mem_segments`).
Conversely a token that is spelled in this way is read back from its own text (`segments_text`).
-/

namespace InfixCalculator.Token

/-- The token is a symbol or a literal, and has a text that belongs to its kind. -/
def Spelled (token : Token) : Prop :=
  (∃ c, Kind.ofSymbol? c = some token.kind ∧ token.text = String.singleton c) ∨
    token.kind = .literal ∧ token.text.toList ≠ [] ∧
      ∀ c ∈ token.text.toList, isBoundary c = false ∧ Text.isPrintable c = true

variable {token : Token} {position : Int} {pending s : List Char} {c : Char}

/-- No character denotes a literal on its own. -/
lemma ofSymbol?_ne_literal (c : Char) : Kind.ofSymbol? c ≠ some .literal := by
  unfold Kind.ofSymbol?
  split
  · simp
  · split
    · simp
    · simp

/-- A symbol ends a literal. -/
lemma isBoundary_of_symbol {kind : Kind} (h : Kind.ofSymbol? c = some kind) :
    isBoundary c = true := by
  rw [isBoundary, h, Option.isSome_some, Bool.or_true]

lemma Spelled.text_ne_nil (h : token.Spelled) : token.text.toList ≠ [] := by
  rcases h with ⟨c, -, htext⟩ | ⟨-, hne, -⟩
  · simp [htext]
  · exact hne

/-- No character of a literal ends it. -/
lemma Spelled.not_boundary (h : token.Spelled) (hk : token.kind = .literal) :
    ∀ c ∈ token.text.toList, isBoundary c = false := by
  rcases h with ⟨c, hkind, -⟩ | ⟨-, -, hword⟩
  · rw [hk] at hkind
    exact absurd hkind (ofSymbol?_ne_literal c)
  · exact fun c hc => (hword c hc).1

/-! ## Tokens of a text -/

lemma spelled_of_mem_literalToken
    (hp : ∀ c ∈ pending, isBoundary c = false ∧ Text.isPrintable c = true)
    (h : token ∈ literalToken position pending) : token.Spelled := by
  cases pending with
  | nil => exact absurd h (by simp)
  | cons c rest =>
    obtain rfl : token = _ := List.mem_singleton.1 h
    refine Or.inr ⟨rfl, by simp, fun d hd => hp d ?_⟩
    simpa [or_comm] using hd

lemma spelled_of_mem_symbolToken (h : token ∈ symbolToken position c) : token.Spelled := by
  unfold symbolToken at h
  split at h
  · next kind hkind =>
      obtain rfl : token = _ := List.mem_singleton.1 h
      exact Or.inl ⟨c, hkind, rfl⟩
  · exact absurd h (by simp)

/-- Every token of a text is spelled as its kind demands. -/
lemma spelled_of_mem_segments
    (hp : ∀ c ∈ pending, isBoundary c = false ∧ Text.isPrintable c = true)
    (h : token ∈ (segments position pending s).tokens) : token.Spelled := by
  fun_induction segments position pending s with
  | case1 position pending => exact spelled_of_mem_literalToken hp h
  | case2 position pending c rest hb ih =>
    rcases List.mem_append.1 h with h | h
    · rcases List.mem_append.1 h with h | h
      · exact spelled_of_mem_literalToken hp h
      · exact spelled_of_mem_symbolToken h
    · exact ih (by simp) h
  | case3 position pending c rest hb hprint ih =>
    exact ih (List.forall_mem_cons.2 ⟨⟨by simpa using hb, hprint⟩, hp⟩) h
  | case4 position pending c rest hb hprint => exact absurd h (by simp)

lemma spelled_of_tokenize {limits : Limits} {source : String} {tokens : List Token}
    (h : tokenize limits source = .ok tokens) : ∀ token ∈ tokens, token.Spelled := by
  obtain ⟨-, hsegments, -⟩ := tokenize_eq_ok_iff.1 h
  intro token ht
  have hmem : token ∈ (segments 0 [] source.toList).tokens := by rwa [hsegments]
  exact spelled_of_mem_segments (by simp) hmem

/-! ## The text of a token -/

/-- The text of a token has this token and no other. -/
lemma segments_text (h : token.Spelled) (position : Int) :
    segments position [] token.text.toList = ⟨[{ token with position := position }], none⟩ := by
  obtain ⟨kind, text, place⟩ := token
  rcases h with ⟨c, hkind, htext⟩ | ⟨hkind, hne, hword⟩
  · obtain rfl : text = String.singleton c := htext
    have hkind : Kind.ofSymbol? c = some kind := hkind
    rw [String.toList_singleton, segments_boundary (isBoundary_of_symbol hkind), symbolToken, hkind]
    simp [segments, Segments.prepend]
  · obtain rfl : kind = .literal := hkind
    have hreverse : text.toList.reverse.isEmpty = false := by simpa using hne
    rw [segments_word hword, List.append_nil, literalToken, hreverse, if_neg Bool.false_ne_true]
    simp

end InfixCalculator.Token
