import InfixCalculator.Proofs.Token.Spelling

/-!
# The one faithful segmentation of a text

What the tokens of a text ought to be is said here without a scan (`Faithful`): they stand in the text
where their positions say, one after the other and apart from each other; outside of them there are
separators only; each is spelled as its kind demands; and no literal is cut in two.

A text has one faithful segmentation at most, and it has one exactly if the scan reaches its end, namely
the tokens of the scan (`faithful_iff_segments_eq`).  In one direction the pieces of a text are put
together from its end, each in front of what is divided already (`Faithful.separator`,
`Faithful.cons`); in the other they are taken away from its beginning (`Faithful.of_separator`,
`Faithful.of_cons`).
-/

namespace InfixCalculator.Token

/-- The position after the last character of a token. -/
def stop (token : Token) : Int :=
  token.position + token.text.length

/-- In a text whose first character stands at the position `start`, the text of the token stands at the
token's position. -/
def StandsIn (start : Int) (s : List Char) (token : Token) : Prop :=
  ∃ k : Nat, token.position = start + k ∧ token.text.toList <+: s.drop k

/-- In a text whose first character stands at the position `start`, a separator stands between two
positions, of which the second one is excluded. -/
def SeparatorBetween (start : Int) (s : List Char) (low high : Int) : Prop :=
  ∃ (k : Nat) (c : Char), s[k]? = some c ∧ Text.isSeparator c = true ∧
    low ≤ start + k ∧ start + k < high

/-- The tokens are a faithful segmentation of a text whose first character stands at the position
`start`. -/
structure Faithful (start : Int) (s : List Char) (tokens : List Token) : Prop where
  /-- Positions strictly increase. -/
  increasing : tokens.Pairwise fun a b => a.position < b.position
  /-- Every token stands in the text. -/
  standing : ∀ token ∈ tokens, token.StandsIn start s
  /-- No two tokens overlap. -/
  apart : tokens.Pairwise fun a b => a.stop ≤ b.position
  /-- A character is a separator or in one of the tokens. -/
  covered : ∀ (k : Nat) (c : Char), s[k]? = some c → Text.isSeparator c = true ∨
    ∃ token ∈ tokens, token.position ≤ start + k ∧ start + k < token.stop
  /-- Every token is a symbol with its kind, or a literal. -/
  spelled : ∀ token ∈ tokens, token.Spelled
  /-- Between two literals that follow each other there is a separator. -/
  maximal : ∀ before a b after, tokens = before ++ a :: b :: after → a.kind = .literal →
    b.kind = .literal → SeparatorBetween start s a.stop b.position

variable {start : Int} {s : List Char} {c : Char} {token : Token} {tokens rest : List Token}

lemma Spelled.length_pos (h : token.Spelled) : 0 < token.text.length := by
  rw [← String.length_toList]
  exact List.length_pos_iff.2 h.text_ne_nil

lemma position_le_stop (token : Token) : token.position ≤ token.stop := by
  rw [stop]
  omega

lemma StandsIn.le_position (h : token.StandsIn start s) : start ≤ token.position := by
  obtain ⟨k, hk, -⟩ := h
  omega

/-! ## Texts that go on -/

/-- What stands in a text stands in a longer one, if that begins earlier. -/
lemma StandsIn.append (u : List Char) (h : token.StandsIn (start + u.length) s) :
    token.StandsIn start (u ++ s) := by
  obtain ⟨k, hk, htext⟩ := h
  refine ⟨u.length + k, by omega, ?_⟩
  simpa using htext

/-- What stands in a text, but not before a place, stands in the text from this place on. -/
lemma StandsIn.of_append (u : List Char) (h : token.StandsIn start (u ++ s))
    (hle : start + u.length ≤ token.position) : token.StandsIn (start + u.length) s := by
  obtain ⟨k, hk, htext⟩ := h
  obtain ⟨j, rfl⟩ : ∃ j, k = u.length + j := ⟨k - u.length, by omega⟩
  refine ⟨j, by omega, ?_⟩
  simpa using htext

lemma SeparatorBetween.append {low high : Int} (u : List Char)
    (h : SeparatorBetween (start + u.length) s low high) :
    SeparatorBetween start (u ++ s) low high := by
  obtain ⟨k, c, hk, hc, hlow, hhigh⟩ := h
  refine ⟨u.length + k, c, ?_, hc, by omega, by omega⟩
  rwa [List.getElem?_append_right (by omega), Nat.add_sub_cancel_left]

lemma SeparatorBetween.of_append {low high : Int} (u : List Char)
    (h : SeparatorBetween start (u ++ s) low high) (hle : start + u.length ≤ low) :
    SeparatorBetween (start + u.length) s low high := by
  obtain ⟨k, c, hk, hc, hlow, hhigh⟩ := h
  obtain ⟨j, rfl⟩ : ∃ j, k = u.length + j := ⟨k - u.length, by omega⟩
  refine ⟨j, c, ?_, hc, by omega, by omega⟩
  rwa [List.getElem?_append_right (by omega), Nat.add_sub_cancel_left] at hk

namespace Faithful

/-! ## The first token -/

lemma eq_nil (h : Faithful start [] tokens) : tokens = [] := by
  cases tokens with
  | nil => rfl
  | cons token rest =>
    obtain ⟨k, -, htext⟩ := h.standing token List.mem_cons_self
    rw [List.drop_nil, List.prefix_nil] at htext
    exact absurd htext (h.spelled token List.mem_cons_self).text_ne_nil

/-- Where the first token begins further on, all do. -/
lemma lt_position (h : Faithful start s tokens)
    (hfirst : ∀ token ∈ tokens.head?, start < token.position) :
    ∀ token ∈ tokens, start < token.position := by
  cases tokens with
  | nil => simp
  | cons first rest =>
    have hstart : start < first.position := hfirst first rfl
    refine List.forall_mem_cons.2 ⟨hstart, fun token ht => ?_⟩
    have hlt : first.position < token.position := (List.pairwise_cons.1 h.increasing).1 token ht
    omega

/-- Where the first token begins further on, a text begins with a separator. -/
lemma isSeparator_head (h : Faithful start (c :: s) tokens)
    (hfirst : ∀ token ∈ tokens.head?, start < token.position) : Text.isSeparator c = true := by
  refine (h.covered 0 c rfl).resolve_right ?_
  rintro ⟨token, ht, hlow, -⟩
  have hlt := h.lt_position hfirst token ht
  omega

/-- A literal does not begin with a separator or a symbol. -/
lemma lt_position_of_literal (h : Faithful start s (token :: rest)) (hk : token.kind = .literal)
    (hb : ∀ c ∈ s.head?, isBoundary c = true) : start < token.position := by
  have hs := h.spelled token List.mem_cons_self
  obtain ⟨k, hplace, htext⟩ := h.standing token List.mem_cons_self
  rcases Nat.eq_zero_or_pos k with rfl | hpos
  · exfalso
    obtain ⟨c, text, hc⟩ := List.exists_cons_of_ne_nil hs.text_ne_nil
    obtain ⟨after, htext⟩ : ∃ after, c :: text ++ after = s := by
      rwa [hc, List.drop_zero] at htext
    have hword : isBoundary c = false := hs.not_boundary hk c (by simp [hc])
    have hboundary : isBoundary c = true := hb c (by simp [← htext])
    exact absurd hboundary (by simp [hword])
  · omega

/-! ## Putting a text together -/

lemma nil (start : Int) : Faithful start [] [] where
  increasing := List.Pairwise.nil
  standing := by simp
  apart := List.Pairwise.nil
  covered := by simp
  spelled := by simp
  maximal := by simp

/-- A separator may be put in front. -/
lemma separator (hc : Text.isSeparator c = true) (h : Faithful (start + 1) s tokens) :
    Faithful start (c :: s) tokens where
  increasing := h.increasing
  standing token ht := StandsIn.append [c] (h.standing token ht)
  apart := h.apart
  covered := by
    intro k d hd
    cases k with
    | zero =>
      obtain rfl : c = d := by simpa using hd
      exact Or.inl hc
    | succ k =>
      refine (h.covered k d (by simpa using hd)).imp_right fun ⟨token, ht, hlow, hhigh⟩ => ?_
      exact ⟨token, ht, by omega, by omega⟩
  spelled := h.spelled
  maximal before a b after heq ha hb :=
    SeparatorBetween.append [c] (h.maximal before a b after heq ha hb)

/-- A token may be put in front, a literal however only if the text goes on with a separator or a
symbol. -/
lemma cons (hs : token.Spelled) (hp : token.position = start)
    (hb : token.kind = .literal → ∀ c ∈ s.head?, isBoundary c = true)
    (h : Faithful token.stop s tokens) :
    Faithful start (token.text.toList ++ s) (token :: tokens) := by
  have hlength : start + token.text.toList.length = token.stop := by
    rw [String.length_toList, Token.stop, hp]
  have hpos := hs.length_pos
  have hle : ∀ t ∈ tokens, token.stop ≤ t.position := fun t ht => (h.standing t ht).le_position
  refine ⟨?_, ?_, ?_, ?_, ?_, ?_⟩
  · refine List.Pairwise.cons (fun t ht => ?_) h.increasing
    have hstop := hle t ht
    rw [Token.stop] at hstop
    omega
  · refine List.forall_mem_cons.2 ⟨⟨0, by simp [hp], by simp⟩, fun t ht => ?_⟩
    refine StandsIn.append _ ?_
    rw [hlength]
    exact h.standing t ht
  · exact List.Pairwise.cons hle h.apart
  · intro k c hc
    by_cases hk : k < token.text.toList.length
    · exact Or.inr ⟨token, List.mem_cons_self, by omega, by omega⟩
    · rw [List.getElem?_append_right (by omega)] at hc
      refine (h.covered _ c hc).imp_right fun ⟨t, ht, hlow, hhigh⟩ => ?_
      exact ⟨t, List.mem_cons_of_mem _ ht, by omega, by omega⟩
  · exact List.forall_mem_cons.2 ⟨hs, h.spelled⟩
  · intro before a b after heq ha hb'
    refine SeparatorBetween.append _ ?_
    rw [hlength]
    cases before with
    | cons first before => exact h.maximal before a b after (List.cons.inj heq).2 ha hb'
    -- the next token is a literal, so it does not begin where the text goes on
    | nil =>
      obtain ⟨rfl, rfl⟩ := List.cons.inj heq
      have hlt : token.stop < b.position := h.lt_position_of_literal hb' (hb ha)
      cases s with
      | nil => exact absurd h.eq_nil (by simp)
      | cons c s =>
        have hc : Text.isSeparator c = true := h.isSeparator_head (by simpa using hlt)
        exact ⟨0, c, rfl, hc, by omega, by omega⟩

/-! ## Taking a text apart -/

/-- If the first token begins further on, the first character may be taken away. -/
lemma of_separator (h : Faithful start (c :: s) tokens)
    (hfirst : ∀ token ∈ tokens.head?, start < token.position) :
    Faithful (start + 1) s tokens where
  increasing := h.increasing
  standing token ht :=
    StandsIn.of_append [c] (h.standing token ht) (h.lt_position hfirst token ht)
  apart := h.apart
  covered := by
    intro k d hd
    refine (h.covered (k + 1) d (by simpa using hd)).imp_right fun ⟨token, ht, hlow, hhigh⟩ => ?_
    exact ⟨token, ht, by omega, by omega⟩
  spelled := h.spelled
  maximal := by
    intro before a b after heq ha hb
    have hlt := h.lt_position hfirst a (by simp [heq])
    have hstop := a.position_le_stop
    refine SeparatorBetween.of_append [c] (h.maximal before a b after heq ha hb) ?_
    simp only [List.length_singleton]
    omega

/-- If the first token begins where the text begins, it may be taken away with its text. -/
lemma of_cons (h : Faithful start s (token :: tokens)) (hp : token.position = start) :
    ∃ s', s = token.text.toList ++ s' ∧ Faithful token.stop s' tokens := by
  obtain ⟨k, hplace, htext⟩ := h.standing token List.mem_cons_self
  obtain rfl : k = 0 := by omega
  obtain ⟨s', rfl⟩ := htext
  have hlength : start + token.text.toList.length = token.stop := by
    rw [String.length_toList, Token.stop, hp]
  obtain ⟨hle, hapart⟩ := List.pairwise_cons.1 h.apart
  refine ⟨s', rfl, (List.pairwise_cons.1 h.increasing).2, ?_, hapart, ?_, ?_, ?_⟩
  · intro t ht
    rw [← hlength]
    refine StandsIn.of_append _ (h.standing t (List.mem_cons_of_mem _ ht)) ?_
    rw [hlength]
    exact hle t ht
  · intro k c hc
    have hc' : (token.text.toList ++ s')[token.text.toList.length + k]? = some c := by
      rwa [List.getElem?_append_right (by omega), Nat.add_sub_cancel_left]
    refine (h.covered _ c hc').imp_right fun ⟨t, ht, hlow, hhigh⟩ => ?_
    rcases List.mem_cons.1 ht with rfl | ht
    · omega
    · exact ⟨t, ht, by omega, by omega⟩
  · exact (List.forall_mem_cons.1 h.spelled).2
  · intro before a b after heq ha hb
    have hstop := a.position_le_stop
    have hnext := hle a (by simp [heq])
    rw [← hlength]
    refine SeparatorBetween.of_append _ (h.maximal (token :: before) a b after ?_ ha hb) (by omega)
    rw [heq, List.cons_append]

/-- A literal goes on up to a separator or a symbol. -/
lemma isBoundary_after_literal (h : Faithful start (token.text.toList ++ s) (token :: tokens))
    (hrest : Faithful token.stop s tokens) (hk : token.kind = .literal) :
    ∀ c ∈ s.head?, isBoundary c = true := by
  intro c hc
  obtain ⟨s, rfl⟩ : ∃ s', s = c :: s' := List.head?_eq_some_iff.1 hc
  by_cases hfirst : ∀ t ∈ tokens.head?, token.stop < t.position
  · exact isBoundary_of_isSeparator (hrest.isSeparator_head hfirst)
  -- the next token begins here, and as there is no separator before it, it is a symbol
  · cases tokens with
    | nil => exact absurd (by simp) hfirst
    | cons next tokens =>
      have hnext : ¬token.stop < next.position := by simpa using hfirst
      obtain ⟨k, hplace, after, htext⟩ := hrest.standing next List.mem_cons_self
      obtain rfl : k = 0 := by omega
      rcases hrest.spelled next List.mem_cons_self with ⟨d, hkind, hd⟩ | ⟨hkind, -, -⟩
      · rw [hd, String.toList_singleton, List.drop_zero] at htext
        obtain rfl : d = c := (List.cons.inj htext).1
        exact isBoundary_of_symbol hkind
      · obtain ⟨j, -, -, -, hlow, hhigh⟩ := h.maximal [] token next tokens rfl hk hkind
        omega

end Faithful

/-! ## The tokens of the scan -/

/-- A text with a faithful segmentation is scanned to its end, and has these tokens. -/
lemma segments_eq_of_faithful (h : Faithful start s tokens) :
    segments start [] s = ⟨tokens, none⟩ := by
  induction hn : s.length using Nat.strongRecOn generalizing start s tokens with
  | _ n ih =>
    subst hn
    cases s with
    | nil =>
      rw [h.eq_nil]
      rfl
    | cons c s =>
      by_cases hfirst : ∀ token ∈ tokens.head?, start < token.position
      · have hc : Text.isSeparator c = true := h.isSeparator_head hfirst
        rw [segments_boundary (isBoundary_of_isSeparator hc), symbolToken_separator hc,
          ih s.length (by simp) (h.of_separator hfirst) rfl]
        rfl
      · cases tokens with
        | nil => exact absurd (by simp) hfirst
        | cons token tokens =>
          have hle := (h.standing token List.mem_cons_self).le_position
          have hp : token.position = start := by
            have hnot : ¬start < token.position := by simpa using hfirst
            omega
          have hs := h.spelled token List.mem_cons_self
          obtain ⟨s', htext, hrest⟩ := h.of_cons hp
          have hparted : Parted token.text.toList s' := by
            rcases hs with ⟨d, hkind, hd⟩ | ⟨hkind, -, -⟩
            · refine Or.inl fun e he => ?_
              obtain rfl : d = e := by simpa [hd] using he
              exact isBoundary_of_symbol hkind
            · exact Or.inr ((htext ▸ h).isBoundary_after_literal hrest hkind)
          have hshorter : s'.length < (c :: s).length := by
            have hpos := List.length_pos_iff.2 hs.text_ne_nil
            rw [htext, List.length_append]
            omega
          have hstop : start + token.text.toList.length = token.stop := by
            rw [String.length_toList, Token.stop, hp]
          rw [htext, segments_append hparted, segments_text hs, hstop, ih _ hshorter hrest rfl, ← hp]
          rfl

/-- The literal that has been read before a text may be put in front of its tokens. -/
lemma Faithful.literal {position : Int} {pending : List Char}
    (hp : ∀ c ∈ pending, isBoundary c = false ∧ Text.isPrintable c = true)
    (hb : ∀ c ∈ s.head?, isBoundary c = true) (h : Faithful position s tokens) :
    Faithful (position - pending.length) (pending.reverse ++ s)
      (literalToken position pending ++ tokens) := by
  cases hpending : pending with
  | nil => simpa using h
  | cons c rest =>
    have hmem : (⟨.literal, String.ofList pending.reverse, position - pending.length⟩ : Token) ∈
        literalToken position pending := by simp [literalToken, hpending]
    have hstop : position - pending.length + pending.length = position := by omega
    have hcons := Faithful.cons (spelled_of_mem_literalToken hp hmem) rfl (fun _ => hb)
      (by simpa [Token.stop, hstop] using h)
    simpa [literalToken, hpending] using hcons

/-- The character that ends a literal may be put in front, as a separator or as a symbol. -/
lemma Faithful.boundary (hb : isBoundary c = true) (h : Faithful (start + 1) s tokens) :
    Faithful start (c :: s) (symbolToken start c ++ tokens) := by
  by_cases hc : Text.isSeparator c = true
  · rw [symbolToken_separator hc]
    exact h.separator hc
  · obtain ⟨kind, hkind⟩ : ∃ kind, Kind.ofSymbol? c = some kind := by
      simpa [isBoundary, hc, Option.isSome_iff_exists] using hb
    have hs : (⟨kind, String.singleton c, start⟩ : Token).Spelled := Or.inl ⟨c, hkind, rfl⟩
    have hcons := Faithful.cons hs rfl (fun hk => absurd (hk ▸ hkind) (ofSymbol?_ne_literal c))
      (by simpa [Token.stop] using h)
    simpa [symbolToken, hkind] using hcons

/-- The tokens of a text that is scanned to its end are a faithful segmentation of it, together with
the literal that has been read before. -/
lemma faithful_of_segments {position : Int} {pending : List Char}
    (hp : ∀ c ∈ pending, isBoundary c = false ∧ Text.isPrintable c = true)
    (h : segments position pending s = ⟨tokens, none⟩) :
    Faithful (position - pending.length) (pending.reverse ++ s) tokens := by
  fun_induction segments position pending s generalizing tokens with
  | case1 position pending =>
    cases h
    simpa using Faithful.literal hp (by simp) (Faithful.nil position)
  | case2 position pending c rest hb ih =>
    cases hrest : segments (position + 1) [] rest with
    | mk tokens' stop =>
      rw [hrest] at h
      cases h
      have hih : Faithful (position + 1) rest tokens' := by simpa using ih (by simp) hrest
      rw [List.append_assoc]
      exact Faithful.literal hp (by simpa using hb) (hih.boundary hb)
  | case3 position pending c rest hb hprint ih =>
    have hih := ih (List.forall_mem_cons.2 ⟨⟨by simpa using hb, hprint⟩, hp⟩) h
    have hplace : position + 1 - (c :: pending).length = position - pending.length := by
      rw [List.length_cons]
      omega
    rwa [hplace, List.reverse_cons, List.append_assoc, List.singleton_append] at hih
  | case4 position pending c rest hb hprint => exact absurd h (by simp)

/-- The faithful segmentation of a text are the tokens of a scan that reaches its end. -/
theorem faithful_iff_segments_eq :
    Faithful start s tokens ↔ segments start [] s = ⟨tokens, none⟩ := by
  constructor
  · exact segments_eq_of_faithful
  · intro h
    simpa using faithful_of_segments (by simp) h

/-- A text has no tokens if it holds nothing but separators, and only then. -/
lemma segments_eq_nil_iff {source : String} :
    segments 0 [] source.toList = ⟨[], none⟩ ↔ isBlank source = true := by
  constructor
  · intro h
    rw [isBlank, List.all_eq_true]
    intro c hc
    obtain ⟨k, hk⟩ := List.mem_iff_getElem?.1 hc
    refine ((faithful_iff_segments_eq.2 h).covered k c hk).resolve_right ?_
    simp
  · exact fun h => segments_of_isBlank h 0

/-- The tokens of an expression are a faithful segmentation of it, and it has no other one.  There are
none if the expression is blank, and only then. -/
theorem faithful_iff_of_tokenize {limits : Limits} {source : String}
    (h : tokenize limits source = .ok tokens) :
    (∀ tokens', Faithful 0 source.toList tokens' ↔ tokens' = tokens) ∧
      (tokens = [] ↔ isBlank source = true) := by
  obtain ⟨-, hsegments, -⟩ := tokenize_eq_ok_iff.1 h
  refine ⟨fun tokens' => ?_, ?_⟩
  · rw [faithful_iff_segments_eq, hsegments]
    simp [eq_comm]
  · rw [← segments_eq_nil_iff, hsegments]
    simp

/-- Literals need not be numbers, and separators are needed between literals only. -/
theorem faithful_iff_of_tokenize_sample :
    tokenize {} " 1x 2*(" = .ok [⟨.literal, "1x", 1⟩, ⟨.literal, "2", 4⟩, ⟨.operator .mul, "*", 5⟩,
        ⟨.openParen, "(", 6⟩] ∧
      Faithful 0 " 1x 2*(".toList [⟨.literal, "1x", 1⟩, ⟨.literal, "2", 4⟩,
        ⟨.operator .mul, "*", 5⟩, ⟨.openParen, "(", 6⟩] := by
  have h : tokenize {} " 1x 2*(" = .ok [⟨.literal, "1x", 1⟩, ⟨.literal, "2", 4⟩,
    ⟨.operator .mul, "*", 5⟩, ⟨.openParen, "(", 6⟩] := rfl
  exact ⟨h, ((faithful_iff_of_tokenize h).1 _).2 rfl⟩

end InfixCalculator.Token
