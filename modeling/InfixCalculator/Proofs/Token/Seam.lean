import InfixCalculator.Proofs.Token.Relocation

/-!
# Texts side by side

If no literal reaches across from one text to the next (`Parted`), the tokens of both together are
those of the first and, unless they end at a bad character, those of the second, further on
(`segments_append`).  Separators have no tokens, so between such texts they do nothing but move what
follows (`segments_insert`).
-/

namespace InfixCalculator.Token

/-- The first text is empty or ends with a separator or a symbol, or the second one is empty or begins
with one. -/
def Parted (u v : List Char) : Prop :=
  (∀ c ∈ u.getLast?, isBoundary c = true) ∨ ∀ c ∈ v.head?, isBoundary c = true

/-- Tokens and then others, which are not reached if the first ones end at a bad character. -/
def Segments.andThen (first second : Segments) : Segments :=
  match first.stop with
  | some _ => first
  | none => second.prepend first.tokens

lemma Segments.andThen_of_none {first : Segments} (h : first.stop = none) (second : Segments) :
    first.andThen second = second.prepend first.tokens := by
  rw [andThen, h]

lemma Segments.prepend_andThen (before : List Token) (first second : Segments) :
    (first.prepend before).andThen second = (first.andThen second).prepend before := by
  obtain ⟨tokens, stop⟩ := first
  cases stop with
  | none => simp [andThen, prepend, List.append_assoc]
  | some stop => rfl

lemma Segments.relocate_andThen (f : Int → Int) (first second : Segments) :
    (first.andThen second).relocate f = (first.relocate f).andThen (second.relocate f) := by
  obtain ⟨tokens, stop⟩ := first
  cases stop with
  | none => simp [andThen, relocate, prepend]
  | some stop => rfl

/-! ## Where tokens stand -/

lemma position_mem_literalToken {position : Int} {pending : List Char} {token : Token}
    (h : token ∈ literalToken position pending) :
    position - pending.length ≤ token.position ∧ token.position < position := by
  cases pending with
  | nil => exact absurd h (by simp)
  | cons c rest =>
    obtain rfl : token = _ := List.mem_singleton.1 h
    simp only [List.length_cons]
    omega

lemma position_mem_symbolToken {position : Int} {c : Char} {token : Token}
    (h : token ∈ symbolToken position c) : token.position = position := by
  unfold symbolToken at h
  split at h
  · rw [List.mem_singleton.1 h]
  · exact absurd h (by simp)

/-- The tokens of a text stand in it, or where the literal begins that has been read before. -/
lemma position_mem_segments (position : Int) (pending s : List Char) :
    (∀ token ∈ (segments position pending s).tokens,
      position - pending.length ≤ token.position ∧ token.position < position + s.length) ∧
    ∀ stop ∈ (segments position pending s).stop,
      position ≤ stop.2 ∧ stop.2 < position + s.length := by
  fun_induction segments position pending s with
  | case1 position pending =>
    refine ⟨fun token ht => ?_, fun stop hs => absurd hs (by simp)⟩
    have h := position_mem_literalToken ht
    simp only [List.length_nil]
    omega
  | case2 position pending c rest hb ih =>
    obtain ⟨htokens, hstop⟩ := ih
    rw [List.length_cons]
    refine ⟨fun token ht => ?_, fun stop hs => ?_⟩
    · rcases List.mem_append.1 ht with ht | ht
      · rcases List.mem_append.1 ht with ht | ht
        · have h := position_mem_literalToken ht
          omega
        · have h := position_mem_symbolToken ht
          omega
      · have h := htokens token ht
        simp only [List.length_nil] at h
        omega
    · have h := hstop stop hs
      omega
  | case3 position pending c rest hb hp ih =>
    obtain ⟨htokens, hstop⟩ := ih
    rw [List.length_cons]
    refine ⟨fun token ht => ?_, fun stop hs => ?_⟩
    · have h := htokens token ht
      simp only [List.length_cons] at h
      omega
    · have h := hstop stop hs
      omega
  | case4 position pending c rest hb hp =>
    refine ⟨by simp, fun stop hs => ?_⟩
    obtain rfl : (c, position) = stop := Option.mem_some_iff.1 hs
    simp only [List.length_cons]
    omega

/-! ## Concatenations -/

/-- The tokens of two texts side by side, where nothing that has been read before belongs to a literal
of the second one. -/
lemma segments_append_of_parted {pending s t : List Char}
    (h : (∀ c ∈ s.getLast?, isBoundary c = true) ∧ (s = [] → pending = []) ∨
      ∀ c ∈ t.head?, isBoundary c = true) (position : Int) :
    segments position pending (s ++ t) =
      (segments position pending s).andThen (segments (position + s.length) [] t) := by
  induction s generalizing position pending with
  | nil =>
    have hplace : position + ([] : List Char).length = position := by simp
    rw [List.nil_append, hplace, segments, Segments.andThen_of_none rfl]
    rcases h with ⟨-, hpending⟩ | hhead
    · rw [hpending rfl]
      rfl
    · cases t with
      | nil => simp [segments, Segments.prepend]
      | cons c rest =>
        have hb : isBoundary c = true := hhead c rfl
        rw [segments_boundary hb, segments_boundary hb, Segments.prepend_prepend]
        simp
  | cons c rest ih =>
    have hlast : ∀ d ∈ rest.getLast?, d ∈ (c :: rest).getLast? := by
      intro d hd
      cases rest with
      | nil => exact absurd hd (by simp)
      | cons e more => exact hd
    have hmove : position + (c :: rest).length = position + 1 + rest.length := by
      rw [List.length_cons]
      omega
    rw [List.cons_append, hmove]
    by_cases hb : isBoundary c = true
    · rw [segments_boundary hb, segments_boundary hb, Segments.prepend_andThen, ih]
      exact h.imp_left fun hs => ⟨fun d hd => hs.1 d (hlast d hd), fun _ => rfl⟩
    · have hb' : isBoundary c = false := by simpa using hb
      by_cases hp : Text.isPrintable c = true
      · rw [segments_literal hb' hp, segments_literal hb' hp, ih]
        -- the first text does not end here, for its last character is a boundary
        refine h.imp_left fun hs => ⟨fun d hd => hs.1 d (hlast d hd), ?_⟩
        rintro rfl
        exact absurd (hs.1 c rfl) hb
      · have hp' : Text.isPrintable c = false := by simpa using hp
        rw [segments_stop hb' hp', segments_stop hb' hp']
        rfl

/-- The tokens of two texts side by side. -/
lemma segments_append {u v : List Char} (h : Parted u v) (position : Int) :
    segments position [] (u ++ v) =
      (segments position [] u).andThen (segments (position + u.length) [] v) :=
  segments_append_of_parted (h.imp_left fun hu => ⟨hu, fun _ => rfl⟩) position

/-- Nothing reaches across a symbol or a separator. -/
lemma parted_cons {c : Char} (h : isBoundary c = true) (u v : List Char) : Parted u (c :: v) :=
  Or.inr fun d hd => by rwa [← Option.mem_some_iff.1 hd]

/-- The tokens of a text, a symbol or a separator, and another text. -/
lemma segments_append_boundary {u : List Char} {position : Int} {tokens : List Token} {c : Char}
    (hu : segments position [] u = ⟨tokens, none⟩) (hc : isBoundary c = true) (v : List Char) :
    segments position [] (u ++ c :: v) =
      (segments (position + u.length + 1) [] v).prepend
        (tokens ++ symbolToken (position + u.length) c) := by
  rw [segments_append (parted_cons hc u v), hu, Segments.andThen_of_none rfl,
    segments_boundary hc, Segments.prepend_prepend, literalToken_nil, List.nil_append]

/-- The tokens of two texts with a space between them. -/
lemma segments_spaced {u v : List Char} {position : Int} {tokens tokens' : List Token}
    (hu : segments position [] u = ⟨tokens, none⟩)
    (hv : segments (position + u.length + 1) [] v = ⟨tokens', none⟩) :
    segments position [] (u ++ ' ' :: v) = ⟨tokens ++ tokens', none⟩ := by
  rw [segments_append_boundary hu rfl, hv, symbolToken_separator rfl, List.append_nil]
  rfl

/-- The tokens of a text in parentheses. -/
lemma segments_grouped {u : List Char} {position : Int} {tokens : List Token}
    (hu : segments (position + 1) [] u = ⟨tokens, none⟩) :
    segments position [] ('(' :: (u ++ [')'])) =
      ⟨⟨.openParen, "(", position⟩ :: (tokens ++ [⟨.closeParen, ")", position + 1 + u.length⟩]),
        none⟩ := by
  rw [segments_boundary rfl, segments_append_boundary hu rfl, Segments.prepend_prepend]
  simp only [segments, literalToken_nil, Segments.prepend, List.append_nil]
  rfl

lemma isBoundary_of_isSeparator {c : Char} (h : Text.isSeparator c = true) :
    isBoundary c = true := by
  rw [isBoundary, h, Bool.true_or]

/-- Separators have no tokens. -/
lemma segments_separators {w : List Char} (h : ∀ c ∈ w, Text.isSeparator c = true) (v : List Char)
    (position : Int) :
    segments position [] (w ++ v) = segments (position + w.length) [] v := by
  induction w generalizing position with
  | nil => simp
  | cons c rest ih =>
    obtain ⟨hc, hrest⟩ := List.forall_mem_cons.1 h
    rw [List.cons_append, segments_boundary (isBoundary_of_isSeparator hc),
      symbolToken_separator hc, ih hrest]
    have hmove : position + 1 + rest.length = position + (c :: rest).length := by
      rw [List.length_cons]
      omega
    rw [hmove]
    rfl

/-- A text of nothing but separators has no tokens. -/
lemma segments_of_isBlank {source : String} (h : isBlank source = true) (position : Int) :
    segments position [] source.toList = ⟨[], none⟩ := by
  have hall := segments_separators (List.all_eq_true.1 h) [] position
  rw [List.append_nil] at hall
  exact hall

/-- Separators may be put between texts that are parted. -/
lemma Parted.separators_append {u w v : List Char} (h : Parted u v)
    (hw : ∀ c ∈ w, Text.isSeparator c = true) : Parted u (w ++ v) := by
  cases w with
  | nil => exact h
  | cons c rest =>
    refine Or.inr fun d hd => ?_
    obtain rfl : c = d := Option.mem_some_iff.1 hd
    exact isBoundary_of_isSeparator (hw c List.mem_cons_self)

/-- The position of what stands at a position before some characters are put in at a place. -/
def shiftFrom (place count : Nat) (position : Int) : Int :=
  if position < place then position else position + count

/-- Separators between two texts that are parted leave the tokens as they are and move those of the
second text. -/
lemma segments_insert {u w v : List Char} (h : Parted u v)
    (hw : ∀ c ∈ w, Text.isSeparator c = true) :
    segments 0 [] (u ++ (w ++ v)) =
      (segments 0 [] (u ++ v)).relocate (shiftFrom u.length w.length) := by
  have hfirst : (segments 0 [] u).relocate (shiftFrom u.length w.length) = segments 0 [] u := by
    obtain ⟨htokens, hstop⟩ := position_mem_segments 0 [] u
    refine (Segments.relocate_congr (fun token ht => if_pos ?_) (fun stop hs => if_pos ?_)).trans
      (Segments.relocate_id _)
    · have h := htokens token ht
      omega
    · have h := hstop stop hs
      omega
  have hsecond : (segments (0 + u.length) [] v).relocate (shiftFrom u.length w.length) =
      segments (0 + u.length + w.length) [] v := by
    obtain ⟨htokens, hstop⟩ := position_mem_segments (0 + u.length) [] v
    rw [segments_add (0 + u.length)]
    refine Segments.relocate_congr (fun token ht => if_neg ?_) (fun stop hs => if_neg ?_)
    · have h := htokens token ht
      simp only [List.length_nil] at h
      omega
    · have h := hstop stop hs
      omega
  rw [segments_append h, segments_append (h.separators_append hw), segments_separators hw,
    Segments.relocate_andThen, hfirst, hsecond]

end InfixCalculator.Token
