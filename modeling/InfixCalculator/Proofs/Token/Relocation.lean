import InfixCalculator.Proofs.Token.Segments

/-!
# Moving positions

Positions are carried along from the tokens to the errors, and nothing is computed from them.  Here a
function moves the positions of tokens (`Token.relocate`) and of errors (`Failure.relocate`), where an
error also learns of another expression.  A text that starts at another position has the same tokens
at moved positions (`segments_add`).
-/

namespace InfixCalculator

/-- The token at another position. -/
def Token.relocate (f : Int → Int) (token : Token) : Token :=
  { token with position := f token.position }

/-- The error at another position, in another expression. -/
def ExpressionError.relocate (f : Int → Int) (text : String) (e : ExpressionError) :
    ExpressionError :=
  { e with
    position := e.position.map f
    expression := e.expression.map fun _ => text }

/-- The failure at another position, in another expression. -/
def Failure.relocate (f : Int → Int) (text : String) : Failure → Failure
  | error e => error (e.relocate f text)
  | unwritable => unwritable

section

variable {α : Type} {f : Int → Int} {text text' : String} {limits : Limits}

@[simp] lemma mapError_ok {g : Failure → Failure} (a : α) :
    (Except.ok a : Except Failure α).mapError g = .ok a := rfl

@[simp] lemma mapError_error {g : Failure → Failure} (failure : Failure) :
    (Except.error failure : Except Failure α).mapError g = .error (g failure) := rfl

namespace Failure

/-- A limit that is exceeded has no position. -/
lemma relocate_beyond (limit : String) (bound actual : Int) :
    (beyond limit bound actual).relocate f text' = beyond limit bound actual := by
  unfold beyond
  split <;> rfl

end Failure

end

namespace Token

variable {f : Int → Int} {token : Token}

@[simp] lemma relocate_kind : (token.relocate f).kind = token.kind := rfl

@[simp] lemma relocate_text : (token.relocate f).text = token.text := rfl

@[simp] lemma relocate_position : (token.relocate f).position = f token.position := rfl

/-! ## Tokens of a text -/

/-- The tokens and the stop at other positions. -/
def Segments.relocate (f : Int → Int) (segments : Segments) : Segments where
  tokens := segments.tokens.map (Token.relocate f)
  stop := segments.stop.map fun stop => (stop.1, f stop.2)

@[simp] lemma Segments.relocate_prepend (before : List Token) (segments : Segments) :
    (segments.prepend before).relocate f =
      (segments.relocate f).prepend (before.map (Token.relocate f)) := by
  simp [relocate, prepend]

/-- Functions that agree on all positions move the tokens alike. -/
lemma Segments.relocate_congr {g : Int → Int} {segments : Segments}
    (htokens : ∀ token ∈ segments.tokens, f token.position = g token.position)
    (hstop : ∀ stop ∈ segments.stop, f stop.2 = g stop.2) :
    segments.relocate f = segments.relocate g := by
  have htokens' : segments.tokens.map (Token.relocate f) = segments.tokens.map (Token.relocate g) :=
    List.map_congr_left fun token ht => by rw [Token.relocate, Token.relocate, htokens token ht]
  have hstop' : (segments.stop.map fun stop => (stop.1, f stop.2)) =
      segments.stop.map fun stop => (stop.1, g stop.2) :=
    Option.map_congr fun stop hs => by rw [hstop stop hs]
  rw [relocate, relocate, htokens', hstop']

@[simp] lemma Segments.relocate_id (segments : Segments) :
    segments.relocate (fun position => position) = segments := by
  have hid : Token.relocate (fun position => position) = id := rfl
  simp [relocate, hid]

lemma literalToken_add (position d : Int) (pending : List Char) :
    literalToken (position + d) pending =
      (literalToken position pending).map (Token.relocate (· + d)) := by
  unfold literalToken
  split
  · rfl
  · have hmove : position + d - pending.length = position - pending.length + d := by omega
    simp [Token.relocate, hmove]

lemma symbolToken_add (position d : Int) (c : Char) :
    symbolToken (position + d) c = (symbolToken position c).map (Token.relocate (· + d)) := by
  unfold symbolToken
  split <;> rfl

/-- A text that starts further on has its tokens further on. -/
lemma segments_add (position d : Int) (pending s : List Char) :
    segments (position + d) pending s = (segments position pending s).relocate (· + d) := by
  fun_induction segments position pending s with
  | case1 position pending => simp [segments, Segments.relocate, literalToken_add]
  | case2 position pending c rest hb ih =>
    have hnext : position + d + 1 = position + 1 + d := by omega
    rw [segments_boundary hb, hnext, ih, Segments.relocate_prepend, List.map_append,
      literalToken_add, symbolToken_add]
  | case3 position pending c rest hb hp ih =>
    have hnext : position + d + 1 = position + 1 + d := by omega
    rw [segments_literal (by simpa using hb) hp, hnext, ih]
  | case4 position pending c rest hb hp =>
    rw [segments_stop (by simpa using hb) (by simpa using hp)]
    rfl

/-- Moved tokens get the same verdict. -/
lemma Segments.verdict_relocate (limits : Limits) (text text' : String) (segments : Segments) :
    (segments.relocate f).verdict limits text' =
      ((segments.verdict limits text).map (List.map (Token.relocate f))).mapError
        (Failure.relocate f text') := by
  obtain ⟨tokens, stop⟩ := segments
  simp only [verdict, relocate, List.length_map]
  split
  · exact congrArg Except.error (Failure.relocate_beyond _ _ _).symm
  · cases stop <;> rfl

end Token

end InfixCalculator
