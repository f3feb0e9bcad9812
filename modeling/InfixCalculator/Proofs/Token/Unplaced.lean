import InfixCalculator.Proofs.Token.Seam

/-!
# Tokens without their positions

If it does not matter where tokens stand, all positions may be the same (`Segments.unplaced`).  Then
the tokens of a text do not depend on where it starts, and those of texts side by side are simply put
together (`unplaced_append`).  A symbol makes one token (`unplaced_cons`), and so does a run of
characters that end no literal (`unplaced_word`).
-/

namespace InfixCalculator.Token

/-- The tokens of a text with their positions forgotten. -/
def Segments.unplaced (s : List Char) : Segments :=
  (segments 0 [] s).relocate fun _ => 0

variable {u v w : List Char}

/-- It does not matter where a text starts. -/
lemma relocate_segments (position : Int) (s : List Char) :
    (segments position [] s).relocate (fun _ => 0) = Segments.unplaced s := by
  have hstart : position = 0 + position := by omega
  rw [hstart, segments_add, Segments.unplaced, Segments.relocate, Segments.relocate,
    Segments.relocate]
  simp [Option.map_map, Function.comp_def, Token.relocate]

lemma unplaced_append (h : Parted u v) :
    Segments.unplaced (u ++ v) = (Segments.unplaced u).andThen (Segments.unplaced v) := by
  rw [Segments.unplaced, segments_append h, Segments.relocate_andThen, relocate_segments,
    relocate_segments]

/-- A separator makes no token, a symbol one. -/
lemma unplaced_cons {c : Char} (h : isBoundary c = true) (v : List Char) :
    Segments.unplaced (c :: v) = (Segments.unplaced v).prepend (symbolToken 0 c) := by
  have hsymbol : (symbolToken 0 c).map (relocate fun _ => 0) = symbolToken 0 c := by
    unfold symbolToken
    split <;> rfl
  rw [Segments.unplaced, segments_boundary h, Segments.relocate_prepend, relocate_segments,
    literalToken_nil, List.nil_append, hsymbol]

/-- Characters that can be part of a literal are taken into it. -/
lemma segments_word (h : ∀ c ∈ w, isBoundary c = false ∧ Text.isPrintable c = true)
    (position : Int) (pending : List Char) :
    segments position pending w =
      ⟨literalToken (position + w.length) (w.reverse ++ pending), none⟩ := by
  induction w generalizing position pending with
  | nil => simp [segments]
  | cons c rest ih =>
    obtain ⟨hc, hrest⟩ := List.forall_mem_cons.1 h
    have hlast : position + (c :: rest).length = position + 1 + rest.length := by
      rw [List.length_cons]
      omega
    rw [segments_literal hc.1 hc.2, ih hrest, hlast, List.reverse_cons, List.append_assoc,
      List.singleton_append]

lemma unplaced_word (h : ∀ c ∈ w, isBoundary c = false ∧ Text.isPrintable c = true)
    (hne : w ≠ []) : Segments.unplaced w = ⟨[⟨.literal, String.ofList w, 0⟩], none⟩ := by
  rw [Segments.unplaced, segments_word h]
  simp [Segments.relocate, literalToken, hne, relocate]

/-- Digits can be part of a literal. -/
lemma literal_of_isDigit {c : Char} (h : c.isDigit = true) :
    isBoundary c = false ∧ Text.isPrintable c = true := by
  have hge : 48 ≤ c.toNat := of_decide_eq_true (Bool.and_eq_true_iff.1 h).1
  have hle : c.toNat ≤ 57 := of_decide_eq_true (Bool.and_eq_true_iff.1 h).2
  have hall : ∀ d : Fin 10, isBoundary (Char.ofNat (48 + d)) = false ∧
      Text.isPrintable (Char.ofNat (48 + d)) = true := by decide
  have hc := hall ⟨c.toNat - 48, by omega⟩
  simp only [Nat.add_sub_cancel' hge, Char.ofNat_toNat] at hc
  exact hc

end InfixCalculator.Token
