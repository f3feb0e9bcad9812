import InfixCalculator.Token.Segmentation
import Mathlib.Tactic.Lemma
import Mathlib.Tactic.SplitIfs

/-!
# Tokens without counting

The scan of an expression counts its tokens as it goes, and any of them may be one too many.  Here the
tokens of a text are a function of the text alone (`segments`), together with the character that ends
the scan, if there is one.  What becomes of them under given limits is decided afterwards
(`Segments.verdict`): too many tokens come before a bad character, because the tokens that are
counted are complete when the bad character is met.  The main statement is `tokenize_eq_verdict`.
-/

namespace InfixCalculator.Token

/-- The tokens of a text, and the character at which they end before the text does. -/
structure Segments where
  /-- The tokens that are complete. -/
  tokens : List Token
  /-- The character that can be part of no token, with its position. -/
  stop : Option (Char × Int)

/-- Whether a character ends a literal: a separator does, and a symbol. -/
def isBoundary (c : Char) : Bool :=
  Text.isSeparator c || (Kind.ofSymbol? c).isSome

/-- The token of a symbol; other characters have none. -/
def symbolToken (position : Int) (c : Char) : List Token :=
  match Kind.ofSymbol? c with
  | some kind => [⟨kind, String.singleton c, position⟩]
  | none => []

/-- The literal that ends before a position, given its characters, the last one first. -/
def literalToken (position : Int) (pending : List Char) : List Token :=
  if pending.isEmpty then []
  else [⟨.literal, String.ofList pending.reverse, position - pending.length⟩]

/-- Tokens in front of others. -/
def Segments.prepend (before : List Token) (segments : Segments) : Segments :=
  { segments with tokens := before ++ segments.tokens }

/-- The tokens of a text that starts at a position, where some characters of a literal have been read
before, the last one first. -/
def segments (position : Int) (pending : List Char) : List Char → Segments
  | [] => ⟨literalToken position pending, none⟩
  | c :: rest =>
    if isBoundary c then
      (segments (position + 1) [] rest).prepend
        (literalToken position pending ++ symbolToken position c)
    else if Text.isPrintable c then segments (position + 1) (c :: pending) rest
    else ⟨[], some (c, position)⟩

/-- The failure for too many tokens.  The tokens are counted one by one, so the count exceeds its
bound by one, or is one where the bound is negative. -/
def tooMany (limits : Limits) : Failure :=
  .beyond Limit.tokenCount.name limits.tokenCount (limits.tokenCount.toNat + 1 : Nat)

/-- It is the failure for one token more than are admitted. -/
lemma check_tooMany (limits : Limits) :
    limits.check .tokenCount (limits.tokenCount.toNat + 1 : Nat) = .error (tooMany limits) := by
  refine Limits.check_of_lt ?_
  simp only [Limits.bound]
  omega

/-- What becomes of the tokens of a text under given limits. -/
def Segments.verdict (limits : Limits) (source : String) (segments : Segments) :
    Except Failure (List Token) :=
  if limits.tokenCount.toNat < segments.tokens.length then .error (tooMany limits)
  else
    match segments.stop with
    | some (c, position) =>
      .error (.atPosition (.invalidCharacter (String.singleton c)) position (some source))
    | none => .ok segments.tokens

@[simp] lemma literalToken_nil (position : Int) : literalToken position [] = [] := rfl

lemma Segments.prepend_prepend (before after : List Token) (segments : Segments) :
    (segments.prepend after).prepend before = segments.prepend (before ++ after) := by
  simp [prepend, List.append_assoc]

lemma segments_boundary {c : Char} (h : isBoundary c = true) (position : Int)
    (pending rest : List Char) :
    segments position pending (c :: rest) =
      (segments (position + 1) [] rest).prepend
        (literalToken position pending ++ symbolToken position c) := by
  rw [segments, if_pos h]

lemma segments_literal {c : Char} (hb : isBoundary c = false) (hp : Text.isPrintable c = true)
    (position : Int) (pending rest : List Char) :
    segments position pending (c :: rest) = segments (position + 1) (c :: pending) rest := by
  rw [segments, hb, if_neg Bool.false_ne_true, if_pos hp]

lemma segments_stop {c : Char} (hb : isBoundary c = false) (hp : Text.isPrintable c = false)
    (position : Int) (pending rest : List Char) :
    segments position pending (c :: rest) = ⟨[], some (c, position)⟩ := by
  rw [segments, hb, if_neg Bool.false_ne_true, hp, if_neg Bool.false_ne_true]

/-- A separator is no symbol. -/
lemma symbolToken_separator {c : Char} (h : Text.isSeparator c = true) (position : Int) :
    symbolToken position c = [] := by
  simp only [Text.isSeparator, Bool.or_eq_true, beq_iff_eq] at h
  rcases h with ((rfl | rfl) | rfl) | rfl <;> rfl

/-- Tokens are admitted as they are, if they are not too many and reach the end of the text. -/
lemma Segments.verdict_eq_ok_iff {limits : Limits} {source : String} {segments : Segments}
    {tokens : List Token} :
    segments.verdict limits source = .ok tokens ↔
      segments = ⟨tokens, none⟩ ∧ tokens.length ≤ limits.tokenCount.toNat := by
  obtain ⟨tokens', stop⟩ := segments
  by_cases hmany : limits.tokenCount.toNat < tokens'.length
  · rw [verdict, if_pos hmany]
    refine iff_of_false (by simp) ?_
    rintro ⟨⟨⟩, hcount⟩
    exact Nat.not_lt.2 hcount hmany
  · rw [verdict, if_neg hmany]
    cases stop with
    | some stop => simp
    | none =>
      simp only [Except.ok.injEq, mk.injEq, and_true]
      constructor
      · rintro rfl
        exact ⟨rfl, Nat.not_lt.1 hmany⟩
      · exact And.left

namespace Scan

variable {limits : Limits} {source : String} {scan : Scan} {c : Char}

/-! ## Counting tokens -/

/-- The state, if its tokens are not too many. -/
def counted (limits : Limits) (scan : Scan) : Except Failure Scan :=
  if limits.tokenCount.toNat < scan.tokens.size then .error (tooMany limits) else .ok scan

lemma counted_of_le (h : scan.tokens.size ≤ limits.tokenCount.toNat) :
    counted limits scan = .ok scan := by
  rw [counted, if_neg (by omega)]

lemma counted_of_lt (h : limits.tokenCount.toNat < scan.tokens.size) :
    counted limits scan = .error (tooMany limits) := by
  rw [counted, if_pos h]

lemma push_eq (h : scan.tokens.size ≤ limits.tokenCount.toNat) (token : Token) :
    scan.push limits token = counted limits { scan with tokens := scan.tokens.push token } := by
  by_cases hlt : limits.tokenCount.toNat < scan.tokens.size + 1
  · have hactual : scan.tokens.size + 1 = limits.tokenCount.toNat + 1 := by omega
    rw [counted_of_lt (by rwa [Array.size_push])]
    simp only [push, Array.size_push]
    rw [hactual, check_tooMany]
  · have hwithin : ((scan.tokens.size + 1 : Nat) : Int) ≤ limits.bound .tokenCount := by
      simp only [Limits.bound]
      omega
    rw [counted_of_le (by rw [Array.size_push]; omega)]
    simp only [push, Array.size_push]
    rw [Limits.check_of_le hwithin]

/-! ## One character -/

/-- The literal that is being read starts where its first character stands. -/
def Aligned (scan : Scan) : Prop :=
  scan.pending ≠ [] → (scan.start : Int) = scan.position - scan.pending.length

/-- The state with the literal completed that is being read. -/
def completed (scan : Scan) : Scan :=
  { scan with
    pending := []
    tokens := scan.tokens ++ (literalToken scan.position scan.pending).toArray }

lemma flush_eq (ha : scan.Aligned) (h : scan.tokens.size ≤ limits.tokenCount.toNat) :
    scan.flush limits = counted limits scan.completed := by
  unfold flush
  by_cases hp : scan.pending = []
  · have hsame : scan.completed = scan := by
      obtain ⟨position, pending, start, tokens⟩ := scan
      obtain rfl : pending = [] := hp
      simp [completed]
    rw [hsame, counted_of_le h, if_pos (by simp [hp])]
  · have hempty : scan.pending.isEmpty = false := by simp [hp]
    rw [completed, literalToken, hempty, if_neg Bool.false_ne_true, if_neg Bool.false_ne_true,
      ← ha hp]
    simp only [← Array.push_eq_append]
    exact @push_eq _ { scan with pending := [] } h _

/-- A boundary completes the literal before it and, if it is a symbol, a token of its own. -/
lemma step_boundary (hc : isBoundary c = true) (ha : scan.Aligned)
    (h : scan.tokens.size ≤ limits.tokenCount.toNat) :
    scan.step limits source c =
      counted limits ⟨scan.position + 1, [], scan.start, scan.tokens ++
        (literalToken scan.position scan.pending ++ symbolToken scan.position c).toArray⟩ := by
  have hlit : limits.tokenCount.toNat < scan.completed.tokens.size ∨
      scan.completed.tokens.size ≤ limits.tokenCount.toNat := by omega
  by_cases hs : Text.isSeparator c = true
  · rw [step, if_pos hs, flush_eq ha h, symbolToken_separator hs, List.append_nil]
    rcases hlit with hlt | hle
    · rw [counted_of_lt hlt]
      exact (@counted_of_lt limits scan.completed.advance hlt).symm
    · rw [counted_of_le hle]
      exact (@counted_of_le limits scan.completed.advance hle).symm
  · obtain ⟨kind, hkind⟩ : ∃ kind, Kind.ofSymbol? c = some kind := by
      simpa [isBoundary, hs, Option.isSome_iff_exists] using hc
    have hpush : scan.tokens ++ (literalToken scan.position scan.pending ++
        [(⟨kind, String.singleton c, scan.position⟩ : Token)]).toArray =
        scan.completed.tokens.push ⟨kind, String.singleton c, scan.completed.position⟩ := by
      simp [completed]
    rw [step, if_neg hs, hkind, flush_eq ha h, symbolToken, hkind]
    simp only [hpush]
    rcases hlit with hlt | hle
    · rw [counted_of_lt hlt, counted_of_lt (by rw [Array.size_push]; omega)]
    -- the literal is within the limit, so it is the symbol that may be one too many
    · rw [counted_of_le hle]
      simp only
      rw [push_eq hle]
      simp only [counted]
      split_ifs <;> rfl

lemma step_literal (hb : isBoundary c = false) (hp : Text.isPrintable c = true) :
    scan.step limits source c = .ok (scan.extend c).advance := by
  obtain ⟨hs, hk⟩ : Text.isSeparator c = false ∧ Kind.ofSymbol? c = none := by
    simpa [isBoundary] using hb
  rw [step, hs, if_neg Bool.false_ne_true, hk]
  simp only [hp, if_true]

lemma step_stop (hb : isBoundary c = false) (hp : Text.isPrintable c = false) :
    scan.step limits source c =
      .error (.atPosition (.invalidCharacter (String.singleton c)) scan.position (some source)) := by
  obtain ⟨hs, hk⟩ : Text.isSeparator c = false ∧ Kind.ofSymbol? c = none := by
    simpa [isBoundary] using hb
  rw [step, hs, if_neg Bool.false_ne_true, hk]
  simp only [hp, if_neg Bool.false_ne_true]

lemma aligned_advance_extend (ha : scan.Aligned) (c : Char) : (scan.extend c).advance.Aligned := by
  intro _
  by_cases hp : scan.pending = []
  · simp [extend, advance, hp]
  · have hstart := ha hp
    simp only [extend, advance, List.isEmpty_iff, hp, if_false, List.length_cons]
    omega

/-! ## The whole text -/

/-- The tokens at the end of a text, given the state before it. -/
def finish (limits : Limits) (source : String) (scan : Scan) (s : List Char) :
    Except Failure (List Token) :=
  match scan.run limits source s with
  | .error failure => .error failure
  | .ok scan =>
    match scan.flush limits with
    | .error failure => .error failure
    | .ok scan => .ok scan.tokens.toList

lemma finish_cons (scan : Scan) (c : Char) (s : List Char) :
    scan.finish limits source (c :: s) =
      match scan.step limits source c with
      | .error failure => .error failure
      | .ok scan => scan.finish limits source s := by
  simp only [finish, run]
  cases scan.step limits source c <;> rfl

/-- Counting while the tokens are read leads to the verdict on all of them. -/
lemma finish_eq_verdict (ha : scan.Aligned) (h : scan.tokens.size ≤ limits.tokenCount.toNat)
    (s : List Char) :
    scan.finish limits source s =
      ((segments scan.position scan.pending s).prepend scan.tokens.toList).verdict limits source := by
  induction s generalizing scan with
  | nil =>
    have hlength : (scan.tokens.toList ++ literalToken scan.position scan.pending).length =
        scan.completed.tokens.size := by
      simp [completed]
    rw [finish, run_nil]
    simp only
    rw [flush_eq ha h, counted, segments, Segments.prepend, Segments.verdict, hlength]
    split_ifs
    · rfl
    · simp [completed]
  | cons c rest ih =>
    rw [finish_cons]
    by_cases hb : isBoundary c = true
    · rw [step_boundary hb ha h, segments_boundary hb, Segments.prepend_prepend, counted]
      split_ifs with hlt
      · rw [Segments.verdict, if_pos]
        simp only [Segments.prepend, List.length_append, Array.length_toList, Array.size_append,
          List.size_toArray] at hlt ⊢
        omega
      · simp only
        rw [ih (fun hp => absurd rfl hp) (Nat.not_lt.1 hlt)]
        simp
    · rw [Bool.not_eq_true] at hb
      by_cases hp : Text.isPrintable c = true
      · rw [step_literal hb hp, segments_literal hb hp]
        exact ih (aligned_advance_extend ha c) h
      · rw [Bool.not_eq_true] at hp
        have hcount : ¬limits.tokenCount.toNat < (scan.tokens.toList ++ []).length := by
          simpa using h
        rw [step_stop hb hp, segments_stop hb hp, Segments.prepend, Segments.verdict, if_neg hcount]

end Scan

/-- An expression that is not too long is split into the tokens of its text, unless they are too many
or end at a bad character. -/
theorem tokenize_eq_verdict (limits : Limits) (source : String) :
    tokenize limits source =
      match limits.checkLength source with
      | .error failure => .error failure
      | .ok () => (segments 0 [] source.toList).verdict limits source := by
  unfold tokenize
  cases limits.checkLength source with
  | error failure => rfl
  | ok u => exact Scan.finish_eq_verdict (fun hp => absurd rfl hp) (Nat.zero_le _) source.toList

/-- What it takes for an expression to be split into tokens. -/
lemma tokenize_eq_ok_iff {limits : Limits} {source : String} {tokens : List Token} :
    tokenize limits source = .ok tokens ↔
      (source.length : Int) ≤ limits.expressionLength ∧
        segments 0 [] source.toList = ⟨tokens, none⟩ ∧
        tokens.length ≤ limits.tokenCount.toNat := by
  rw [tokenize_eq_verdict]
  by_cases hlength : (source.length : Int) ≤ limits.expressionLength
  · have hcheck : limits.checkLength source = .ok () := Limits.check_of_le hlength
    simp only [hcheck, hlength, true_and, Segments.verdict_eq_ok_iff]
  · have hcheck : limits.checkLength source = .error _ :=
      Limits.check_of_lt (Int.not_le.1 hlength)
    simp [hcheck, hlength]

end InfixCalculator.Token
