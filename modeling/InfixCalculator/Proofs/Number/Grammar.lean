import InfixCalculator.Proofs.Number.Exact
import InfixCalculator.Proofs.Number.Nearest

/-!
# The grammar of literals

A decimal is digits before and after a point, or digits without one, and may have an exponent; on one
side of the point the digits may be missing, and an exponent has at least one digit and no sign
(`Denotes`, which also gives the number that a text denotes).

A text is read as an integer exactly if it is digits alone and there are not too many of them, and as a
double exactly if it is another text of the grammar and its number is not too large; the double is then
the one nearest to the number (`literal?_grammar`).  Reading takes the longest run of digits at each
place.  This loses nothing, for neither a point nor an exponent begins with a digit (`takeDigits_append`,
`Exponent.head?`), so the texts that are read as decimals are those of the grammar
(`Denotes.exists_read?`, `denotes_of_read?`).
-/

namespace InfixCalculator.Number

open Binary64

/-! ## The grammar -/

/-- The digits of a number before its exponent, with the number that they denote. -/
inductive Significand : List Char → ℚ → Prop
  /-- Digits alone. -/
  | whole {whole : List Char} (h : isDigits whole = true) : Significand whole (decimalValue whole)
  /-- Digits and a point, and perhaps digits after it. -/
  | pointed {whole fraction : List Char} (hwhole : isDigits whole = true)
      (hfraction : fraction = [] ∨ isDigits fraction = true) :
      Significand (whole ++ '.' :: fraction)
        (decimalValue whole + decimalValue fraction / 10 ^ fraction.length)
  /-- A point and digits after it. -/
  | fraction {fraction : List Char} (h : isDigits fraction = true) :
      Significand ('.' :: fraction) (decimalValue fraction / 10 ^ fraction.length)

/-- An exponent, which may be absent. -/
inductive Exponent : List Char → ℕ → Prop
  /-- No exponent. -/
  | none : Exponent [] 0
  /-- A mark and digits. -/
  | marked {mark : Char} {digits : List Char} (hmark : mark = 'e' ∨ mark = 'E')
      (h : isDigits digits = true) : Exponent (mark :: digits) (decimalValue digits)

/-- The text of a decimal with its value. -/
inductive Denotes : List Char → ℚ → Prop
  /-- A significand and an exponent. -/
  | intro {s t : List Char} {v : ℚ} {k : ℕ} (hs : Significand s v) (ht : Exponent t k) :
      Denotes (s ++ t) (v * 10 ^ k)

variable {s t : List Char} {v : ℚ} {k : ℕ} {d : Decimal}

/-! ## Reading decimals -/

lemma decimalValue_append (s t : List Char) :
    decimalValue (s ++ t) = decimalValue s * 10 ^ t.length + decimalValue t := by
  rw [decimalValue, List.map_append, List.reverse_append, Nat.ofDigits_append, List.length_reverse,
    List.length_map, mul_comm, add_comm]
  rfl

lemma value_ofDigits (whole fraction : List Char) (k : ℕ) :
    (Decimal.ofDigits whole fraction k).value =
      (decimalValue whole + decimalValue fraction / 10 ^ fraction.length) * 10 ^ k := by
  rw [Decimal.value, Decimal.ofDigits, ofDigits_eq_decimalValue, decimalValue_append,
    zpow_sub₀ (by norm_num), zpow_natCast, zpow_natCast]
  push_cast
  field_simp

lemma isDigits_iff : isDigits s = true ↔ s ≠ [] ∧ ∀ c ∈ s, c.isDigit = true := by
  simp [isDigits]

/-- Digits are taken from the beginning of a text, up to what is no digit. -/
lemma takeDigits_append (hs : ∀ c ∈ s, c.isDigit = true) (ht : ∀ c ∈ t.head?, c.isDigit = false) :
    takeDigits (s ++ t) = (s, t) := by
  have htake : t.takeWhile Char.isDigit = [] := by
    cases t with
    | nil => rfl
    | cons c rest => rw [List.takeWhile_cons_of_neg (by simp [ht c rfl])]
  have hdrop : t.dropWhile Char.isDigit = t := by
    have hsplit := List.takeWhile_append_dropWhile (p := Char.isDigit) (l := t)
    rwa [htake, List.nil_append] at hsplit
  rw [takeDigits, List.takeWhile_append_of_pos hs, List.dropWhile_append_of_pos hs, htake, hdrop,
    List.append_nil]

lemma takeDigits_eq {s whole rest : List Char} (h : takeDigits s = (whole, rest)) :
    s = whole ++ rest ∧ ∀ c ∈ whole, c.isDigit = true := by
  obtain ⟨rfl, rfl⟩ := Prod.mk.inj h
  exact ⟨List.takeWhile_append_dropWhile.symm, fun c hc => List.mem_takeWhile_imp hc⟩

lemma Exponent.unsignedExponent?_eq (h : Exponent t k) : unsignedExponent? t = some (k : ℤ) := by
  cases h with
  | none => rfl
  | @marked mark digits hmark h =>
    obtain ⟨hne, hall⟩ := Bool.and_eq_true_iff.1 h
    have hmark' : (mark == 'e' || mark == 'E') = true := by simpa using hmark
    rw [unsignedExponent?, hmark', hne, hall, ofDigits_eq_decimalValue]
    rfl

lemma exponent_of_unsignedExponent? {e : ℤ} (h : unsignedExponent? t = some e) :
    ∃ k : ℕ, e = k ∧ Exponent t k := by
  cases t with
  | nil =>
    cases h
    exact ⟨0, rfl, .none⟩
  | cons mark digits =>
    simp only [unsignedExponent?] at h
    split_ifs at h with hcond
    cases h
    obtain ⟨hmark, hdigits⟩ : (mark = 'e' ∨ mark = 'E') ∧ isDigits digits = true := by
      simpa [isDigits, and_assoc] using hcond
    exact ⟨_, by rw [ofDigits_eq_decimalValue], .marked hmark hdigits⟩

/-- An exponent begins with no digit and no point. -/
lemma Exponent.head? (h : Exponent t k) : ∀ c ∈ t.head?, c.isDigit = false ∧ c ≠ '.' := by
  cases h with
  | none => simp
  | marked hmark =>
    intro c hc
    obtain rfl := Option.mem_some_iff.1 hc
    rcases hmark with rfl | rfl <;> decide

lemma read?_point {whole fraction : List Char} (hwhole : ∀ c ∈ whole, c.isDigit = true)
    (hfraction : ∀ c ∈ fraction, c.isDigit = true) (hsome : whole ≠ [] ∨ fraction ≠ [])
    (ht : Exponent t k) :
    Decimal.read? unsignedExponent? (whole ++ '.' :: (fraction ++ t)) =
      some (Decimal.ofDigits whole fraction k) := by
  have hpoint : takeDigits (whole ++ '.' :: (fraction ++ t)) = (whole, '.' :: (fraction ++ t)) :=
    takeDigits_append hwhole (by simp)
  have hrest : takeDigits (fraction ++ t) = (fraction, t) :=
    takeDigits_append hfraction fun c hc => (ht.head? c hc).1
  have hne : ¬(whole.isEmpty && fraction.isEmpty) = true := by
    simpa [or_iff_not_imp_left] using hsome
  simp only [Decimal.read?, hpoint, hrest]
  rw [if_neg hne, ht.unsignedExponent?_eq]
  rfl

lemma read?_whole {whole : List Char} (h : isDigits whole = true) (ht : Exponent t k) :
    Decimal.read? unsignedExponent? (whole ++ t) = some (Decimal.ofDigits whole [] k) := by
  obtain ⟨hsome, hwhole⟩ := isDigits_iff.1 h
  have hsplit : takeDigits (whole ++ t) = (whole, t) :=
    takeDigits_append hwhole fun c hc => (ht.head? c hc).1
  have hempty : whole.isEmpty = false := by simpa using hsome
  simp only [Decimal.read?, hsplit]
  split
  · -- no exponent begins with a point
    exact absurd rfl (ht.head? '.' rfl).2
  · simp only [hempty, Bool.false_and, Bool.false_eq_true, if_false, ht.unsignedExponent?_eq]
    rfl

/-- Every text of the grammar is read as a decimal with the value that it denotes. -/
lemma Denotes.exists_read? (h : Denotes s v) :
    ∃ d, Decimal.read? unsignedExponent? s = some d ∧ d.value = v := by
  obtain @⟨s, t, v, k, hs, ht⟩ := h
  cases hs with
  | whole h =>
    refine ⟨_, read?_whole h ht, ?_⟩
    rw [value_ofDigits]
    simp [decimalValue]
  | @pointed whole fraction hwhole hfraction =>
    obtain ⟨hne, hall⟩ := isDigits_iff.1 hwhole
    have hfraction : ∀ c ∈ fraction, c.isDigit = true := by
      rcases hfraction with rfl | hfraction
      · simp
      · exact (isDigits_iff.1 hfraction).2
    rw [List.append_assoc, List.cons_append]
    exact ⟨_, read?_point hall hfraction (.inl hne) ht, value_ofDigits _ _ _⟩
  | @fraction fraction h =>
    obtain ⟨hne, hall⟩ := isDigits_iff.1 h
    have hwhole : ∀ c ∈ ([] : List Char), c.isDigit = true := by simp
    refine ⟨_, read?_point hwhole hall (.inr hne) ht, ?_⟩
    rw [value_ofDigits]
    simp [decimalValue]

lemma Denotes.nonneg (h : Denotes s v) : 0 ≤ v := by
  obtain ⟨d, -, rfl⟩ := h.exists_read?
  exact d.value_nonneg

/-- Digits before and after a point are a significand, if there are any. -/
lemma significand_of_digits {whole fraction : List Char} (hwhole : ∀ c ∈ whole, c.isDigit = true)
    (hfraction : ∀ c ∈ fraction, c.isDigit = true) (hsome : whole ≠ [] ∨ fraction ≠ []) :
    Significand (whole ++ '.' :: fraction)
      (decimalValue whole + decimalValue fraction / 10 ^ fraction.length) := by
  rcases eq_or_ne whole [] with rfl | hne
  · have hzero : decimalValue [] = 0 := rfl
    have hdigits := isDigits_iff.2 ⟨hsome.resolve_left (not_not.2 rfl), hfraction⟩
    simpa [hzero] using Significand.fraction hdigits
  · refine .pointed (isDigits_iff.2 ⟨hne, hwhole⟩) ?_
    exact or_iff_not_imp_left.2 fun hne' => isDigits_iff.2 ⟨hne', hfraction⟩

/-- What is read as a decimal is a text of the grammar, with its value. -/
lemma denotes_of_read? (h : Decimal.read? unsignedExponent? s = some d) : Denotes s d.value := by
  obtain ⟨whole, rest, hwhole⟩ : ∃ whole rest, takeDigits s = (whole, rest) := ⟨_, _, rfl⟩
  obtain ⟨rfl, hdigits⟩ := takeDigits_eq hwhole
  simp only [Decimal.read?, hwhole] at h
  split at h
  · -- the digits are followed by a point
    next tail =>
    obtain ⟨fraction, exponent, hfraction⟩ : ∃ f e, takeDigits tail = (f, e) := ⟨_, _, rfl⟩
    obtain ⟨rfl, hdigits'⟩ := takeDigits_eq hfraction
    simp only [hfraction] at h
    split_ifs at h with hempty
    obtain ⟨e, he, rfl⟩ := Option.map_eq_some_iff.1 h
    obtain ⟨k, rfl, hk⟩ := exponent_of_unsignedExponent? he
    have hsome : whole ≠ [] ∨ fraction ≠ [] := by
      simpa [or_iff_not_imp_left] using hempty
    have hsignificand := significand_of_digits hdigits hdigits' hsome
    have hdenotes := Denotes.intro hsignificand hk
    rwa [← value_ofDigits, List.append_assoc, List.cons_append] at hdenotes
  · -- there is no point, and there are no digits after it
    simp only [List.isEmpty_nil, Bool.and_true] at h
    split_ifs at h with hempty
    obtain ⟨e, he, rfl⟩ := Option.map_eq_some_iff.1 h
    obtain ⟨k, rfl, hk⟩ := exponent_of_unsignedExponent? he
    have hne : whole ≠ [] := by simpa using hempty
    have hdenotes := Denotes.intro (.whole (isDigits_iff.2 ⟨hne, hdigits⟩)) hk
    have hvalue : (Decimal.ofDigits whole [] k).value = decimalValue whole * 10 ^ k := by
      rw [value_ofDigits]
      simp [decimalValue]
    rwa [hvalue]

/-! ## Literals -/

lemma literal?_eq_some_float_iff {x : Float} :
    literal? s = some (.float x) ↔ isDigits s = false ∧ ∃ v, Denotes s v ∧ IsNearest v x := by
  unfold literal?
  split_ifs with hdigits hlength
  · simp [hdigits]
  · simp [hdigits]
  · have hfalse : isDigits s = false := by simpa using hdigits
    rw [and_iff_right hfalse]
    constructor
    · intro h
      split at h
      · next d hread =>
        obtain ⟨y, hy, hx⟩ := Option.map_eq_some_iff.1 h
        cases hx
        exact ⟨d.value, denotes_of_read? hread, Decimal.nearest?_eq_some_iff.1 hy⟩
      · exact absurd h (by simp)
    · rintro ⟨v, hv, hnear⟩
      obtain ⟨d, hread, rfl⟩ := hv.exists_read?
      rw [hread]
      simp only
      rw [Decimal.nearest?_eq_some_iff.2 hnear]
      rfl

/-- What all literals have in common: the characters that are in them, at most one point, at least one
digit, and no mark of an exponent at the end. -/
structure Plain (s : List Char) : Prop where
  chars : ∀ c ∈ s, c.isDigit = true ∨ c = '.' ∨ c = 'e' ∨ c = 'E'
  point : s.count '.' ≤ 1
  digit : ∃ c ∈ s, c.isDigit = true
  last : ∀ c ∈ s.getLast?, c.isDigit = true ∨ c = '.'

lemma count_point_of_digits (h : ∀ c ∈ s, c.isDigit = true) : s.count '.' = 0 := by
  rw [List.count_eq_zero]
  exact fun hmem => absurd (h '.' hmem) (by decide)

lemma plain_of_isDigits (h : isDigits s = true) : Plain s := by
  obtain ⟨hne, hall⟩ := isDigits_iff.1 h
  obtain ⟨c, hc⟩ := List.exists_mem_of_ne_nil s hne
  refine ⟨fun c hc => .inl (hall c hc), ?_, ⟨c, hc, hall c hc⟩, fun c hc => ?_⟩
  · rw [count_point_of_digits hall]
    exact Nat.zero_le 1
  · exact .inl (hall c (List.mem_of_getLast? hc))

lemma plain_of_point {whole fraction : List Char} (hwhole : ∀ c ∈ whole, c.isDigit = true)
    (hfraction : ∀ c ∈ fraction, c.isDigit = true) (hsome : whole ≠ [] ∨ fraction ≠ []) :
    Plain (whole ++ '.' :: fraction) := by
  refine ⟨fun c hc => ?_, ?_, ?_, fun c hc => ?_⟩
  · rcases List.mem_append.1 hc with hc | hc
    · exact .inl (hwhole c hc)
    · exact (List.mem_cons.1 hc).elim (fun h => .inr (.inl h)) fun h => .inl (hfraction c h)
  · rw [List.count_append, List.count_cons_self, count_point_of_digits hwhole,
      count_point_of_digits hfraction]
  · rcases hsome with hne | hne
    · obtain ⟨c, hc⟩ := List.exists_mem_of_ne_nil _ hne
      exact ⟨c, List.mem_append_left _ hc, hwhole c hc⟩
    · obtain ⟨c, hc⟩ := List.exists_mem_of_ne_nil _ hne
      exact ⟨c, List.mem_append_right _ (List.mem_cons_of_mem _ hc), hfraction c hc⟩
  · rw [List.getLast?_append, List.getLast?_cons] at hc
    cases hlast : fraction.getLast? with
    | none => exact .inr (by simpa [hlast, eq_comm] using hc)
    | some d =>
      obtain rfl : d = c := by simpa [hlast] using hc
      exact .inl (hfraction d (List.mem_of_getLast? hlast))

lemma Significand.plain (h : Significand s v) : Plain s := by
  cases h with
  | whole h => exact plain_of_isDigits h
  | pointed hwhole hfraction =>
    obtain ⟨hne, hall⟩ := isDigits_iff.1 hwhole
    refine plain_of_point hall ?_ (.inl hne)
    rcases hfraction with rfl | h
    · simp
    · exact (isDigits_iff.1 h).2
  | @fraction fraction h =>
    obtain ⟨hne, hall⟩ := isDigits_iff.1 h
    have hwhole : ∀ c ∈ ([] : List Char), c.isDigit = true := by simp
    exact plain_of_point hwhole hall (.inr hne)

lemma Denotes.plain (h : Denotes s v) : Plain s := by
  obtain @⟨s, t, v, k, hs, ht⟩ := h
  have hplain := hs.plain
  cases ht with
  | none => rwa [List.append_nil]
  | @marked mark digits hmark h =>
    obtain ⟨hne, hall⟩ := isDigits_iff.1 h
    obtain ⟨c, hc, hdigit⟩ := hplain.digit
    have hpoint : mark ≠ '.' := by rcases hmark with rfl | rfl <;> decide
    refine ⟨fun d hd => ?_, ?_, ⟨c, List.mem_append_left _ hc, hdigit⟩, fun d hd => ?_⟩
    · rcases List.mem_append.1 hd with hd | hd
      · exact hplain.chars d hd
      · rcases List.mem_cons.1 hd with rfl | hd
        · exact .inr (.inr hmark)
        · exact .inl (hall d hd)
    · rw [List.count_append, List.count_cons_of_ne hpoint, count_point_of_digits hall]
      exact hplain.point
    · rw [List.getLast?_append_of_ne_nil _ (by simp), List.getLast?_cons_of_ne_nil hne] at hd
      exact .inl (hall d (List.mem_of_getLast? hd))

lemma plain_of_literal? {number : Number} (h : literal? s = some number) : Plain s := by
  cases number with
  | int n => exact plain_of_isDigits (literal?_eq_some_int_iff.1 h).1
  | float x =>
    obtain ⟨-, v, hv, -⟩ := literal?_eq_some_float_iff.1 h
    exact hv.plain

/-- A text is read as an integer exactly if it is one to 4300 ASCII digits, and the integer is the number
that these denote.  It is read as a double exactly if it is not digits alone but a text of the grammar,
and the double is the nearest to the number that it denotes; there is one if the number is not beyond
the doubles.  All other texts are refused, so in every literal there are no other characters than digits,
a point and the mark of an exponent, no second point, and neither a mark nor a point without digits. -/
theorem literal?_grammar (s : List Char) :
    (∀ n, literal? s = some (.int n) ↔
      (1 ≤ s.length ∧ s.length ≤ 4300 ∧ ∀ c ∈ s, c.isDigit = true) ∧ n = decimalValue s) ∧
    (∀ x, literal? s = some (.float x) ↔
      isDigits s = false ∧ ∃ v, Denotes s v ∧ IsNearest v x) ∧
    ((∃ x, literal? s = some (.float x)) ↔
      isDigits s = false ∧ ∃ v, Denotes s v ∧ v < 2 ^ 1024 - 2 ^ 970) ∧
    ∀ number, literal? s = some number → Plain s := by
  refine ⟨fun n => ?_, fun x => literal?_eq_some_float_iff, ?_, fun _ => plain_of_literal?⟩
  · have hmax : Numeral.maxDigits = 4300 := rfl
    rw [literal?_eq_some_int_iff, isDigits_iff, ← List.length_pos_iff, hmax]
    tauto
  · simp only [literal?_eq_some_float_iff, exists_and_left]
    refine and_congr_right fun _ => ?_
    rw [exists_comm]
    refine exists_congr fun v => ?_
    rw [exists_and_left]
    exact and_congr_right fun hv => exists_isNearest_iff hv.nonneg

example : literal? "007".toList = some (.int 7) := by decide

example : literal? ['.'] = none := by decide

example : literal? "1e+5".toList = none := by decide

end InfixCalculator.Number
