import InfixCalculator.Number.Lemmas
import InfixCalculator.Operator

/-!
# What can go wrong in an operation

An operation may exceed the doubles, whatever its operator is.  Besides, only a quotient and a power
divide by zero, and only a power leaves the real line (`apply_eq_error`).
-/

namespace InfixCalculator

namespace Number

/-- A double is the number itself, or an integer rounded; an integer may be too large to be rounded.
How integers are rounded does not matter, and is kept out of sight here, for it leads to numbers of a
thousand bits. -/
lemma cases_of_match (round : Int → Option Float) {n : Number} {answer : Except Fault Float}
    (h : (match n with
      | .int n => match round n with
        | some x => .ok x
        | none => .error .overflow
      | .float x => .ok x) = answer) :
    (∃ k x, n = .int k ∧ round k = some x ∧ answer = .ok x) ∨
      (∃ x, n = .float x ∧ answer = .ok x) ∨ answer = .error .overflow := by
  split at h
  · next k =>
      split at h
      · next x hround => exact .inl ⟨k, x, rfl, hround, h.symm⟩
      · exact .inr (.inr h.symm)
  · next x => exact .inr (.inl ⟨x, rfl, h.symm⟩)

lemma toFloat_eq_error {n : Number} {fault : Fault} (h : n.toFloat = .error fault) :
    fault = .overflow := by
  rcases cases_of_match Binary64.ofInt? h with ⟨k, x, -, -, hx⟩ | ⟨x, -, hx⟩ | hf
  · exact absurd hx (by simp)
  · exact absurd hx (by simp)
  · exact Except.error.inj hf

lemma toFloat_eq_ok {n : Number} {x : Float} (h : n.toFloat = .ok x) :
    (∃ k, n = .int k ∧ Binary64.ofInt? k = some x) ∨ n = .float x := by
  rcases cases_of_match Binary64.ofInt? h with ⟨k, y, hn, hround, hy⟩ | ⟨y, hn, hy⟩ | hf
  · obtain rfl := Except.ok.inj hy
    exact .inl ⟨k, hn, hround⟩
  · obtain rfl := Except.ok.inj hy
    exact .inr hn
  · exact absurd hf (by simp)

/-- An operation that is carried out in doubles fails as it does on doubles, or because an operand is
beyond every double. -/
lemma inDoubles_eq_error {op : Float → Float → Except Fault Float} {left right : Number}
    {fault : Fault} (h : inDoubles op left right = .error fault) :
    fault = .overflow ∨
      ∃ x y, left.toFloat = .ok x ∧ right.toFloat = .ok y ∧ op x y = .error fault := by
  unfold inDoubles at h
  split at h
  · next hleft =>
      obtain rfl := Except.error.inj h
      exact Or.inl (toFloat_eq_error hleft)
  · next x hx =>
      split at h
      · next hright =>
          obtain rfl := Except.error.inj h
          exact Or.inl (toFloat_eq_error hright)
      · next y hy =>
          cases hop : op x y with
          | error fault' =>
            rw [hop] at h
            obtain rfl : fault' = fault := Except.error.inj h
            exact Or.inr ⟨x, y, hx, hy, hop⟩
          | ok z =>
            rw [hop] at h
            exact absurd h (by simp [Except.map])

end Number

/-- Only a quotient or a power divides by zero, and only a power leaves the real line. -/
lemma Operator.apply_eq_error {op : Operator} {left right : Number} {fault : Fault}
    (h : op.apply left right = .error fault) :
    fault = .overflow ∨ (fault = .divisionByZero ∧ (op = .div ∨ op = .pow)) ∨
      fault = .notReal ∧ op = .pow := by
  have hexact {f : Float → Float → Float}
      (h : Number.inDoubles (fun x y => .ok (f x y)) left right = .error fault) :
      fault = .overflow := by
    rcases Number.inDoubles_eq_error h with hf | ⟨x, y, -, -, hxy⟩
    · exact hf
    · exact absurd hxy (by simp)
  cases op with
  | add =>
    simp only [Operator.apply, Number.add] at h
    split at h
    · exact absurd h (by simp)
    · exact Or.inl (hexact h)
  | sub =>
    simp only [Operator.apply, Number.sub] at h
    split at h
    · exact absurd h (by simp)
    · exact Or.inl (hexact h)
  | mul =>
    simp only [Operator.apply, Number.mul] at h
    split at h
    · exact absurd h (by simp)
    · exact Or.inl (hexact h)
  | div =>
    simp only [Operator.apply, Number.div] at h
    split at h
    · unfold Number.intQuotient at h
      split at h
      · cases h
        exact Or.inr (Or.inl ⟨rfl, Or.inl rfl⟩)
      · split at h
        · exact absurd h (by simp)
        · split at h <;> cases h
          exact Or.inl rfl
    · rcases Number.inDoubles_eq_error h with hf | ⟨x, y, -, -, hxy⟩
      · exact Or.inl hf
      · split at hxy <;> cases hxy
        exact Or.inr (Or.inl ⟨rfl, Or.inl rfl⟩)
  -- a power may have any of the faults
  | pow => cases fault <;> simp

end InfixCalculator
