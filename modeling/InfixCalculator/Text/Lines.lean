/-!
# Line ends

A line ends with a line feed, with a carriage return, or with a carriage return and a line feed. Whoever
reads a text makes all of them line feeds first, and nothing else is changed.
-/

namespace InfixCalculator.Text

/-- A text with every kind of line end made a line feed. -/
def normalizeLines : List Char → List Char
  | '\r' :: '\n' :: rest => '\n' :: normalizeLines rest
  | '\r' :: rest => '\n' :: normalizeLines rest
  | c :: rest => c :: normalizeLines rest
  | [] => []

theorem normalizeLines_cons_of_ne {c : Char} (h : c ≠ '\r') (rest : List Char) :
    normalizeLines (c :: rest) = c :: normalizeLines rest := by
  rw [normalizeLines]
  · rintro rest' rfl -
    exact h rfl
  · rintro rfl
    exact h rfl

/-- A carriage return that no line feed follows ends a line on its own. -/
theorem normalizeLines_cons_return {rest : List Char} (h : rest.head? ≠ some '\n') :
    normalizeLines ('\r' :: rest) = '\n' :: normalizeLines rest := by
  rw [normalizeLines]
  rintro rest' rfl
  exact h rfl

end InfixCalculator.Text
