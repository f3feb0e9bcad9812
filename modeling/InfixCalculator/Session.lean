import InfixCalculator.Computation

/-!
# Sessions

A session keeps the computations since the last reset, in the order in which they were submitted, and
shows each as a line: the expression, an equals sign, and the value or the message of the error. An
expression whose error cannot be worded leaves no trace in the session; one whose value is too long
to be shown is kept, but has no line.
-/

namespace InfixCalculator

/-- Why a result has no line. -/
inductive LineFault where
  /-- There is neither a value nor an error. -/
  | noValue (expression : String)
  /-- The value has too many digits. -/
  | unwritable
  deriving DecidableEq, Repr

/-- The wording of a missing value. -/
def LineFault.message? : LineFault → Option String
  | noValue expression => some ("Result for '" ++ expression ++ "' has no value")
  | unwritable => none

/-- The line of an expression that met no error. -/
def valueLine (expression : String) : Option Number → Except LineFault String
  | none => .error (.noValue expression)
  | some value =>
    match value.display with
    | .ok text => .ok (expression ++ " = " ++ text)
    | .error _ => .error .unwritable

/-- The line of a computation. -/
def Computation.line (c : Computation) : Except LineFault String :=
  match c.outcome with
  | .error e => .ok (c.expression ++ " = error: " ++ e.message)
  | .ok value => valueLine c.expression (some value)

/-- A series of computations under the same limits. -/
structure Session where
  /-- The limits of every computation. -/
  limits : Limits
  /-- The computations since the last reset, the oldest first. -/
  history : List Computation

namespace Session

/-- A session without computations. -/
def start (limits : Limits) : Session :=
  ⟨limits, []⟩

/-- Computes an expression and keeps the computation, if there is one. -/
def submit (session : Session) (expression : String) :
    Session × Except Numeral.Unwritable Computation :=
  match compute session.limits expression with
  | .ok c => ({ session with history := session.history ++ [c] }, .ok c)
  | .error fault => (session, .error fault)

/-- Forgets all computations. -/
def reset (session : Session) : Session :=
  { session with history := [] }

/-- The lines of all computations, if every one has a line. -/
def lines (session : Session) : Except LineFault (List String) :=
  session.history.mapM Computation.line

@[simp] theorem limits_submit (session : Session) (expression : String) :
    (session.submit expression).1.limits = session.limits := by
  unfold submit
  split <;> rfl

/-- A computation is appended to the history. -/
theorem history_submit_of_ok {session : Session} {expression : String} {c : Computation}
    (h : compute session.limits expression = .ok c) :
    (session.submit expression).1.history = session.history ++ [c] := by
  simp [submit, h]

/-- Without a computation the session stays as it is. -/
theorem submit_of_error {session : Session} {expression : String} {fault : Numeral.Unwritable}
    (h : compute session.limits expression = .error fault) :
    session.submit expression = (session, .error fault) := by
  simp [submit, h]

end Session

end InfixCalculator
