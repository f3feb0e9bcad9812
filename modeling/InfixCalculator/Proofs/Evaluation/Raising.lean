import InfixCalculator.Proofs.Evaluation.Size
import InfixCalculator.Proofs.Number.DivisionByZero

/-!
# What an evaluation can raise

Here the evaluation is spelt out once more, and nothing in it is safe by itself (`Raising.evaluate`).
An operation on numbers raises its fault unless that is caught, an operator is looked up in a table
that may lack it, an operand is taken from a stack that may be empty, and an error is worded when it is
raised, which an integer of too many digits prevents.  The checks that stand before all this make the
two evaluations agree, step by step (`Raising.Agrees`), so nothing is raised but errors, or the refusal
to word one.  What is reported as a division by zero is one, and every one is reported
(`dividesByZero_of_combine`, `combine_of_dividesByZero`).  The main statement is `evaluate_guarded`.
-/

namespace InfixCalculator

/-- The integers in the message of a cause.  The number of values that are left over is not among them,
for no stack is so high that its height could not be written. -/
def Cause.quantities : Cause → List Int
  | limitExceeded _ bound actual => [bound, actual]
  | malformed (.noRealResult base exponent) => base.integers ++ exponent.integers
  | _ => []

namespace Rpn

/-! ## Division by zero -/

section DivisionByZero

variable {limits : Limits} {source : Option String} {op : Operator} {position : Int}
  {left right : Number} {e : ExpressionError}

lemma admissible_of_dividesByZero (h : op.DividesByZero left right) :
    admissible limits source op position left right =
      .error (.atPosition .divisionByZero position source) := by
  rcases Operator.dividesByZero_iff.1 h with ⟨rfl, hz⟩ | ⟨rfl, hz, hneg⟩
  · simp [admissible, hz]
  · simp [admissible, hz, hneg]

lemma combine_of_dividesByZero (h : op.DividesByZero left right) :
    combine limits source op position left right =
      .error (.atPosition .divisionByZero position source) := by
  rw [combine, admissible_of_dividesByZero h]

/-- The fault that is not caught does not arise in an operation that is admitted. -/
lemma ne_divisionByZero_of_admissible {fault : Fault}
    (hadm : admissible limits source op position left right = .ok ())
    (hop : op.apply left right = .error fault) : fault ≠ .divisionByZero := by
  rintro rfl
  rw [admissible_of_dividesByZero (Operator.dividesByZero_of_apply hop)] at hadm
  exact absurd hadm (by simp)

lemma dividesByZero_of_admissible
    (h : admissible limits source op position left right = .error (.error e))
    (he : e.kind = .divisionByZero) : op.DividesByZero left right := by
  rw [Operator.dividesByZero_iff]
  unfold admissible at h
  split at h
  · split at h
    · next hz => exact .inl ⟨rfl, hz⟩
    · exact absurd h (by simp)
  · split at h
    · next hz => exact .inr ⟨rfl, Bool.and_eq_true_iff.1 hz⟩
    · split at h
      · have hkind := (checkPower_eq_error h).kind_eq
        exact absurd (he.symm.trans hkind) (by simp)
      · exact absurd h (by simp)
  · exact absurd h (by simp)

lemma dividesByZero_of_combine
    (h : combine limits source op position left right = .error (.error e))
    (he : e.kind = .divisionByZero) : op.DividesByZero left right := by
  unfold combine at h
  split at h
  · next hadm =>
      cases h
      exact dividesByZero_of_admissible hadm he
  · split at h
    · next fault hop =>
        cases h
        cases fault with
        | divisionByZero => exact Operator.dividesByZero_of_apply hop
        | overflow => exact absurd he (by simp [ExpressionError.kind, faultCause, Cause.kind])
        | notReal => exact absurd he (by simp [ExpressionError.kind, faultCause, Cause.kind])
    · rcases checkResult_eq_error h with hf | hex
      · cases hf
        exact absurd he (by simp [ExpressionError.kind, Cause.kind])
      · exact absurd (he.symm.trans hex.kind_eq) (by simp)

end DivisionByZero

/-! ## The evaluation that may raise anything -/

/-- What is raised where an evaluation stops. -/
inductive Exit where
  /-- An error of the expression. -/
  | error (e : ExpressionError)
  /-- An error was to be raised, but its message holds an integer of too many digits. -/
  | unworded (cause : Cause)
  /-- A fault of the arithmetic that nobody has caught. -/
  | fault (fault : Fault)
  /-- An operator that is not in the table. -/
  | noEntry
  /-- An element that is not on the stack. -/
  | noElement
  deriving DecidableEq

namespace Raising

variable {α : Type}

/-- Raises an error, which is worded at once. -/
def raise (cause : Cause) (position : Option Int) (source : Option String) : Except Exit α :=
  if cause.quantities.all Numeral.isWritable then .error (.error ⟨cause, position, source⟩)
  else .error (.unworded cause)

/-- Rejects a quantity above its bound. -/
def check (limits : Limits) (limit : Limit) (actual : Int) : Except Exit Unit :=
  if limits.bound limit < actual then
    raise (.limitExceeded limit.name (limits.bound limit) actual) none none
  else .ok ()

/-- The number of a literal. -/
def literalValue (limits : Limits) (source : Option String) (token : Token) :
    Except Exit Number :=
  match Number.literal? token.text.toList with
  | none => raise (.invalidLiteral token.text) token.position source
  | some (.float x) => .ok (.float x)
  | some (.int n) => do
    check limits .integerBits (Number.bitLength n)
    return .int n

/-- Rejects a power of integers that is too large to be computed. -/
def checkPower (limits : Limits) (base exponent : Int) : Except Exit Unit :=
  if base.natAbs ≤ 1 then .ok ()
  else do
    check limits .exponent exponent.natAbs
    if 0 < exponent then check limits .integerBits (powerBits base exponent) else .ok ()

/-- Rejects divisions by zero and powers that are too large. -/
def checkOperands (limits : Limits) (source : Option String) (op : Operator) (position : Int)
    (left right : Number) : Except Exit Unit :=
  match op with
  | .div => if right.isZero then raise .divisionByZero position source else .ok ()
  | .pow =>
    if left.isZero && right.isNegative then raise .divisionByZero position source
    else
      match left, right with
      | .int base, .int exponent => checkPower limits base exponent
      | _, _ => .ok ()
  | _ => .ok ()

/-- Carries out an operation.  An overflow is caught, and a result off the real line is noticed; a
division by zero is not. -/
def calculate (source : Option String) (op : Operator) (position : Int) (left right : Number) :
    Except Exit Number :=
  match op.apply left right with
  | .ok result => .ok result
  | .error .overflow => raise (.numericOverflow (String.singleton op.symbol)) position source
  | .error .notReal => raise (.malformed (.noRealResult left right)) position source
  | .error .divisionByZero => .error (.fault .divisionByZero)

/-- Rejects a double that is not finite, and an integer that is too large. -/
def checkResult (limits : Limits) (source : Option String) (op : Operator) (position : Int) :
    Number → Except Exit Number
  | .int n => do
    check limits .integerBits (Number.bitLength n)
    return .int n
  | .float x =>
    if x.isFinite then .ok (.float x)
    else raise (.numericOverflow (String.singleton op.symbol)) position source

/-- The result of an operator. -/
def combine (limits : Limits) (source : Option String) (op : Operator) (position : Int)
    (left right : Number) : Except Exit Number := do
  checkOperands limits source op position left right
  let result ← calculate source op position left right
  checkResult limits source op position result

/-- The entry of a token in the table of operators. -/
def lookUp (token : Token) : Except Exit Operator :=
  match token.kind.operator? with
  | some op => .ok op
  | none => .error .noEntry

/-- The element on top of the stack, and those below it. -/
def pop : List Number → Except Exit (Number × List Number)
  | [] => .error .noElement
  | top :: rest => .ok (top, rest)

/-- Takes in one token. -/
def step (limits : Limits) (source : Option String) (stack : List Number) (token : Token) :
    Except Exit (List Number) :=
  if token.kind = .literal then do
    let value ← literalValue limits source token
    return value :: stack
  else if token.kind.isOperator then do
    let op ← lookUp token
    if stack.length < op.arity then
      raise (.malformed (.missingOperand token.text)) token.position source
    else do
      let (right, stack) ← pop stack
      let (left, stack) ← pop stack
      let value ← combine limits source op token.position left right
      return value :: stack
  else raise (.malformed (.unexpectedToken token.text)) token.position source

/-- Takes in a list of tokens. -/
def run (limits : Limits) (source : Option String) :
    List Number → List Token → Except Exit (List Number)
  | stack, [] => .ok stack
  | stack, token :: rest => do
    let stack ← step limits source stack token
    run limits source stack rest

/-- The number at the bottom of the stack, above which there should be no other. -/
def result (source : Option String) (stack : List Number) : Except Exit Number :=
  if stack.isEmpty then raise (.malformed .noValue) none source
  else if 1 < stack.length then raise (.malformed (.leftOver stack.length)) none source
  else
    match stack.getLast? with
    | some value => .ok value
    | none => .error .noElement

/-- The value of a postfix sequence. -/
def evaluate (limits : Limits) (source : Option String) (tokens : List Token) :
    Except Exit Number := do
  let stack ← run limits source [] tokens
  result source stack

/-! ## Agreement -/

/-- What is raised is an error that is reported, or the refusal to write an integer in one. -/
inductive Shows : Exit → Failure → Prop
  | error (e : ExpressionError) : Shows (.error e) (.error e)
  | unworded {cause : Cause} {n : Int} (hn : n ∈ cause.quantities)
      (hlong : Numeral.isWritable n = false) : Shows (.unworded cause) .unwritable

/-- The answer of the evaluation that may raise anything is that of the other one. -/
inductive Agrees : Except Exit α → Except Failure α → Prop
  | value (a : α) : Agrees (.ok a) (.ok a)
  | exit {exit : Exit} {failure : Failure} (h : Shows exit failure) :
      Agrees (.error exit) (.error failure)

variable {limits : Limits} {source : Option String} {token : Token}

/-- The two ways in which answers agree. -/
@[elab_as_elim]
lemma Agrees.elim {motive : Except Exit α → Except Failure α → Prop} {raising : Except Exit α}
    {answer : Except Failure α} (h : Agrees raising answer)
    (value : ∀ a, answer = .ok a → motive (.ok a) (.ok a))
    (exit : ∀ {exit failure}, Shows exit failure → motive (.error exit) (.error failure)) :
    motive raising answer := by
  cases h with
  | value a => exact value a rfl
  | exit h => exact exit h

/-- An error is raised if all of its message can be written. -/
lemma agrees_raise {cause : Cause} (h : ∀ n ∈ cause.quantities, Numeral.isWritable n = true)
    (position : Option Int) (source : Option String) :
    Agrees (raise cause position source : Except Exit α)
      (.error (.error ⟨cause, position, source⟩)) := by
  rw [raise, if_pos (List.all_eq_true.2 h)]
  exact .exit (.error _)

/-- An error without integers in its message is raised. -/
lemma agrees_raise_of_nil {cause : Cause} (h : cause.quantities = []) (position : Option Int)
    (source : Option String) :
    Agrees (raise cause position source : Except Exit α)
      (.error (.error ⟨cause, position, source⟩)) :=
  agrees_raise (by simp [h]) position source

lemma agrees_check (limits : Limits) (limit : Limit) (actual : Int) :
    Agrees (check limits limit actual) (limits.check limit actual) := by
  unfold check Limits.check
  split
  · unfold raise Failure.beyond
    simp only [Cause.quantities, List.all_cons, List.all_nil, Bool.and_true]
    split
    · exact .exit (.error _)
    · next hlong =>
        rw [Bool.and_eq_true_iff, not_and_or] at hlong
        rcases hlong with hbound | hactual
        · exact .exit (.unworded (by simp [Cause.quantities]) (Bool.eq_false_iff.2 hbound))
        · exact .exit (.unworded (by simp [Cause.quantities]) (Bool.eq_false_iff.2 hactual))
  · exact .value ()

lemma agrees_checkInteger (limits : Limits) (n : Int) :
    Agrees (check limits .integerBits (Number.bitLength n)) (limits.checkInteger n) :=
  agrees_check limits .integerBits (Number.bitLength n)

lemma agrees_literalValue (limits : Limits) (source : Option String) (token : Token) :
    Agrees (literalValue limits source token) (Rpn.literalValue limits source token) := by
  unfold literalValue Rpn.literalValue
  cases Number.literal? token.text.toList with
  | none => exact agrees_raise_of_nil rfl _ _
  | some value =>
    cases value with
    | float x => exact .value _
    | int n =>
      simp only
      exact (agrees_checkInteger limits n).elim (fun _ _ => .value _) .exit

lemma agrees_checkPower (limits : Limits) (base exponent : Int) :
    Agrees (checkPower limits base exponent) (Rpn.checkPower limits base exponent) := by
  unfold checkPower Rpn.checkPower
  split
  · exact .value ()
  · have hexponent : Agrees (check limits .exponent exponent.natAbs) (limits.checkExponent exponent) :=
      agrees_check limits .exponent exponent.natAbs
    refine hexponent.elim (fun _ _ => ?_) .exit
    split
    · exact agrees_check limits .integerBits _
    · exact .value ()

lemma agrees_checkOperands (limits : Limits) (source : Option String) (op : Operator) (position : Int)
    (left right : Number) :
    Agrees (checkOperands limits source op position left right)
      (admissible limits source op position left right) := by
  cases op with
  | div =>
    simp only [checkOperands, admissible]
    split
    · exact agrees_raise_of_nil rfl _ _
    · exact .value ()
  | pow =>
    simp only [checkOperands, admissible]
    split
    · exact agrees_raise_of_nil rfl _ _
    · cases left with
      | float x => exact .value ()
      | int base =>
        cases right with
        | float y => exact .value ()
        | int exponent => exact agrees_checkPower limits base exponent
  | _ => exact .value ()

lemma agrees_checkResult (limits : Limits) (source : Option String) (op : Operator) (position : Int)
    (result : Number) :
    Agrees (checkResult limits source op position result)
      (Rpn.checkResult limits source op position result) := by
  cases result with
  | int n =>
    simp only [checkResult, Rpn.checkResult]
    exact (agrees_checkInteger limits n).elim (fun _ _ => .value _) .exit
  | float x =>
    simp only [checkResult, Rpn.checkResult]
    split
    · exact .value _
    · exact agrees_raise_of_nil rfl _ _

/-- The faults of an operation are caught, for what is admitted does not divide by zero. -/
lemma agrees_calculate {op : Operator} {position : Int} {left right : Number} {fault : Fault}
    (hadm : admissible limits source op position left right = .ok ())
    (hop : op.apply left right = .error fault) :
    Agrees (calculate source op position left right)
      (.error (.atPosition (faultCause op left right fault) position source)) := by
  unfold calculate
  rw [hop]
  cases fault with
  | overflow => exact agrees_raise_of_nil rfl _ _
  | notReal =>
    have hwritable : ∀ n ∈ (Cause.malformed (.noRealResult left right)).quantities,
        Numeral.isWritable n = true := Operator.isWritable_of_notReal hop
    exact agrees_raise hwritable _ _
  | divisionByZero => exact absurd rfl (ne_divisionByZero_of_admissible hadm hop)

lemma agrees_combine (limits : Limits) (source : Option String) (op : Operator) (position : Int)
    (left right : Number) :
    Agrees (combine limits source op position left right)
      (Rpn.combine limits source op position left right) := by
  unfold combine Rpn.combine
  refine (agrees_checkOperands limits source op position left right).elim (fun _ hadm => ?_) .exit
  simp only
  cases hop : op.apply left right with
  | ok result =>
    have hresult : calculate source op position left right = .ok result := by rw [calculate, hop]
    rw [hresult]
    exact agrees_checkResult limits source op position result
  | error fault =>
    simp only
    exact (agrees_calculate hadm hop).elim (fun _ hok => absurd hok (by simp)) .exit

/-! ## Tokens -/

lemma lookUp_operator {op : Operator} (h : token.kind = .operator op) : lookUp token = .ok op := by
  rw [lookUp, h]
  rfl

/-- An operator that finds two operands has an entry, and the operands are on the stack. -/
lemma step_operator {op : Operator} (h : token.kind = .operator op) (left right : Number)
    (rest : List Number) :
    step limits source (right :: left :: rest) token = do
      let value ← combine limits source op token.position left right
      return value :: rest := by
  rw [step, if_neg (by simp [h]), if_pos (by rw [h]; rfl), lookUp_operator h]
  rfl

lemma step_operator_of_short {op : Operator} (h : token.kind = .operator op) {stack : List Number}
    (hs : stack.length < 2) :
    step limits source stack token =
      raise (.malformed (.missingOperand token.text)) token.position source := by
  rw [step, if_neg (by simp [h]), if_pos (by rw [h]; rfl), lookUp_operator h]
  exact if_pos hs

lemma step_parenthesis (h : token.kind = .openParen ∨ token.kind = .closeParen)
    (stack : List Number) :
    step limits source stack token =
      raise (.malformed (.unexpectedToken token.text)) token.position source := by
  rcases h with h | h <;> rw [step, if_neg (by simp [h]), if_neg (by rw [h]; decide)]

lemma agrees_step (limits : Limits) (source : Option String) (stack : List Number) (token : Token) :
    Agrees (step limits source stack token) (Rpn.step limits source stack token) := by
  cases hk : token.kind with
  | literal =>
    rw [step, if_pos hk, step_literal hk]
    exact (agrees_literalValue limits source token).elim (fun _ _ => .value _) .exit
  | operator op =>
    match stack with
    | [] =>
      rw [step_operator_of_short hk (by simp), Rpn.step_operator_of_short hk (by simp)]
      exact agrees_raise_of_nil rfl _ _
    | [_] =>
      rw [step_operator_of_short hk (by simp), Rpn.step_operator_of_short hk (by simp)]
      exact agrees_raise_of_nil rfl _ _
    | right :: left :: rest =>
      rw [step_operator hk, Rpn.step_operator hk]
      exact (agrees_combine limits source op token.position left right).elim
        (fun _ _ => .value _) .exit
  | openParen =>
    rw [step_parenthesis (.inl hk), Rpn.step_parenthesis (.inl hk)]
    exact agrees_raise_of_nil rfl _ _
  | closeParen =>
    rw [step_parenthesis (.inr hk), Rpn.step_parenthesis (.inr hk)]
    exact agrees_raise_of_nil rfl _ _

lemma agrees_run (limits : Limits) (source : Option String) (stack : List Number)
    (tokens : List Token) :
    Agrees (run limits source stack tokens) (Rpn.run limits source stack tokens) := by
  induction tokens generalizing stack with
  | nil => exact .value stack
  | cons token rest ih =>
    rw [run, run_cons]
    exact (agrees_step limits source stack token).elim (fun next _ => ih next) .exit

lemma agrees_result (source : Option String) (stack : List Number) :
    Agrees (result source stack) (Rpn.result source stack) := by
  match stack with
  | [] =>
    have hresult : result source [] = raise (.malformed .noValue) none source := by
      rw [result, if_pos (by simp)]
    rw [hresult]
    exact agrees_raise_of_nil rfl none source
  | [value] => exact .value value
  | first :: second :: rest =>
    have hresult : result source (first :: second :: rest) =
        raise (.malformed (.leftOver (first :: second :: rest).length)) none source := by
      rw [result, if_neg (by simp), if_pos (by simp)]
    rw [hresult]
    exact agrees_raise_of_nil rfl none source

lemma agrees_evaluate (limits : Limits) (source : Option String) (tokens : List Token) :
    Agrees (evaluate limits source tokens) (Rpn.evaluate limits source tokens) := by
  unfold evaluate Rpn.evaluate
  exact (agrees_run limits source [] tokens).elim (fun stack _ => agrees_result source stack) .exit

end Raising

/-- A value is an integer or a finite double. -/
lemma isFinite_of_evaluate {limits : Limits} {source : Option String} {tokens : List Token}
    {value : Number} (h : evaluate limits source tokens = .ok value) : value.isFinite = true := by
  have hfits := fits_of_evaluate h
  cases value with
  | int n => rfl
  | float x => exact hfits

/-- An evaluation ends in one of three ways, whatever its tokens and limits are: with a value, which is
an integer or a finite double; with an error; or with the refusal to write an integer in the message of
one.  No fault of the arithmetic, no missing operator and no missing element ends it, although each of
them would end the evaluation that is spelt out above.  An operator reports a division by zero exactly
for a quotient whose divisor equals zero and for a negative power of a base that does. -/
theorem evaluate_guarded (limits : Limits) (source : Option String) :
    (∀ tokens : List Token,
      (∃ value, Raising.evaluate limits source tokens = .ok value ∧
        evaluate limits source tokens = .ok value ∧ value.isFinite = true) ∨
      (∃ e, Raising.evaluate limits source tokens = .error (.error e) ∧
        evaluate limits source tokens = .error (.error e)) ∨
      ∃ cause, Raising.evaluate limits source tokens = .error (.unworded cause) ∧
        evaluate limits source tokens = .error .unwritable ∧
        ∃ n ∈ cause.quantities, Numeral.isWritable n = false) ∧
    ∀ (op : Operator) position left right,
      (∃ e, combine limits source op position left right = .error (.error e) ∧
        e.kind = .divisionByZero) ↔ op.DividesByZero left right := by
  refine ⟨fun tokens => ?_, fun op position left right => ⟨?_, fun h => ?_⟩⟩
  -- the agreement has a constructor for each way to end but the uncaught ones
  · have hagrees := Raising.agrees_evaluate limits source tokens
    generalize hraising : Raising.evaluate limits source tokens = raising at hagrees ⊢
    generalize hanswer : evaluate limits source tokens = answer at hagrees ⊢
    cases hagrees with
    | value value => exact .inl ⟨value, rfl, rfl, isFinite_of_evaluate hanswer⟩
    | exit h =>
      cases h with
      | error e => exact .inr (.inl ⟨e, rfl, rfl⟩)
      | unworded hn hlong => exact .inr (.inr ⟨_, rfl, rfl, _, hn, hlong⟩)
  · rintro ⟨e, h, he⟩
    exact dividesByZero_of_combine h he
  · exact ⟨_, combine_of_dividesByZero h, rfl⟩

/-- A quotient by zero raises its fault if it is carried out. -/
example : Raising.calculate none .div 1 (.int 5) (.int 0) = .error (.fault .divisionByZero) := rfl

/-- It is not, for the divisor is looked at before. -/
example : Raising.combine {} none .div 1 (.int 5) (.int 0) =
    .error (.error ⟨.divisionByZero, some 1, none⟩) := rfl

end Rpn

end InfixCalculator
