import InfixCalculator.Session
import Mathlib.Data.List.DropRight
import Mathlib.Data.List.Forall2

/-!
# A session is the log of what was submitted

A session is asked for a computation, for a reset, for its lines and for its computations (`Request`).
It answers and goes on, also where the answer is a fault (`respond`).  What it should hold after a
series of requests is read off the requests alone: the expressions submitted since the last reset
(`submitted`), each with the computation that the limits give it, and none for an expression without
one (`recorded`).

`IsLog` says that a session holds just this and answers every further request from it.  One request
takes a log to the log with the request at its end (`history_respond`), so a new session is a log after
any series of requests (`isLog_after`).
-/

namespace InfixCalculator.Session

/-- What a session can be asked for. -/
inductive Request where
  /-- The computation of an expression. -/
  | submit (expression : String)
  /-- To forget all computations. -/
  | reset
  /-- The lines of the computations. -/
  | lines
  /-- The computations. -/
  | history
  deriving DecidableEq

/-- What a session answers. -/
inductive Answer where
  /-- The computation, or why there is none. -/
  | submitted (outcome : Except Numeral.Unwritable Computation)
  /-- All computations are forgotten. -/
  | cleared
  /-- The lines, or why there are none. -/
  | lines (outcome : Except LineFault (List String))
  /-- The computations. -/
  | history (computations : List Computation)

/-- The session after a request, and its answer. -/
def respond (session : Session) : Request → Session × Answer
  | .submit expression =>
    ((session.submit expression).1, .submitted (session.submit expression).2)
  | .reset => (session.reset, .cleared)
  | .lines => (session, .lines session.lines)
  | .history => (session, .history session.history)

/-- The session after a series of requests. -/
def after (session : Session) (requests : List Request) : Session :=
  requests.foldl (fun s request => (s.respond request).1) session

/-- The expression that is submitted by a request. -/
def Request.expression? : Request → Option String
  | submit expression => some expression
  | _ => none

/-- The expressions submitted since the last reset. -/
def submitted (requests : List Request) : List String :=
  (requests.rtakeWhile (· ≠ .reset)).filterMap Request.expression?

/-- The computations of the expressions submitted since the last reset, as far as there are any. -/
def recorded (limits : Limits) (requests : List Request) : List Computation :=
  (submitted requests).filterMap fun expression => (compute limits expression).toOption

/-- A session under the given limits that is the log of the given requests. -/
structure IsLog (limits : Limits) (requests : List Request) (session : Session) : Prop where
  /-- It holds what was recorded. -/
  history_eq : session.history = recorded limits requests
  /-- Every computation is the one that its expression has on its own. -/
  compute_eq : ∀ c ∈ session.history, compute limits c.expression = .ok c
  /-- Every submission that has a computation is in it once, in the order of the submissions. -/
  expressions_eq : session.history.map Computation.expression =
    (submitted requests).filter fun expression => (compute limits expression).isOk
  /-- A computation is the answer to a submission and is appended, whether it has a line or not. -/
  respond_submit_ok : ∀ expression c, compute limits expression = .ok c →
    session.respond (.submit expression) =
      ({ session with history := session.history ++ [c] }, .submitted (.ok c))
  /-- A submission without a computation leaves no trace. -/
  respond_submit_error : ∀ expression fault, compute limits expression = .error fault →
    session.respond (.submit expression) = (session, .submitted (.error fault))
  /-- A reset leaves nothing. -/
  respond_reset : session.respond .reset = (start limits, .cleared)
  /-- The computations are shown and kept. -/
  respond_history : session.respond .history = (session, .history (recorded limits requests))
  /-- The lines are asked for without a change to the session. -/
  respond_lines : (session.respond .lines).1 = session
  /-- The lines are those of the computations, one by one. -/
  respond_lines_ok : ∀ texts, (session.respond .lines).2 = .lines (.ok texts) ↔
    List.Forall₂ (fun c text => c.line = .ok text) (recorded limits requests) texts
  /-- There are no lines exactly if one of the computations has none. -/
  respond_lines_error : (∃ fault, (session.respond .lines).2 = .lines (.error fault)) ↔
    ∃ c ∈ recorded limits requests, ∀ text, c.line ≠ .ok text

variable {limits : Limits} {session : Session} {requests : List Request} {request : Request}

/-! ## Lines -/

section Lists

variable {α β ε : Type} {f : α → Except ε β} {as : List α} {bs : List β}

/-- The results of a list are the results of its entries. -/
lemma mapM_eq_ok_iff : as.mapM f = .ok bs ↔ List.Forall₂ (fun a b => f a = .ok b) as bs := by
  constructor
  · intro h
    induction as generalizing bs with
    | nil =>
      cases h
      exact .nil
    | cons a as ih =>
      rw [List.mapM_cons] at h
      cases ha : f a with
      | error fault => simp [ha, bind, Except.bind] at h
      | ok b =>
        cases has : as.mapM f with
        | error fault => simp [ha, has, bind, Except.bind] at h
        | ok rest =>
          rw [ha, has] at h
          cases h
          exact .cons ha (ih has)
  · intro h
    induction h with
    | nil => rfl
    | cons ha _ ih =>
      rw [List.mapM_cons, ha, ih]
      rfl

/-- A list has results if every entry has one. -/
lemma exists_mapM_eq_ok_iff : (∃ bs, as.mapM f = .ok bs) ↔ ∀ a ∈ as, ∃ b, f a = .ok b := by
  simp only [mapM_eq_ok_iff]
  induction as with
  | nil => simp
  | cons a as ih =>
    rw [List.forall_mem_cons, ← ih]
    constructor
    · rintro ⟨_, hall⟩
      obtain ⟨b, bs, hb, hbs, -⟩ := List.forall₂_cons_left_iff.1 hall
      exact ⟨⟨b, hb⟩, bs, hbs⟩
    · rintro ⟨⟨b, hb⟩, bs, hbs⟩
      exact ⟨b :: bs, .cons hb hbs⟩

end Lists

/-- The lines of a session are those of its computations. -/
lemma lines_eq_ok_iff {texts : List String} :
    session.lines = .ok texts ↔
      List.Forall₂ (fun c text => c.line = .ok text) session.history texts :=
  mapM_eq_ok_iff

/-- A session has no lines if one of its computations has none. -/
lemma exists_lines_eq_error_iff :
    (∃ fault, session.lines = .error fault) ↔ ∃ c ∈ session.history, ∀ text, c.line ≠ .ok text := by
  have hok : (∃ texts, session.lines = .ok texts) ↔ ∀ c ∈ session.history, ∃ text, c.line = .ok text :=
    exists_mapM_eq_ok_iff
  have hnot : (∃ fault, session.lines = .error fault) ↔ ¬∃ texts, session.lines = .ok texts := by
    cases session.lines <;> simp
  rw [hnot, hok]
  push Not
  rfl

/-! ## What is recorded -/

@[simp] lemma recorded_nil : recorded limits [] = [] := by
  simp [recorded, submitted]

@[simp] lemma submitted_concat_reset : submitted (requests ++ [.reset]) = [] := by
  simp [submitted]

/-- A request other than a reset adds what it submits. -/
lemma submitted_concat_of_ne (h : request ≠ .reset) :
    submitted (requests ++ [request]) = submitted requests ++ request.expression?.toList := by
  rw [submitted, List.rtakeWhile_concat_pos _ _ request (decide_eq_true h), List.filterMap_append]
  cases hrequest : request.expression? <;> simp [submitted, hrequest]

/-- A computation that is recorded is that of an expression that was submitted. -/
lemma compute_of_mem_recorded {c : Computation} (h : c ∈ recorded limits requests) :
    compute limits c.expression = .ok c := by
  obtain ⟨expression, -, hc⟩ := List.mem_filterMap.1 h
  cases hcompute : compute limits expression with
  | error fault => rw [hcompute] at hc; cases hc
  | ok c' =>
    rw [hcompute] at hc
    cases hc
    rw [expression_of_compute hcompute, hcompute]

/-- The expressions recorded are those that have a computation. -/
lemma map_expression_recorded :
    (recorded limits requests).map Computation.expression =
      (submitted requests).filter fun expression => (compute limits expression).isOk := by
  rw [recorded, List.map_filterMap, ← List.filterMap_eq_filter]
  refine List.filterMap_congr fun expression _ => ?_
  rw [Option.guard_apply]
  cases hcompute : compute limits expression with
  | error fault => rfl
  | ok c => exact congrArg some (expression_of_compute hcompute)

/-! ## Steps and runs -/

lemma respond_submit (expression : String) :
    session.respond (.submit expression) =
      ((session.submit expression).1, .submitted (session.submit expression).2) :=
  rfl

lemma respond_lines : session.respond .lines = (session, .lines session.lines) := rfl

/-- No request changes the limits. -/
@[simp] lemma limits_respond : (session.respond request).1.limits = session.limits := by
  cases request with
  | submit expression => exact limits_submit session expression
  | reset | lines | history => rfl

/-- A request takes the log of a series of requests to that of the longer series. -/
lemma history_respond (hlimits : session.limits = limits)
    (h : session.history = recorded limits requests) :
    (session.respond request).1.history = recorded limits (requests ++ [request]) := by
  by_cases hreset : request = .reset
  · rw [hreset, recorded, submitted_concat_reset]
    rfl
  rw [recorded, submitted_concat_of_ne hreset, List.filterMap_append, ← recorded, ← h]
  cases request with
  | reset => exact absurd rfl hreset
  | lines | history => exact (List.append_nil _).symm
  | submit expression =>
    subst hlimits
    rw [respond_submit]
    cases hc : compute session.limits expression with
    | ok c =>
      rw [history_submit_of_ok hc]
      simp [Request.expression?, hc, Except.toOption]
    | error fault =>
      rw [submit_of_error hc]
      simp [Request.expression?, hc, Except.toOption]

lemma after_concat : session.after (requests ++ [request]) =
    ((session.after requests).respond request).1 := by
  rw [after, List.foldl_append]
  rfl

/-- No series of requests changes the limits. -/
lemma limits_after : (session.after requests).limits = session.limits := by
  induction requests using List.reverseRecOn with
  | nil => rfl
  | append_singleton requests request ih => rw [after_concat, limits_respond, ih]

/-- What a new session holds after a series of requests. -/
lemma history_after : ((start limits).after requests).history = recorded limits requests := by
  induction requests using List.reverseRecOn with
  | nil => exact recorded_nil.symm
  | append_singleton requests request ih =>
    rw [after_concat]
    exact history_respond limits_after ih

/-- A session with the right limits and computations is a log: all its answers come from these. -/
lemma isLog_of_history (hlimits : session.limits = limits)
    (h : session.history = recorded limits requests) : IsLog limits requests session where
  history_eq := h
  compute_eq := fun c hc => compute_of_mem_recorded (h ▸ hc)
  expressions_eq := by rw [h, map_expression_recorded]
  respond_submit_ok := fun expression c hc => by
    subst hlimits
    rw [respond_submit, submit, hc]
  respond_submit_error := fun expression fault hfault => by
    subst hlimits
    rw [respond_submit, submit_of_error hfault]
  respond_reset := by
    subst hlimits
    rfl
  respond_history := by rw [← h]; rfl
  respond_lines := rfl
  respond_lines_ok := fun texts => by
    rw [respond_lines, Answer.lines.injEq, lines_eq_ok_iff, h]
  respond_lines_error := by
    simp only [respond_lines, Answer.lines.injEq]
    rw [exists_lines_eq_error_iff, h]

/-- After any series of requests, faults among them, a session is the log of what was submitted since
the last reset. -/
theorem isLog_after (limits : Limits) (requests : List Request) :
    IsLog limits requests ((start limits).after requests) :=
  isLog_of_history limits_after history_after

/-- A message about too small a depth cannot be written, so there is no computation of `(1)`; the power
is recorded, but has too many digits for a line. -/
example :
    let limits : Limits := { nestingDepth := -(10 ^ 4300), integerBits := 20000 }
    let session := (start limits).after
      [.submit "1", .reset, .submit "(1)", .submit "10^4300", .lines, .submit "1/0"]
    session.history.map Computation.expression = ["10^4300", "1/0"] ∧
      session.lines = .error .unwritable := by
  decide +kernel

end InfixCalculator.Session
