import InfixCalculator.Proofs.CommandLine.Blocks
import InfixCalculator.Proofs.Computation.Stages

/-!
# The log tells where each expression stopped

At the lowest log level a run shows all its events: its beginning, the trace of each expression in the
order of the arguments, and its end (`messages_run`).  A trace lists the milestones that the work on the
expression has passed, and then whether it succeeded (`Traced`).  So the trace of a failure tells the
stage in which it arose, and with it what may be wrong with the expression.

The details of a success are taken from a second conversion, which passes its two milestones once more.
-/

namespace InfixCalculator.CommandLine

open Numeral (writableBound)

variable {settings : Settings} {expression : String} {trace : List Event}

/-- Whether an event tells how a computation has ended. -/
def Event.isEnd (event : Event) : Bool :=
  event = .succeeded || event = .failed

/-- The trace is what is logged about the expression under the settings. -/
structure Traced (settings : Settings) (expression : String) (trace : List Event) : Prop where
  /-- The expression has been computed. -/
  computed : ∃ c, compute settings.limits expression = .ok c
  /-- An error is logged after the milestones that its cause tells. -/
  of_error : ∀ c e, compute settings.limits expression = .ok c → c.outcome = .error e →
    trace = e.cause.milestones.map .passed ++ [.failed]
  /-- A value is logged after all milestones, and before those of the details. -/
  of_value : ∀ c value, compute settings.limits expression = .ok c → c.outcome = .ok value →
    trace = [.passed .tokenized, .passed .converted, .passed .evaluated, .succeeded] ++
      if settings.showRpn || settings.showTree then [.passed .tokenized, .passed .converted] else []
  /-- The failure is all there is to log exactly if the expression is refused. -/
  refused_iff : trace = [.failed] ↔ Refused settings.limits expression
  /-- Only the first milestone is passed before the failure exactly if the parentheses are at fault. -/
  mismatched_iff : trace = [.passed .tokenized, .failed] ↔
    ¬Refused settings.limits expression ∧
      Mismatched settings.limits (Token.segments 0 [] expression.toList).tokens
  /-- Any other error comes after the conversion. -/
  of_other_error : ∀ c e, compute settings.limits expression = .ok c → c.outcome = .error e →
    ¬Refused settings.limits expression →
    ¬Mismatched settings.limits (Token.segments 0 [] expression.toList).tokens →
    trace = [.passed .tokenized, .passed .converted, .failed]
  /-- The computation has one end. -/
  one_end : trace.countP Event.isEnd = 1
  /-- A failure is logged exactly if the computation has failed. -/
  failed_iff : .failed ∈ trace ↔
    ∃ c, compute settings.limits expression = .ok c ∧ c.succeeded = false

/-! ## Events of a computation -/

lemma map_passed_injective : Function.Injective (List.map Event.passed) :=
  List.map_injective_iff.2 fun _ _ h => Event.passed.inj h

/-- Milestones are not the end. -/
lemma countP_isEnd_passed (ms : List Milestone) : (ms.map Event.passed).countP Event.isEnd = 0 := by
  rw [List.countP_eq_zero]
  intro event hmem
  obtain ⟨milestone, -, rfl⟩ := List.mem_map.1 hmem
  simp [Event.isEnd]

lemma computationEvents_of_error {limits : Limits} {e : ExpressionError}
    (h : calculate limits expression = .error (.error e)) :
    computationEvents limits expression = e.cause.milestones.map .passed ++ [.failed] := by
  have houtcome : (progress limits expression).outcome = .error (.error e) := h
  simp only [computationEvents, milestones_of_error h, houtcome]
  rfl

lemma computationEvents_of_value {limits : Limits} {value : Number}
    (h : calculate limits expression = .ok value) :
    computationEvents limits expression =
      [.passed .tokenized, .passed .converted, .passed .evaluated, .succeeded] := by
  have houtcome : (progress limits expression).outcome = .ok value := h
  simp only [computationEvents, milestones_of_value h, houtcome]
  rfl

/-- The events of a block are those of the computation and, below a success, of the details. -/
lemma events_of_block {b : Block} (h : block settings expression = .ok b) :
    b.events = computationEvents settings.limits expression ++
      if b.succeeded && showsDetails settings then [.passed .tokenized, .passed .converted] else [] := by
  unfold block at h
  split at h
  · exact absurd h (by simp)
  · split at h
    · exact absurd h (by simp)
    · simp only at h
      split at h
      · split at h
        · exact absurd h (by simp)
        · cases h
          rfl
      · cases h
        simp

/-! ## Traces -/

/-- What is logged about an error. -/
lemma traced_of_error (hlimits : settings.limits.InRange) {c : Computation} {e : ExpressionError}
    (hc : compute settings.limits expression = .ok c)
    (he : c.outcome = .error (e.within expression))
    (hcalculate : calculate settings.limits expression = .error (.error e)) :
    Traced settings expression (e.cause.milestones.map .passed ++ [.failed]) := by
  have hms := milestones_of_error hcalculate
  have hcount := Int.le_of_lt hlimits.tokenCount_pos
  have hdepth := Int.le_of_lt hlimits.nestingDepth_pos
  have hfailed : c.succeeded = false := by rw [Computation.succeeded, he]; rfl
  constructor
  case computed => exact ⟨c, hc⟩
  case of_error =>
    intro c' e' hc' he'
    obtain rfl : c = c' := Except.ok.inj (hc.symm.trans hc')
    obtain rfl : e.within expression = e' := Except.error.inj (he.symm.trans he')
    rw [ExpressionError.within_cause]
  case of_value =>
    intro c' value hc' hvalue
    obtain rfl : c = c' := Except.ok.inj (hc.symm.trans hc')
    exact absurd (he.symm.trans hvalue) (by simp)
  case refused_iff =>
    rw [← milestones_eq_nil_iff hcount hdepth, hms]
    simp
  case mismatched_iff =>
    -- the failure comes last in both lists, so the milestones before it are compared
    have hone : [Event.passed .tokenized, .failed] = [Milestone.tokenized].map .passed ++ [.failed] :=
      rfl
    rw [← milestones_eq_tokenized_iff hcount hdepth, hms, hone, List.append_left_inj,
      map_passed_injective.eq_iff]
  case of_other_error =>
    intro _ _ _ _ href hmis
    rcases milestones_of_text hcount hdepth with ⟨href', -⟩ | ⟨-, hmis', -⟩ | ⟨-, -, hconverted⟩
    · exact absurd href' href
    · exact absurd hmis' hmis
    · rw [hms] at hconverted
      rw [Cause.milestones_of_converted_mem hconverted]
      rfl
  case one_end =>
    rw [List.countP_append, countP_isEnd_passed]
    rfl
  case failed_iff => exact iff_of_true (by simp) ⟨c, hc, hfailed⟩

/-- What is logged about a value. -/
lemma traced_of_value (hlimits : settings.limits.InRange) {c : Computation} {value : Number}
    (hc : compute settings.limits expression = .ok c) (hvalue : c.outcome = .ok value) :
    Traced settings expression
      ([.passed .tokenized, .passed .converted, .passed .evaluated, .succeeded] ++
        if settings.showRpn || settings.showTree then [.passed .tokenized, .passed .converted]
        else []) := by
  have hms := milestones_of_value (calculate_of_compute hc hvalue)
  have hcount := Int.le_of_lt hlimits.tokenCount_pos
  have hdepth := Int.le_of_lt hlimits.nestingDepth_pos
  have hsucceeded : c.succeeded = true := by rw [Computation.succeeded, hvalue]; rfl
  constructor
  case computed => exact ⟨c, hc⟩
  case of_error =>
    intro c' e hc' he
    obtain rfl : c = c' := Except.ok.inj (hc.symm.trans hc')
    exact absurd (hvalue.symm.trans he) (by simp)
  case of_value => exact fun c' value' hc' hvalue' => rfl
  case refused_iff =>
    rw [← milestones_eq_nil_iff hcount hdepth, hms]
    simp
  case mismatched_iff =>
    rw [← milestones_eq_tokenized_iff hcount hdepth, hms]
    simp
  case of_other_error =>
    intro c' e hc' he
    obtain rfl : c = c' := Except.ok.inj (hc.symm.trans hc')
    exact absurd (hvalue.symm.trans he) (by simp)
  case one_end => split <;> rfl
  case failed_iff =>
    refine iff_of_false ?_ ?_
    · split <;> simp
    · rintro ⟨c', hc', hfailed⟩
      obtain rfl : c = c' := Except.ok.inj (hc.symm.trans hc')
      exact absurd (hsucceeded.symm.trans hfailed) (by simp)

/-- The events of a block are the trace of its expression. -/
lemma traced_of_block (hlimits : settings.limits.InRange) {b : Block} {c : Computation}
    (hb : block settings expression = .ok b) (hc : compute settings.limits expression = .ok c)
    (hsame : b.succeeded = c.succeeded) : Traced settings expression b.events := by
  rw [events_of_block hb, hsame, Computation.succeeded]
  rcases outcome_of_compute hc with ⟨value, hcalculate, hvalue⟩ | ⟨e, hcalculate, he⟩
  · rw [computationEvents_of_value hcalculate, hvalue]
    exact traced_of_value hlimits hc hvalue
  · rw [computationEvents_of_error hcalculate, he]
    simp only [Except.isOk, Except.toBool, Bool.false_and, Bool.false_eq_true, if_false,
      List.append_nil]
    exact traced_of_error hlimits hc he hcalculate

/-- Some failure is logged exactly if some computation has failed. -/
lemma failed_mem_flatten_iff {expressions : List String} {traces : List (List Event)}
    (h : List.Forall₂ (Traced settings) expressions traces) :
    .failed ∈ traces.flatten ↔
      ∃ e ∈ expressions, ∃ c, compute settings.limits e = .ok c ∧ c.succeeded = false := by
  induction h with
  | nil => simp
  | cons he _ ih =>
    rw [List.flatten_cons, List.mem_append, he.failed_iff, ih, List.exists_mem_cons_iff]

/-- No other event has the record of a failure. -/
lemma record_eq_failed_iff {event : Event} : event.record = Event.failed.record ↔ event = .failed := by
  refine ⟨fun h => ?_, fun h => by rw [h]⟩
  cases event with
  | passed milestone => exact absurd h (by cases milestone <;> decide)
  | failed => rfl
  | _ => exact absurd h (by decide)

variable {around : Settings.Surroundings} {arguments : List String} {request : Arguments}
  {loaded : Settings}

/-- At the lowest log level, a run on expressions that are among the arguments, under settings that can be
loaded, shows a record when it begins, the records of the trace of each expression in their order, and a
record when it ends.  Its status is 1 exactly if some failure is among the records. -/
theorem messages_run
    (hrequest : Request.ofArguments arguments = .ok (.compute request))
    (hexpressions : request.expressions ≠ [])
    (hload : Settings.load around request.config = .ok loaded)
    (hlevel : (override loaded request).logLevel = .debug)
    (hlength : ∀ e ∈ request.expressions, e.length < writableBound) (input : String) :
    ∃ traces : List (List Event),
      List.Forall₂ (Traced (override loaded request)) request.expressions traces ∧
      (run around arguments input).messages =
        ([Event.started] ++ traces.flatten ++ [Event.finished]).map Event.record ∧
      ((run around arguments input).status = 1 ↔
        Event.failed.record ∈ (run around arguments input).messages) := by
  have hlimits : (override loaded request).limits.InRange := inRange_override hload
  obtain ⟨bs, hreport, hall⟩ := report_eq_ok hlimits hlength
  have hrun : run around arguments input =
      .reported (override loaded request) (Report.ofBlocks bs) := by
    rw [run_of_expressions hrequest hexpressions hload input, outcomeOf, hreport]
  have htraced : List.Forall₂ (Traced (override loaded request)) request.expressions
      (bs.map Block.events) := by
    rw [List.forall₂_map_right_iff]
    refine hall.imp fun e b hblock => ?_
    obtain ⟨hb, -, c, hc, hsame⟩ := hblock
    exact traced_of_block hlimits hb hc hsame
  have hmessages : (run around arguments input).messages =
      ([Event.started] ++ (bs.map Block.events).flatten ++ [Event.finished]).map Event.record := by
    rw [hrun, Outcome.messages, Report.records, hlevel,
      List.filter_eq_self.2 (fun event _ => event.isShown_debug), Report.ofBlocks, List.flatMap]
  refine ⟨bs.map Block.events, htraced, hmessages, ?_⟩
  have hfailed : Event.failed.record ∈ (run around arguments input).messages ↔
      .failed ∈ (bs.map Block.events).flatten := by
    rw [hmessages, List.mem_map]
    simp only [record_eq_failed_iff, exists_eq_right]
    simp
  rw [hfailed, failed_mem_flatten_iff htraced,
    run_of_expressions hrequest hexpressions hload input, status_outcomeOf_eq_one_iff hlimits hlength]

/-- What is asked for: the trace of a value with its details, and those of three failures. -/
def tracedArguments : List String :=
  ["--tree", "--log-level", "debug", "2^3", " ", "(1", "1/0"]

/-- The request in these arguments. -/
def tracedRequest : Arguments :=
  { expressions := ["2^3", " ", "(1", "1/0"], logLevel := some .debug, showTree := true }

/-- The blank is refused, the parenthesis is noticed in the conversion, and the zero in the evaluation. -/
theorem messages_run_sample :
    (Request.ofArguments tracedArguments = .ok (.compute tracedRequest) ∧
      tracedRequest.expressions ≠ [] ∧
      Settings.load sampleSurroundings tracedRequest.config = .ok { limits := { exponent := 3 } } ∧
      (override { limits := { exponent := 3 } } tracedRequest).logLevel = .debug ∧
      ∀ e ∈ tracedRequest.expressions, e.length < writableBound) ∧
    (run sampleSurroundings tracedArguments "").messages =
      [Event.started.record] ++
      [Event.passed .tokenized, .passed .converted, .passed .evaluated, .succeeded,
        .passed .tokenized, .passed .converted].map Event.record ++
      [Event.failed.record] ++
      [Event.passed .tokenized, .failed].map Event.record ++
      [Event.passed .tokenized, .passed .converted, .failed].map Event.record ++
      [Event.finished.record] ∧
    (run sampleSurroundings tracedArguments "").status = 1 := by
  have hrequest : Request.ofArguments tracedArguments = .ok (.compute tracedRequest) := rfl
  have hload : Settings.load sampleSurroundings tracedRequest.config =
      .ok { limits := { exponent := 3 } } := rfl
  have hlevel : (override { limits := { exponent := 3 } } tracedRequest).logLevel = .debug := rfl
  have hlength : ∀ e ∈ tracedRequest.expressions, e.length < writableBound := by decide +kernel
  refine ⟨⟨hrequest, by decide, hload, hlevel, hlength⟩, ?_⟩
  obtain ⟨traces, htraces, hmessages, hstatus⟩ :=
    messages_run hrequest (by decide) hload hlevel hlength ""
  rcases htraces with _ | ⟨hvalue, _ | ⟨hblank, _ | ⟨hopen, _ | ⟨hzero, _ | _⟩⟩⟩⟩
  obtain rfl := hvalue.of_value ⟨"2^3", .ok (.int 8)⟩ _ rfl rfl
  obtain rfl := hblank.of_error ⟨" ", .error ⟨.emptyExpression, none, some " "⟩⟩ _ rfl rfl
  obtain rfl := hopen.of_error ⟨"(1", .error ⟨.unmatchedOpen, some 0, some "(1"⟩⟩ _ rfl rfl
  obtain rfl := hzero.of_error ⟨"1/0", .error ⟨.divisionByZero, some 1, some "1/0"⟩⟩ _ rfl rfl
  refine ⟨hmessages, hstatus.2 ?_⟩
  rw [hmessages]
  decide

end InfixCalculator.CommandLine
