import InfixCalculator.Computation
import InfixCalculator.Settings.Basic

/-!
# Log records

What happens in a run of the command is told by events. An event has a level, and comes from a part
of the calculator; its record is shown if the level is at least that of the settings.
-/

namespace InfixCalculator.CommandLine

/-- What is logged. -/
inductive Event where
  /-- The run begins. -/
  | started
  /-- A computation has passed a milestone. -/
  | passed (milestone : Milestone)
  /-- A computation has ended with a value. -/
  | succeeded
  /-- A computation has ended with an error. -/
  | failed
  /-- The run ends. -/
  | finished
  deriving DecidableEq, Repr

namespace Event

/-- The level of an event. -/
def level : Event → LogLevel
  | finished => .info
  | _ => .debug

/-- The part of the calculator that an event comes from. -/
def origin : Event → String
  | started => "calculette.cli"
  | passed .tokenized => "calculette.tokenizer"
  | passed .converted => "calculette.converter"
  | passed .evaluated => "calculette.evaluator"
  | succeeded => "calculette.engine"
  | failed => "calculette.engine"
  | finished => "calculette.cli"

/-- The name of an event. -/
def name : Event → String
  | started => "calculator_started"
  | passed .tokenized => "tokenized_expression"
  | passed .converted => "converted_to_postfix"
  | passed .evaluated => "evaluated_postfix"
  | succeeded => "compute_succeeded"
  | failed => "compute_failed"
  | finished => "calculator_finished"

/-- The record of an event. -/
def record (event : Event) : String :=
  event.level.label ++ " " ++ event.origin ++ ": " ++ event.name

/-- Whether an event is shown at a log level. -/
def isShown (threshold : LogLevel) (event : Event) : Bool :=
  threshold.severity ≤ event.level.severity

/-- At the lowest level everything is shown. -/
@[simp] theorem isShown_debug (event : Event) : event.isShown .debug = true := by
  cases event <;> rfl

end Event

/-- The events of a computation. -/
def computationEvents (limits : Limits) (expression : String) : List Event :=
  let p := progress limits expression
  p.milestones.map .passed ++ [if p.outcome.isOk then .succeeded else .failed]

end InfixCalculator.CommandLine
