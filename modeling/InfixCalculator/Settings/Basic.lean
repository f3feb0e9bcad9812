import InfixCalculator.Limits

/-!
# Settings

The settings of a calculator: how much is logged, the five limits, and what is shown beside each
result. A `Field` names a setting in configuration files and in messages; `Field.all` gives the
fields in the order in which they are reported.
-/

namespace InfixCalculator

/-- How important a log record must be to be shown. -/
inductive LogLevel where
  | debug
  | info
  | warning
  | error
  | critical
  deriving DecidableEq, Repr

namespace LogLevel

/-- All levels, the least important first. -/
def all : List LogLevel := [debug, info, warning, error, critical]

/-- The name of a level in settings. -/
def name : LogLevel → String
  | debug => "debug"
  | info => "info"
  | warning => "warning"
  | error => "error"
  | critical => "critical"

/-- The name of a level in a log record. -/
def label : LogLevel → String
  | debug => "DEBUG"
  | info => "INFO"
  | warning => "WARNING"
  | error => "ERROR"
  | critical => "CRITICAL"

/-- The level with a name. -/
def ofName? (name : String) : Option LogLevel :=
  all.find? fun level => level.name == name

/-- The rank of a level. -/
def severity : LogLevel → Nat
  | debug => 10
  | info => 20
  | warning => 30
  | error => 40
  | critical => 50

end LogLevel

/-- The settings of a calculator. -/
structure Settings where
  /-- The least important records that are logged. -/
  logLevel : LogLevel := .warning
  /-- The limits of every computation. -/
  limits : Limits := {}
  /-- Whether the postfix form is shown with each result. -/
  showRpn : Bool := false
  /-- Whether the expression tree is shown with each result. -/
  showTree : Bool := false
  deriving DecidableEq, Repr

namespace Settings

/-- The fields of the settings. -/
inductive Field where
  | logLevel
  | limit (limit : Limit)
  | showRpn
  | showTree
  deriving DecidableEq, Repr

namespace Field

/-- All fields, in the order in which they are reported. -/
def all : List Field :=
  [.logLevel, .limit .expressionLength, .limit .tokenCount, .limit .nestingDepth, .limit .exponent,
   .limit .integerBits, .showRpn, .showTree]

/-- The name of a field in a configuration file. -/
def name : Field → String
  | logLevel => "log_level"
  | limit l => l.name
  | showRpn => "show_postfix"
  | showTree => "show_tree"

/-- The environment variable that overrides a field; the fields for what is shown have none. -/
def variableName? : Field → Option String
  | logLevel => some "CALCULETTE_LOG_LEVEL"
  | limit .expressionLength => some "CALCULETTE_MAX_EXPRESSION_LENGTH"
  | limit .tokenCount => some "CALCULETTE_MAX_TOKEN_COUNT"
  | limit .nestingDepth => some "CALCULETTE_MAX_NESTING_DEPTH"
  | limit .exponent => some "CALCULETTE_MAX_EXPONENT"
  | limit .integerBits => some "CALCULETTE_MAX_INTEGER_BITS"
  | showRpn => none
  | showTree => none

/-- The field with a name. -/
def ofName? (name : String) : Option Field :=
  all.find? fun field => field.name == name

theorem mem_all (field : Field) : field ∈ all := by
  cases field with
  | limit l => cases l <;> decide
  | _ => decide

end Field

end Settings

end InfixCalculator
