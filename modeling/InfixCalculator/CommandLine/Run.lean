import InfixCalculator.CommandLine.Arguments
import InfixCalculator.CommandLine.Log
import InfixCalculator.Session
import InfixCalculator.Settings.Load
import InfixCalculator.Tree

/-!
# Running the command

The command computes the expressions among its arguments, or else those on the lines of its input,
and writes a block for each: the line of the computation and, if it succeeded, what the settings ask
for beside it. The status tells whether all computations succeeded.

A run is a function of the surroundings, the arguments and the input; it tells what is to be written,
and writes nothing.
-/

namespace InfixCalculator.CommandLine

/-! ## Blocks -/

/-- Whether anything is shown beside a result. -/
def showsDetails (settings : Settings) : Bool :=
  settings.showRpn || settings.showTree

/-- A text as a line of its own. -/
def asLine (text : String) : String :=
  text ++ "\n"

/-- The postfix form, if it is to be shown. -/
def rpnDetail (settings : Settings) (tokens : List Token) : String :=
  if settings.showRpn then asLine ("  postfix: " ++ Rpn.text tokens) else ""

/-- The tree on one line and as an outline, if it is to be shown. -/
def treeDetail (settings : Settings) (expression : String) (tokens : List Token) :
    Except Failure String :=
  if settings.showTree then
    match Tree.ofPostorder (some expression) tokens with
    | .error failure => .error failure
    | .ok tree => .ok (asLine ("  tree: " ++ tree.inline) ++ asLine (tree.outline 2))
  else .ok ""

/-- What is shown beside a result. -/
def details (settings : Settings) (expression : String) : Except Failure String :=
  if showsDetails settings then
    match rpn settings.limits expression with
    | .error failure => .error failure
    | .ok tokens =>
      match treeDetail settings expression tokens with
      | .error failure => .error failure
      | .ok tree => .ok (rpnDetail settings tokens ++ tree)
  else .ok ""

/-- What a run tells about one expression. -/
structure Block where
  /-- What is written to the output. -/
  output : String
  /-- What is logged. -/
  events : List Event
  /-- Whether the computation succeeded. -/
  succeeded : Bool
  deriving DecidableEq, Repr

/-- The block of an expression. -/
def block (settings : Settings) (expression : String) : Except Failure Block :=
  match compute settings.limits expression with
  | .error _ => .error .unwritable
  | .ok c =>
    match c.line with
    | .error _ => .error .unwritable
    | .ok line =>
      let events := computationEvents settings.limits expression
      if c.succeeded then
        match details settings expression with
        | .error failure => .error failure
        | .ok text =>
          let more := if showsDetails settings then
              [Event.passed .tokenized, .passed .converted] else []
          .ok ⟨asLine line ++ text, events ++ more, true⟩
      else .ok ⟨asLine line, events, false⟩

/-- The blocks of expressions, in their order. -/
def blocks (settings : Settings) : List String → Except Failure (List Block)
  | [] => .ok []
  | expression :: rest =>
    match block settings expression with
    | .error failure => .error failure
    | .ok b =>
      match blocks settings rest with
      | .error failure => .error failure
      | .ok bs => .ok (b :: bs)

/-! ## Reports -/

/-- What a run writes, logs and returns. -/
structure Report where
  /-- The output. -/
  output : String
  /-- All events, whether they are shown or not. -/
  events : List Event
  /-- The exit status. -/
  status : Nat
  deriving DecidableEq, Repr

/-- The report of the blocks of a run. -/
def Report.ofBlocks (bs : List Block) : Report :=
  { output := String.join (bs.map Block.output)
    events := [.started] ++ bs.flatMap Block.events ++ [.finished]
    status := if bs.all Block.succeeded then 0 else 1 }

/-- The records that are shown at a log level. -/
def Report.records (report : Report) (threshold : LogLevel) : List String :=
  (report.events.filter (Event.isShown threshold)).map Event.record

/-- The report on expressions. -/
def report (settings : Settings) (expressions : List String) : Except Failure Report :=
  (blocks settings expressions).map Report.ofBlocks

/-! ## Input -/

/-- The text that is read from a stream of characters: all its lines end with a line feed. -/
def readInput (stream : String) : String :=
  String.ofList (Text.normalizeLines stream.toList)

/-- The lines of a text, each ended by a line feed but perhaps the last. -/
def linesOf : List Char → List (List Char)
  | [] => []
  | c :: rest =>
    if c == '\n' then [] :: linesOf rest
    else
      match linesOf rest with
      | line :: more => (c :: line) :: more
      | [] => [[c]]

/-- The expressions on the lines of a text; lines of white space hold none. -/
def inputExpressions (text : String) : List String :=
  ((linesOf text.toList).filter fun line => !line.all Text.isSpace).map String.ofList

/-! ## The whole run -/

/-- The settings with what the arguments override. -/
def override (settings : Settings) (arguments : Arguments) : Settings :=
  { settings with
    logLevel := arguments.logLevel.getD settings.logLevel
    showRpn := arguments.showRpn || settings.showRpn
    showTree := arguments.showTree || settings.showTree }

/-- How a run ends. -/
inductive Outcome where
  /-- The command explains itself. -/
  | explained
  /-- The arguments cannot be used. -/
  | misused (misuse : Misuse)
  /-- The settings cannot be loaded. -/
  | unconfigured (fault : Settings.LoadFault)
  /-- The settings cannot be loaded, for a reason that the command does not foresee. -/
  | aborted (fault : Settings.LoadFault)
  /-- The expressions have been computed, under the given settings. -/
  | reported (settings : Settings) (report : Report)
  /-- A result or an error cannot be put into words. -/
  | interrupted (failure : Failure)

/-- The computing of what the arguments ask for; `input` is the text to take expressions from if there
are none among the arguments. -/
def computeAll (settings : Settings) (arguments : Arguments) (input : String) : Outcome :=
  let settings := override settings arguments
  let expressions :=
    if arguments.expressions.isEmpty then inputExpressions input else arguments.expressions
  match report settings expressions with
  | .ok report => .reported settings report
  | .error failure => .interrupted failure

/-- A run of the command. -/
def run (around : Settings.Surroundings) (arguments : List String) (input : String) : Outcome :=
  match Request.ofArguments arguments with
  | .error misuse => .misused misuse
  | .ok .help => .explained
  | .ok (.compute arguments) =>
    match Settings.load around arguments.config with
    | .error fault => if fault.isForeseen then .unconfigured fault else .aborted fault
    | .ok settings => computeAll settings arguments input

/-! ## What is shown -/

/-- How the command is used. -/
def usage : String :=
  "usage: calculette [-h] [--config CONFIG]\n" ++
  "                  [--log-level \x7bdebug,info,warning,error,critical\x7d]\n" ++
  "                  [--postfix] [--tree]\n" ++
  "                  [expressions ...]\n"

/-- The explanation of the command. -/
def help : String :=
  usage ++ "\n" ++
  "Evaluate infix arithmetic expressions (+ - * / ^ and parentheses).\n\n" ++
  "positional arguments:\n" ++
  "  expressions           expressions to evaluate; read one per line from stdin\n" ++
  "                        when omitted\n\n" ++
  "options:\n" ++
  "  -h, --help            show this help message and exit\n" ++
  "  --config CONFIG       YAML or JSON configuration file\n" ++
  "  --log-level \x7bdebug,info,warning,error,critical\x7d\n" ++
  "                        override the configured log level\n" ++
  "  --postfix             also print the postfix form\n" ++
  "  --tree                also print the expression tree\n"

namespace Outcome

/-- The exit status of a run. -/
def status : Outcome → Nat
  | explained => 0
  | misused _ => 2
  | unconfigured _ => 2
  | aborted _ => 1
  | reported _ report => report.status
  | interrupted _ => 1

/-- What a run writes to its output. -/
def output : Outcome → String
  | explained => help
  | reported _ report => report.output
  | _ => ""

/-- The lines by which a run tells of itself, apart from its output. -/
def messages : Outcome → List String
  | explained => []
  | misused misuse => ["calculette: error: " ++ misuse.message]
  | unconfigured _ => ["calculette: invalid configuration"]
  | aborted _ => []
  | reported settings report => report.records settings.logLevel
  | interrupted _ => []

end Outcome

end InfixCalculator.CommandLine
