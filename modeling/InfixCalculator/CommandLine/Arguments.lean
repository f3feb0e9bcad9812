import InfixCalculator.Settings.Basic
import InfixCalculator.Text.DecimalDigit
import InfixCalculator.Text.Quoted

/-!
# Arguments of the command line

The command takes expressions and options. An option may be shortened as long as one option only can
be meant, and its value may follow it or be joined to it by an equals sign. What begins with a hyphen
is an option, unless it is a hyphen alone, a negative number, or holds a space; after `--` nothing is.

The expressions must stand together. A word that has no place, because the expressions have been
given already or because no such option exists, is not recognised; all such words are reported at the
end.
-/

namespace InfixCalculator.CommandLine

/-- The options of the command. -/
inductive Switch where
  | help
  | config
  | logLevel
  | rpn
  | tree
  deriving DecidableEq, Repr

namespace Switch

/-- The ways to write each option in full. -/
def spellings : List (String × Switch) :=
  [("-h", help), ("--help", help), ("--config", config), ("--log-level", logLevel),
   ("--postfix", rpn), ("--tree", tree)]

/-- Whether an option has a value. -/
def takesValue : Switch → Bool
  | config => true
  | logLevel => true
  | _ => false

/-- The name of an option in messages: all its spellings. -/
def title (switch : Switch) : String :=
  String.intercalate "/" ((spellings.filter fun s => s.2 = switch).map Prod.fst)

end Switch

/-- Why the arguments cannot be used. -/
inductive Misuse where
  /-- A shortened option that could be one of several. -/
  | ambiguous (word : String) (candidates : List String)
  /-- An option without its value. -/
  | missingValue (switch : Switch)
  /-- A value joined to an option that has none. -/
  | unexpectedValue (switch : Switch) (value : String)
  /-- A log level that there is not. -/
  | unknownLevel (value : String)
  /-- Words that have no place. -/
  | unrecognized (words : List String)
  deriving DecidableEq, Repr

/-- The wording of a misuse. -/
def Misuse.message : Misuse → String
  | ambiguous word candidates =>
    "ambiguous option: " ++ word ++ " could match " ++ String.intercalate ", " candidates
  | missingValue switch => "argument " ++ switch.title ++ ": expected one argument"
  | unexpectedValue switch value =>
    "argument " ++ switch.title ++ ": ignored explicit argument " ++ Text.quoted value
  | unknownLevel value =>
    let levels := LogLevel.all.map fun level => Text.quoted level.name
    "argument " ++ Switch.logLevel.title ++ ": invalid choice: " ++ Text.quoted value ++
      " (choose from " ++ String.intercalate ", " levels ++ ")"
  | unrecognized words => "unrecognized arguments: " ++ String.intercalate " " words

/-! ## Telling words apart -/

/-- What a word of the command line is. -/
inductive Word where
  /-- An expression or the value of an option. -/
  | plain (text : String)
  /-- The mark after which there are no options. -/
  | terminator
  /-- An option, with the value that is joined to it. -/
  | switch (which : Switch) (value : Option String)
  /-- The help option by its letter, with what is joined to it. -/
  | letters (joined : String)
  /-- An option that there is not. -/
  | unknown (text : String)
  deriving DecidableEq, Repr

/-- A text cut at its first equals sign. -/
def cutAtEquals (s : String) : String × Option String :=
  match s.toList.dropWhile (· != '=') with
  | [] => (s, none)
  | _ :: value => (String.ofList (s.toList.takeWhile (· != '=')), some (String.ofList value))

/-- Digits, perhaps with a point before some of them, after a hyphen; a line feed may follow. -/
def isNegativeNumber (s : List Char) : Bool :=
  let body := if s.getLast? == some '\n' then s.dropLast else s
  match body with
  | '-' :: rest =>
    let afterWhole := rest.dropWhile Text.isDecimalDigit
    match afterWhole with
    | [] => !rest.isEmpty
    | '.' :: fraction => !fraction.isEmpty && fraction.all Text.isDecimalDigit
    | _ => false
  | _ => false

/-- The options that a shortened long option can mean. -/
def candidates (shortened : String) : List (String × Switch) :=
  Switch.spellings.filter fun s => shortened.toList.isPrefixOf s.1.toList

/-- A word that begins with a hyphen but matches no option. -/
def Word.ofUnmatched (s : String) : Word :=
  if isNegativeNumber s.toList || s.toList.contains ' ' then .plain s else .unknown s

/-- A word that begins with two hyphens. No option's name is the beginning of another's, so a name in
full has only itself as a candidate. -/
def Word.ofLong (s : String) : Except Misuse Word :=
  let (name, value) := cutAtEquals s
  match candidates name with
  | [] => .ok (.ofUnmatched s)
  | [(_, which)] => .ok (.switch which value)
  | several => .error (.ambiguous s (several.map Prod.fst))

/-- A word that begins with one hyphen. -/
def Word.ofShort (s : String) : Word :=
  match s.toList with
  | '-' :: 'h' :: joined => .letters (String.ofList joined)
  | _ => .ofUnmatched s

/-- What a word is that does not come after the terminator. -/
def Word.ofText (s : String) : Except Misuse Word :=
  match s.toList with
  | '-' :: second :: _ => if second == '-' then Word.ofLong s else .ok (.ofShort s)
  | _ => .ok (.plain s)

/-- What the words of a command line are. -/
def Word.ofArguments : List String → Except Misuse (List Word)
  | [] => .ok []
  | "--" :: rest => .ok (.terminator :: rest.map .plain)
  | s :: rest =>
    match Word.ofText s with
    | .error misuse => .error misuse
    | .ok word =>
      match Word.ofArguments rest with
      | .error misuse => .error misuse
      | .ok words => .ok (word :: words)

/-! ## Reading the words -/

/-- What the command line asks for. -/
structure Arguments where
  /-- The expressions. -/
  expressions : List String := []
  /-- The path of a configuration file. -/
  config : Option String := none
  /-- The log level. -/
  logLevel : Option LogLevel := none
  /-- Whether the postfix form is to be shown. -/
  showRpn : Bool := false
  /-- Whether the tree is to be shown. -/
  showTree : Bool := false
  deriving DecidableEq, Repr

/-- Whether the expressions are still to come, are being read, or have been read. -/
inductive Phase where
  | before
  | within
  | after
  deriving DecidableEq, Repr

/-- What has been read so far. -/
structure Reading where
  phase : Phase := .before
  arguments : Arguments := {}
  /-- The words that have no place. -/
  strangers : List String := []
  deriving DecidableEq, Repr

namespace Reading

/-- An option ends the expressions, if they have begun. -/
def endExpressions (r : Reading) : Reading :=
  { r with phase := if r.phase = .within then .after else r.phase }

/-- A word that has no place. -/
def stranger (r : Reading) (text : String) : Reading :=
  { r with strangers := r.strangers ++ [text] }

/-- An expression, or a word that comes too late to be one. -/
def plain (r : Reading) (text : String) : Reading :=
  if r.phase = .after then r.stranger text
  else
    { r with
      phase := .within
      arguments := { r.arguments with expressions := r.arguments.expressions ++ [text] } }

/-- The terminator stands before expressions, or has no place. -/
def terminator (r : Reading) : Reading :=
  if r.phase = .after then r.stranger "--" else { r with phase := .within }

/-- The value of an option. The terminator as a value takes away a value that was given before. -/
def setValue (r : Reading) (switch : Switch) (value : String) : Except Misuse Reading :=
  match switch with
  | .config =>
    let given := if value == "--" then none else some value
    .ok { r with arguments := { r.arguments with config := given } }
  | .logLevel =>
    if value == "--" then .ok { r with arguments := { r.arguments with logLevel := none } }
    else
      match LogLevel.ofName? value with
      | some level => .ok { r with arguments := { r.arguments with logLevel := some level } }
      | none => .error (.unknownLevel value)
  | _ => .error (.unexpectedValue switch value)

/-- An option without a value. -/
def turnOn (r : Reading) (switch : Switch) : Reading :=
  match switch with
  | .rpn => { r with arguments := { r.arguments with showRpn := true } }
  | .tree => { r with arguments := { r.arguments with showTree := true } }
  | _ => r

end Reading

/-- What the command is to do. -/
inductive Request where
  /-- To explain itself. -/
  | help
  /-- To compute. -/
  | compute (arguments : Arguments)
  deriving DecidableEq, Repr

/-- What the letters after that of the help option ask for: the same letter again changes nothing, and
all else is a value, which the option does not have. -/
def Request.ofLetters (letters : List Char) : Except Misuse Request :=
  match letters.dropWhile (· == 'h') with
  | [] => .ok .help
  | rest => .error (.unexpectedValue .help (String.ofList rest))

/-- What a text joined to the letter of the help option asks for. After an equals sign there is a
value even if it is empty. -/
def Request.ofJoined : List Char → Except Misuse Request
  | ['='] => .error (.unexpectedValue .help "")
  | '=' :: letters => Request.ofLetters letters
  | letters => Request.ofLetters letters

/-- Reads words. -/
def Request.read : Reading → List Word → Except Misuse Request
  | r, [] =>
    if r.strangers.isEmpty then .ok (.compute r.arguments)
    else .error (.unrecognized r.strangers)
  | r, .plain text :: rest => Request.read (r.plain text) rest
  | r, .terminator :: rest => Request.read r.terminator rest
  | r, .unknown text :: rest => Request.read (r.endExpressions.stranger text) rest
  | _, .letters joined :: _ => Request.ofJoined joined.toList
  | r, .switch which (some value) :: rest =>
    match r.endExpressions.setValue which value with
    | .error misuse => .error misuse
    | .ok r => Request.read r rest
  | r, .switch which none :: rest =>
    if which = .help then .ok .help
    else if which.takesValue then
      match rest with
      | .plain value :: rest =>
        match r.endExpressions.setValue which value with
        | .error misuse => .error misuse
        | .ok r => Request.read r rest
      | _ => .error (.missingValue which)
    else Request.read (r.endExpressions.turnOn which) rest

/-- What the arguments of the command ask for. -/
def Request.ofArguments (arguments : List String) : Except Misuse Request :=
  match Word.ofArguments arguments with
  | .error misuse => .error misuse
  | .ok words => Request.read {} words

end InfixCalculator.CommandLine
