import InfixCalculator.CommandLine.Run

/-!
# The command

The outer layer of the command: it gathers the environment, the configuration file and the input,
runs the command, and writes what it tells.
-/

open InfixCalculator

/-- The environment variables that matter. -/
def settingVariables : List String :=
  Settings.fileVariable :: Settings.Field.all.filterMap Settings.Field.variableName?

/-- The text of a file, if there is one.  That a path is too long is told from the path, for the system has
the same error for other faults. -/
def readFile (path : Settings.Path) : IO (Except Settings.PathFault String) := do
  try
    return .ok (← IO.FS.readFile path.text)
  catch fault =>
    match fault with
    | .invalidArgument .. => return .error (if path.isTooLong then .tooLong else .missing)
    | _ => return .error .missing

/-- The surroundings of a run that may read the given configuration file. -/
def gather (config : Option String) : IO Settings.Surroundings := do
  let mut found : List (String × String) := []
  for name in settingVariables do
    if let some value ← IO.getEnv name then
      found := (name, value) :: found
  let env := fun name => found.lookup name
  match Settings.filePath? env config with
  | none => return ⟨env, fun _ => .error .missing⟩
  | some path =>
    let text ← readFile path
    return ⟨env, fun p => if p = path then text else .error .missing⟩

/-- All that is still to come from a stream. -/
partial def readAll (stream : IO.FS.Stream) (text : String) : IO String := do
  let line ← stream.getLine
  if line.isEmpty then return text else readAll stream (text ++ line)

/-- Runs the command. -/
def main (arguments : List String) : IO UInt32 := do
  let (config, needsInput) := match CommandLine.Request.ofArguments arguments with
    | .ok (.compute a) => (a.config, a.expressions.isEmpty)
    | _ => (none, false)
  let around ← gather config
  let stream ← if needsInput then readAll (← IO.getStdin) "" else pure ""
  let outcome := CommandLine.run around arguments (CommandLine.readInput stream)
  let errors ← IO.getStderr
  if let .misused _ := outcome then errors.putStr CommandLine.usage
  (← IO.getStdout).putStr outcome.output
  for message in outcome.messages do
    errors.putStrLn message
  return outcome.status.toUInt32
