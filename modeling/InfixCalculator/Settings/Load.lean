import InfixCalculator.Settings.Field
import InfixCalculator.Settings.Path
import InfixCalculator.Text.Lines

/-!
# Loading settings

Settings come in three layers. On top are the environment variables, if they hold anything but white
space; below them is the configuration file; at the bottom are the defaults. The layers are combined
field by field, and only the value that wins is looked at.

The configuration file is the one that the caller names, or else the one that the environment names;
there may be none. It holds a mapping from the names of fields to values, or nothing at all.
-/

namespace InfixCalculator.Settings

open Yaml (Value)

/-- What settings can be loaded from. -/
structure Surroundings where
  /-- The value of an environment variable. -/
  env : String → Option String
  /-- The text of the file at a path. -/
  file : Path → Except PathFault String

/-- Why settings cannot be loaded. -/
inductive LoadFault where
  /-- There is no such configuration file. -/
  | notFound (path : Path)
  /-- The path of the configuration file is too long. -/
  | pathTooLong
  /-- The configuration file holds something else than a mapping. -/
  | notAMapping (path : Path)
  /-- The configuration file cannot be read. -/
  | unreadable (fault : Yaml.Fault)
  /-- Some fields cannot be accepted. -/
  | rejected (complaints : List Complaint)
  deriving DecidableEq, Repr

/-- The wording of a fault of the file as a whole. -/
def LoadFault.message? : LoadFault → Option String
  | notFound path => some ("Configuration file not found: " ++ path.text)
  | notAMapping path => some ("Configuration file " ++ path.text ++ " must contain a mapping")
  | _ => none

/-- Whether a fault is one of those that the command foresees: that there is no such file, that it is not
a mapping of acceptable values, or that it breaks the rules of the format. -/
def LoadFault.isForeseen : LoadFault → Bool
  | unreadable .malformed => true
  | unreadable .noSuchValue => true
  | unreadable _ => false
  | pathTooLong => false
  | _ => true

/-! ## The configuration file -/

/-- The environment variable that names the configuration file. -/
def fileVariable : String := "CALCULETTE_CONFIG"

/-- The path of the configuration file: the given one, or else that of the environment. An empty
path counts as none. -/
def filePath? (env : String → Option String) (given : Option String) : Option Path :=
  let named (text : Option String) : Option String := text.filter (· != "")
  ((named given).or (named (env fileVariable))).map Path.ofText

/-- The entries of a configuration file; a file without content has none. -/
def entriesOf (path : Path) (text : String) : Except LoadFault Yaml.Entries :=
  match Yaml.Document.ofText (String.ofList (Text.normalizeLines text.toList)) with
  | .error fault => .error (.unreadable fault)
  | .ok .blank => .ok []
  | .ok (.mapping entries) => .ok entries
  | .ok .other => .error (.notAMapping path)

/-- The entries of the configuration file, if there is one. -/
def fileEntries (around : Surroundings) (given : Option String) :
    Except LoadFault Yaml.Entries :=
  match filePath? around.env given with
  | none => .ok []
  | some path =>
    match around.file path with
    | .error .missing => .error (.notFound path)
    | .error .tooLong => .error .pathTooLong
    | .ok text => entriesOf path text

/-! ## Combining the layers -/

/-- The value of a name among the entries of a file. -/
def lookup? (entries : Yaml.Entries) (name : String) : Option Value :=
  match entries with
  | [] => none
  | (.text key, value) :: rest => if key = name then some value else lookup? rest name
  | _ :: rest => lookup? rest name

/-- The value that the environment gives to a field, without white space around it. -/
def override? (env : String → Option String) (field : Field) : Option String :=
  match field.variableName?.bind env with
  | none => none
  | some text => if Text.isAllSpace text then none else some (Text.trim text)

/-- The value of a field that wins. -/
def raw (env : String → Option String) (entries : Yaml.Entries) (field : Field) :
    Option Value :=
  match override? env field with
  | some text => some (.text text)
  | none => lookup? entries field.name

/-- The complaint about a key that names no field. -/
def stranger? (entry : Value × Value) : Option Complaint :=
  match entry.1 with
  | .text name => if (Field.ofName? name).isSome then none else some ⟨name, .unknownField⟩
  | key => some ⟨key.keyText, .namelessField⟩

/-- Whether a key among entries is a text that does not consist of characters. -/
def hasBrokenKey (entries : Yaml.Entries) : Bool :=
  entries.any fun e => e.1 == .brokenText

/-- The settings in the layers above the defaults. A key that does not consist of characters is
reported alone, and without a name. -/
def ofLayers (env : String → Option String) (entries : Yaml.Entries) :
    Except LoadFault Settings :=
  if hasBrokenKey entries then .error (.rejected [⟨"", .notUnicode⟩])
  else
    match ofRaw (raw env entries) (entries.filterMap stranger?) with
    | .ok settings => .ok settings
    | .error complaints => .error (.rejected complaints)

/-- The settings for the given path of a configuration file, which may be missing. -/
def load (around : Surroundings) (given : Option String) : Except LoadFault Settings :=
  match fileEntries around given with
  | .error fault => .error fault
  | .ok entries => ofLayers around.env entries

end InfixCalculator.Settings
