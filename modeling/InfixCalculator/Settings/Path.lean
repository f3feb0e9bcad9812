/-!
# Paths of files

A path is a list of components after a root, which may be missing. Empty components and those that
stand for the same directory have no meaning and are dropped; those that stand for the parent
directory are kept, as what they lead to depends on the directories there are.

A `Folder` is the content of a directory: the texts of files under their paths in it. There is a limit
for the size of a path and for that of a component. The latter is noticed where the component would be
looked up; of a path that breaks off before, it is only known that there is no such file.
-/

namespace InfixCalculator.Settings

/-- The path of a file. -/
structure Path where
  /-- The slashes at the beginning: none, one, or the two that have a meaning of their own. -/
  root : String
  /-- The components that matter. -/
  components : List String
  deriving DecidableEq, Repr

namespace Path

/-- What stands between the slashes of a text. -/
def pieces : List Char → List (List Char)
  | [] => [[]]
  | c :: rest =>
    if c == '/' then [] :: pieces rest
    else
      match pieces rest with
      | piece :: more => (c :: piece) :: more
      | [] => [[c]]

/-- Whether a component matters. -/
def isProper (component : String) : Bool :=
  component != "" && component != "."

/-- The path that a text denotes. Three or more slashes at the beginning are as good as one. -/
def ofText (text : String) : Path :=
  let slashes := (text.toList.takeWhile (· == '/')).length
  let root := if slashes = 0 then "" else if slashes = 2 then "//" else "/"
  ⟨root, ((pieces text.toList).map String.ofList).filter isProper⟩

/-- The text of a path; the empty path is the current directory. -/
def text (path : Path) : String :=
  if path.root == "" && path.components.isEmpty then "."
  else path.root ++ String.intercalate "/" path.components

/-- The least size, in bytes, that a path must not have. -/
def sizeLimit : Nat := 4096

/-- The size, in bytes, that a component may have. -/
def componentLimit : Nat := 255

/-- Whether a path or one of its components is too long. -/
def isTooLong (path : Path) : Bool :=
  sizeLimit ≤ path.text.utf8ByteSize || path.components.any (componentLimit < ·.utf8ByteSize)

end Path

/-- Why a path leads to no file. -/
inductive PathFault where
  /-- There is no such file. -/
  | missing
  /-- The path or one of its components is too long. -/
  | tooLong
  deriving DecidableEq, Repr

/-! ## Files in a directory -/

/-- The files in a directory and below, with their texts. -/
structure Folder where
  files : List (String × String)
  deriving DecidableEq, Repr

namespace Folder

/-- The paths of the files, as components. -/
def paths (folder : Folder) : List (List String × String) :=
  folder.files.map fun (name, text) => ((Path.ofText name).components, text)

/-- Whether some file lies below the directory with the given components. -/
def hasDirectory (folder : Folder) (directory : List String) : Bool :=
  directory.isEmpty ||
    folder.paths.any fun (path, _) => directory.isPrefixOf path && directory.length < path.length

/-- Follows the components of a path through the directories there are; `place` holds the
components of the directory reached, the last one first. Nothing above the folder is known. -/
def locate (folder : Folder) : List String → List String → Except PathFault (List String)
  | place, [] => .ok place.reverse
  | place, component :: rest =>
    if !folder.hasDirectory place.reverse then .error .missing
    else if Path.componentLimit < component.utf8ByteSize then .error .tooLong
    else if component == ".." then
      match place with
      | [] => .error .missing
      | _ :: outer => folder.locate outer rest
    else folder.locate (component :: place) rest

/-- The text of the file at a path. -/
def read (folder : Folder) (path : Path) : Except PathFault String :=
  if Path.sizeLimit ≤ path.text.utf8ByteSize then .error .tooLong
  else if path.root != "" then .error .missing
  else
    match folder.locate [] path.components with
    | .error fault => .error fault
    | .ok place =>
      match folder.paths.lookup place with
      | some text => .ok text
      | none => .error .missing

end Folder

end InfixCalculator.Settings
