import InfixCalculator.Binary64.Decimal
import InfixCalculator.Yaml.Tag
import InfixCalculator.Yaml.Time

/-!
# The type of an untagged scalar

A plain scalar has the type that its text shows: null, a truth value, an integer in one of several
notations, a double, a time, the key of a merge or of a value, or else a text. A double shows itself
by its point; its exponent must have a sign. A line break at the end of a text does not count here,
except that a text with nothing before it is not null.
-/

namespace InfixCalculator.Yaml

/-! ## Words -/

/-- The words for null. -/
def nullWords : List String := ["~", "null", "Null", "NULL"]

/-- The words for truth values. -/
def boolWords : List String :=
  ["yes", "Yes", "YES", "no", "No", "NO", "true", "True", "TRUE", "false", "False", "FALSE",
   "on", "On", "ON", "off", "Off", "OFF"]

/-! ## Numbers -/

/-- A digit of the given base, or an underscore, which has no meaning between digits. -/
def isDigitOrUnderscore (base : Nat) (c : Char) : Bool :=
  c == '_' || match Numeral.hexValue? c with
    | some d => d < base
    | none => false

/-- A run of digits and underscores that begins with a digit. -/
def isRun (s : List Char) : Bool :=
  match s with
  | c :: rest => c.isDigit && rest.all (isDigitOrUnderscore 10)
  | [] => false

/-- The parts of a text between colons. -/
def colonParts : List Char → List (List Char)
  | [] => [[]]
  | c :: rest =>
    let parts := colonParts rest
    if c == ':' then [] :: parts
    else match parts with
      | part :: more => (c :: part) :: more
      | [] => [[c]]

/-- A number below sixty of one or two digits. -/
def isSixtieth (s : List Char) : Bool :=
  match s with
  | [c] => c.isDigit
  | [c, d] => '0' ≤ c && c ≤ '5' && d.isDigit
  | _ => false

/-- Whether a text without sign shows an integer: binary after `0b`, octal after `0`, hexadecimal
after `0x`, decimal, or in base sixty with colons between the places. -/
def showsInt (s : List Char) : Bool :=
  match s with
  | ['0'] => true
  | '0' :: 'b' :: digits => !digits.isEmpty && digits.all (isDigitOrUnderscore 2)
  | '0' :: 'x' :: digits => !digits.isEmpty && digits.all (isDigitOrUnderscore 16)
  | '0' :: digits => digits.all (isDigitOrUnderscore 8)
  | s =>
    match colonParts s with
    | first :: more => isRun first && more.all isSixtieth
    | [] => false

/-- The exponent of a double, which must have a sign; it may be missing. -/
def isSignedExponent (s : List Char) : Bool :=
  match s with
  | [] => true
  | mark :: sign :: digits =>
    (mark == 'e' || mark == 'E') && (sign == '+' || sign == '-') && !digits.isEmpty &&
      digits.all Char.isDigit
  | _ => false

/-- Whether a text without sign shows a double: digits with a point among them or after them, and
perhaps an exponent. -/
def showsPointed (s : List Char) : Bool :=
  match s.dropWhile (isDigitOrUnderscore 10) with
  | '.' :: rest =>
    isRun (s.takeWhile (isDigitOrUnderscore 10)) &&
      isSignedExponent (rest.dropWhile (isDigitOrUnderscore 10))
  | _ => false

/-- Whether a text shows a double that begins with a point. -/
def showsFraction (s : List Char) : Bool :=
  match s with
  | '.' :: rest =>
    isRun (rest.takeWhile (isDigitOrUnderscore 10)) &&
      isSignedExponent (rest.dropWhile (isDigitOrUnderscore 10))
  | _ => false

/-- Whether a text without sign shows a double in base sixty, with a point after the last place. -/
def showsSexagesimal (s : List Char) : Bool :=
  match (colonParts s).reverse with
  | last :: place :: more =>
    match (place :: more).reverse with
    | first :: middle =>
      isRun first && middle.all isSixtieth && isSixtieth (last.takeWhile (· != '.')) &&
        (match last.dropWhile (· != '.') with
          | '.' :: fraction => fraction.all (isDigitOrUnderscore 10)
          | _ => false)
    | [] => false
  | _ => false

/-- The ways to write infinity. -/
def infinityWords : List String := [".inf", ".Inf", ".INF"]

/-- The ways to write what is not a number. -/
def undefinedWords : List String := [".nan", ".NaN", ".NAN"]

/-- Whether a text shows a double. What begins with a point has no sign, except for infinity. -/
def showsFloat (s : List Char) : Bool :=
  let body := (Binary64.takeSign s).2
  showsPointed body || showsFraction s || showsSexagesimal body ||
    infinityWords.contains (String.ofList body) || undefinedWords.contains (String.ofList s)

/-- Whether a text shows a time. A date alone needs two digits for the month and for the day. -/
def showsTime (s : List Char) : Bool :=
  match Time.parts? s with
  | some parts => parts.clock.isSome || parts.isFull
  | none => false

/-! ## Types -/

/-- The type that a text shows, in which a line break at the end counts. -/
def CoreType.ofBody (s : List Char) : Option CoreType :=
  let word := String.ofList s
  if boolWords.contains word then some .bool
  else if nullWords.contains word then some .null
  else if word == "<<" then some .merge
  else if word == "=" then some .value
  else if ["!", "&", "*"].contains word then none
  else if showsFloat s then some .float
  else if showsInt (Binary64.takeSign s).2 then some .int
  else if showsTime s then some .timestamp
  else some .str

/-- A text without the line break at its end. -/
def dropFinalBreak (s : List Char) : List Char :=
  if s.getLast? == some '\n' then s.dropLast else s

/-- The type that a text shows. There is none for a lone character that marks a tag, an anchor or an
alias. -/
def CoreType.ofText (s : String) : Option CoreType :=
  if s.isEmpty then some .null else ofBody (dropFinalBreak s.toList)

/-- The type of a scalar with the given tag in full: a plain one without tag, and any whose tag
leaves the type open, has the type that its text shows. -/
def CoreType.ofScalar (tag : Option String) (plain : Bool) (s : String) : Option CoreType :=
  match tag with
  | none => if plain then ofText s else some .str
  | some tag => if tag == openTag then ofText s else ofName? tag

/-- The type of a collection with the given tag in full, which is another one only if the tag says
so. -/
def CoreType.ofCollection (tag : Option String) (usual : CoreType) : Option CoreType :=
  match tag with
  | none => some usual
  | some tag => if tag == openTag then some usual else ofName? tag

end InfixCalculator.Yaml
