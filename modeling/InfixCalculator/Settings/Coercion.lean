import InfixCalculator.Settings.Basic
import InfixCalculator.Text.Blank
import InfixCalculator.Yaml.Document

/-!
# Lenient reading of single settings

The value of a setting may be written in several ways. An integer may be given as a truth value, as a
double without fraction, or as a text; a truth value as `0` or `1` or as one of several words; a log
level in any case and with white space around it. Where a text is expected of an integer or a truth
value, bytes that encode one are as good. What cannot be taken is told apart by its cause
(`Violation`).
-/

namespace InfixCalculator.Settings

open Yaml (Value)

/-- Why the value of a setting is refused. -/
inductive Violation where
  /-- A text that is no integer. -/
  | notAnInteger
  /-- An integer, or a double, with too many digits. -/
  | integerTooLong
  /-- A value of a type that is never an integer. -/
  | notNumeric
  /-- A double with a fraction. -/
  | fractional
  /-- A double that is infinite or not a number. -/
  | notFinite
  /-- A text or number that is no truth value. -/
  | notATruthValue
  /-- A value of a type that is never a truth value. -/
  | notLogical
  /-- An integer that has to be greater than it is. -/
  | notAbove (bound : Int)
  /-- An integer below the least that is allowed. -/
  | below (bound : Int)
  /-- An integer above the greatest that is allowed. -/
  | above (bound : Int)
  /-- Not one of the log levels. -/
  | notALevel
  /-- A text that does not consist of characters. -/
  | notUnicode
  /-- A field that there is not. -/
  | unknownField
  /-- A field whose name is not a text. -/
  | namelessField
  deriving DecidableEq, Repr

/-! ## Integers -/

/-- White space in the narrow sense: without the information separators of ASCII. -/
def isWhiteSpace (c : Char) : Bool :=
  Text.isSpace c && !(0x1c ≤ c.toNat && c.toNat ≤ 0x1f)

/-- A text without white space in the narrow sense at its ends. -/
def trimWhiteSpace (s : List Char) : List Char :=
  ((s.dropWhile isWhiteSpace).reverse.dropWhile isWhiteSpace).reverse

/-- A plus sign is dropped before an integer, unless a minus sign follows it. -/
def dropPlus? : List Char → Option (List Char)
  | '+' :: '-' :: _ => none
  | '+' :: rest => some rest
  | s => some s

/-- What follows zeros and underscores at the beginning of an integer: digits, or a minus sign. The
last zero stays if a point or nothing follows; `previous` is the character before. -/
def dropZeros? (previous : Char) : List Char → Option (List Char)
  | [] => some [previous]
  | c :: rest =>
    if c == '0' || c == '_' then dropZeros? c rest
    else if c.isDigit || c == '-' then some (c :: rest)
    else if c == '.' then some (previous :: c :: rest)
    else none

/-- An integer without its leading zeros; it must begin with a digit. -/
def dropLeadingZeros? : List Char → Option (List Char)
  | '0' :: rest => dropZeros? '0' rest
  | c :: rest => if c.isDigit then some (c :: rest) else none
  | [] => none

/-- An integer without its plus sign and leading zeros. Zeros are dropped after a minus sign, too. -/
def normalizeInteger? (s : List Char) : Option (List Char) :=
  match dropPlus? s with
  | none => none
  | some ('-' :: rest) => (dropLeadingZeros? rest).map ('-' :: ·)
  | some s => dropLeadingZeros? s

/-- A text without a point and zeros after it, of which there is at least one. -/
def dropZeroFraction (s : List Char) : List Char :=
  match s.dropWhile (· != '.') with
  | _ :: fraction =>
    if !fraction.isEmpty && fraction.all (· == '0') then s.takeWhile (· != '.') else s
  | [] => s

/-- Whether two underscores follow one another. -/
def hasDoubleUnderscore : List Char → Bool
  | '_' :: '_' :: _ => true
  | _ :: rest => hasDoubleUnderscore rest
  | [] => false

/-- A text without its underscores, if they are single and between other characters. -/
def dropUnderscores (s : List Char) : List Char :=
  if s.head? == some '_' || s.getLast? == some '_' || hasDoubleUnderscore s then s
  else s.filter (· != '_')

/-- A decimal integer with an optional minus sign and no leading zeros. Too many digits are noticed
before anything that may follow them. -/
def plainInteger (s : List Char) : Except Violation Int :=
  let (negative, digits) := match s with
    | '-' :: rest => (true, rest)
    | rest => (false, rest)
  if digits.head? == some '0' && 1 < digits.length then .error .notAnInteger
  else if Numeral.maxDigits < (digits.takeWhile Char.isDigit).length then .error .integerTooLong
  else if digits.isEmpty || !digits.all Char.isDigit then .error .notAnInteger
  else
    let n : Int := Numeral.ofDigits digits
    .ok (if negative then -n else n)

/-- The integer that a text denotes: with white space around it, a sign, leading zeros, single
underscores between digits, and a fraction of zeros. -/
def integerOfText (s : String) : Except Violation Int :=
  match normalizeInteger? (trimWhiteSpace s.toList) with
  | some digits => plainInteger (dropUnderscores (dropZeroFraction digits))
  | none => .error .notAnInteger

/-- The text that bytes encode. -/
def textOfBytes? (bytes : List UInt8) : Option String :=
  String.fromUTF8? (ByteArray.mk bytes.toArray)

/-- The least power of two that a double must not reach to be taken as an integer. -/
def wordBound : Int := Nat.pow 2 63

/-- The integer that a double without fraction denotes. -/
def integerOfFloat (x : Float) : Except Violation Int :=
  if !x.isFinite then .error .notFinite
  else if !Binary64.isInteger x then .error .fractional
  else
    let n := Binary64.toInt x
    if -wordBound < n ∧ n < wordBound then .ok n else .error .integerTooLong

/-- The integer that a value denotes. -/
def integer : Value → Except Violation Int
  | .int n => .ok n
  | .bool b => .ok (if b then 1 else 0)
  | .float x => integerOfFloat x
  | .undefined _ => .error .notFinite
  | .text s => integerOfText s
  | .brokenText => .error .notUnicode
  | .bytes bytes =>
    match textOfBytes? bytes with
    | some s => integerOfText s
    | none => .error .notAnInteger
  | _ => .error .notNumeric

/-! ## Limits -/

/-- The bounds of a limit: the exponent may be zero, all other limits are positive, and integers are
bounded so that every one that passes can be shown. -/
def inRange (limit : Limit) (n : Int) : Except Violation Int :=
  match limit with
  | .exponent => if n < 0 then .error (.below 0) else .ok n
  | .integerBits =>
    if 14000 < n then .error (.above 14000) else if n ≤ 0 then .error (.notAbove 0) else .ok n
  | _ => if n ≤ 0 then .error (.notAbove 0) else .ok n

/-- The limit that a value denotes. -/
def limit (which : Limit) (value : Value) : Except Violation Int :=
  match integer value with
  | .error violation => .error violation
  | .ok n => inRange which n

/-- An accepted limit is the integer that was given, and it is in range. -/
theorem inRange_eq_ok_iff {which : Limit} {n m : Int} :
    inRange which n = .ok m ↔
      n = m ∧ (if which = .exponent then 0 ≤ n else 0 < n) ∧ (which = .integerBits → n ≤ 14000) := by
  cases which <;> grind [inRange]

/-! ## Truth values -/

/-- The words for true, in lower case. -/
def yesWords : List String := ["1", "t", "y", "on", "yes", "true"]

/-- The words for false, in lower case. -/
def noWords : List String := ["0", "f", "n", "no", "off", "false"]

/-- A text in lower case, as far as ASCII goes. -/
def lowerCase (s : String) : String :=
  String.ofList (s.toList.map Char.toLower)

/-- The truth value that an integer denotes. -/
def flagOfInteger (n : Int) : Except Violation Bool :=
  if n = 0 then .ok false
  else if n = 1 then .ok true
  else if -wordBound ≤ n ∧ n < wordBound then .error .notATruthValue
  else .error .notLogical

/-- The truth value that a text denotes. -/
def flagOfText (s : String) : Except Violation Bool :=
  if yesWords.contains (lowerCase s) then .ok true
  else if noWords.contains (lowerCase s) then .ok false
  else .error .notATruthValue

/-- The truth value that a value denotes. -/
def flag : Value → Except Violation Bool
  | .bool b => .ok b
  | .text s => flagOfText s
  | .brokenText => .error .notUnicode
  | .bytes bytes =>
    match textOfBytes? bytes with
    | some s => flagOfText s
    | none => .error .notATruthValue
  | .int n => flagOfInteger n
  | .float x =>
    match integerOfFloat x with
    | .ok n => flagOfInteger n
    | .error _ => .error .notLogical
  | _ => .error .notLogical

/-! ## Log levels -/

/-- The log level that a value denotes. -/
def level : Value → Except Violation LogLevel
  | .text s =>
    match LogLevel.ofName? (lowerCase (Text.trim s)) with
    | some level => .ok level
    | none => .error .notALevel
  | .brokenText => .error .notUnicode
  | _ => .error .notALevel

end InfixCalculator.Settings
