import InfixCalculator.Text.AsciiForm
import InfixCalculator.Yaml.Resolution

/-!
# Integers and doubles of a document

The texts of numbers that a document gives the type of a number, by a tag or by their form. Underscores
have no meaning in them. With a tag more forms are possible than without: white space around the
digits, signs after a sign, and digits of other scripts.
-/

namespace InfixCalculator.Yaml

/-- A text without the underscores in it. -/
def dropUnderscores (s : List Char) : List Char :=
  s.filter (· != '_')

/-- A number with the sign that stands before it; `s` is what begins with the sign. -/
def signed [Neg α] (s : List Char) (n : α) : α :=
  if (Binary64.takeSign s).1 then -n else n

/-! ## Integers -/

/-- The mark that may stand before the digits of a base. -/
def dropBaseMark (base : Nat) (s : List Char) : List Char :=
  match s with
  | '0' :: mark :: rest =>
    let lower := mark.toLower
    if (base = 16 ∧ lower = 'x') ∨ (base = 8 ∧ lower = 'o') ∨ (base = 2 ∧ lower = 'b') then rest
    else s
  | _ => s

/-- The value of digits of a base up to sixteen; digits there must be, and not too many where the base
is ten. -/
def natOfDigits (base : Nat) (digits : List Char) : Except Fault Nat :=
  if digits.isEmpty || !digits.all (isDigitOrUnderscore base) || digits.contains '_'
      || (base == 10 && Numeral.maxDigits < digits.length) then .error .noSuchValue
  else .ok (digits.foldl (fun n c => base * n + (Numeral.hexValue? c).getD 0) 0)

/-- The integer of a text in the given base, with white space around it and a sign. -/
def intInBase (base : Nat) (s : List Char) : Except Fault Int :=
  let body := Text.trimAscii (Text.asciiForm s)
  (natOfDigits base (dropBaseMark base (Binary64.takeSign body).2)).map fun n =>
    signed body (n : Int)

/-- The integers of several texts in base ten. -/
def decimalInts : List (List Char) → Except Fault (List Int)
  | [] => .ok []
  | s :: rest => do
    let n ← intInBase 10 s
    return n :: (← decimalInts rest)

/-- The integer of a text without sign: binary after `0b`, hexadecimal after `0x`, octal after any
other zero, and decimal otherwise, in base sixty if there are colons. -/
def unsignedInt (s : List Char) : Except Fault Int :=
  match s with
  | [] => .error .emptyNumber
  | ['0'] => .ok 0
  | '0' :: 'b' :: digits => intInBase 2 digits
  | '0' :: 'x' :: digits => intInBase 16 digits
  | '0' :: _ => intInBase 8 s
  | _ =>
    if s.contains ':' then do
      let places ← decimalInts (colonParts s)
      return places.foldl (fun n place => 60 * n + place) 0
    else intInBase 10 s

/-- The integer of a text. -/
def intOfText (s : List Char) : Except Fault Int :=
  let s := dropUnderscores s
  (unsignedInt (Binary64.takeSign s).2).map (signed s)

/-! ## Doubles -/

/-- A double, or that it is not a number; `.nan` is the same whenever it is written, as opposed to
other ways to say so. -/
inductive Real where
  | number (x : Float)
  | undefined (common : Bool)

/-- The double with the given value. -/
def Real.ofFloat (x : Float) : Real :=
  if x.isNaN then .undefined false else .number x

/-- The double of a text in lower case, with white space around it and a sign. -/
def floatInBase10 (s : List Char) : Except Fault Float :=
  let body := Text.trimAscii (Text.asciiForm s)
  let infinite := (Binary64.takeSign body).2 == "infinity".toList
  let x? := if infinite then some (signed body Binary64.infinity) else Binary64.ofText? body
  match x? with
  | some x => .ok x
  | none => .error .noSuchValue

/-- The doubles of several texts. -/
def decimalFloats : List (List Char) → Except Fault (List Float)
  | [] => .ok []
  | s :: rest => do
    let x ← floatInBase10 s
    return x :: (← decimalFloats rest)

/-- The sum of places in base sixty, the last place first. The value of a place has to be a double. -/
def sumPlaces (sum : Float) (base : Nat) : List Float → Except Fault Float
  | [] => .ok sum
  | place :: rest =>
    match Binary64.ofInt? base with
    | some value => sumPlaces (sum + place * value) (base * 60) rest
    | none => .error .outOfRange

/-- The double of a text without sign, in lower case. -/
def unsignedFloat (s : List Char) : Except Fault Float :=
  if s.contains ':' then do
    let places ← decimalFloats (colonParts s)
    sumPlaces 0 1 places.reverse
  else floatInBase10 s

/-- The double of a text. -/
def floatOfText (s : List Char) : Except Fault Real :=
  let s := (dropUnderscores s).map Char.toLower
  let body := (Binary64.takeSign s).2
  if s.isEmpty then .error .emptyNumber
  else if body == ".inf".toList then .ok (.number (signed s Binary64.infinity))
  else if body == ".nan".toList then .ok (.undefined true)
  else (unsignedFloat body).map fun x => .ofFloat (signed s x)

end InfixCalculator.Yaml
