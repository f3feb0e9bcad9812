import InfixCalculator.Text.Blank
import InfixCalculator.Text.DecimalDigit

/-!
# Numbers in other scripts

The digits and the white space of all scripts have a counterpart in ASCII. `asciiForm` puts it in
their place, so that a reader of numbers has to know ASCII only. ASCII itself is left as it is.
-/

namespace InfixCalculator.Text

/-- The value of a decimal digit of some script. The digits of a script follow one another. -/
def digitValueIn : List (Nat × Nat) → Nat → Option Nat
  | [], _ => none
  | (low, high) :: rest, n =>
    if low ≤ n ∧ n ≤ high then some ((n - low) % 10) else digitValueIn rest n

/-- The ASCII counterpart of a character outside of ASCII; a question mark if there is none. -/
def asciiCounterpart (c : Char) : Char :=
  if isSpace c then ' '
  else
    match digitValueIn digitRanges c.toNat with
    | some d => Char.ofNat ('0'.toNat + d)
    | none => '?'

/-- A text with digits and white space in ASCII. -/
def asciiForm (s : List Char) : List Char :=
  s.map fun c => if c.toNat < 0x7f then c else asciiCounterpart c

/-- White space of ASCII, without the information separators. -/
def isAsciiSpace (c : Char) : Bool :=
  c == ' ' || (9 ≤ c.toNat && c.toNat ≤ 13)

/-- A text without ASCII white space at its ends. -/
def trimAscii (s : List Char) : List Char :=
  ((s.dropWhile isAsciiSpace).reverse.dropWhile isAsciiSpace).reverse

end InfixCalculator.Text
