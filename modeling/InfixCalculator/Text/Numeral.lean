/-!
# Decimal numerals

Reading digits and writing integers. A numeral of more than `maxDigits` digits is neither read nor
written, so that the work of changing between the two bases stays bounded: `isWritable` is the test
before writing, and the reader of a literal counts the digits first.
-/

namespace InfixCalculator.Numeral

/-- The longest numeral that is read or written. -/
def maxDigits : Nat := 4300

/-- The least natural number that has too many digits. -/
def writableBound : Nat := Nat.pow 10 maxDigits

/-- Whether an integer may be written as text. -/
def isWritable (n : Int) : Bool :=
  n.natAbs < writableBound

/-- The value of an ASCII digit. -/
def digitValue (c : Char) : Nat :=
  c.toNat - '0'.toNat

/-- The value of a run of digits in a base up to ten, the most significant digit first, continued
from a value read before it. -/
def continueDigits (base : Nat) (n : Nat) (digits : List Char) : Nat :=
  digits.foldl (fun m c => base * m + digitValue c) n

/-- The decimal value of a run of digits. -/
def ofDigits (digits : List Char) : Nat :=
  continueDigits 10 0 digits

/-- One more digit multiplies by ten and adds. -/
theorem ofDigits_concat (digits : List Char) (c : Char) :
    ofDigits (digits ++ [c]) = 10 * ofDigits digits + digitValue c := by
  simp [ofDigits, continueDigits]

/-- The decimal digits of a natural number, without leading zeros. -/
def digits (n : Nat) : List Char :=
  Nat.toDigits 10 n

/-- The decimal text of an integer: its digits, after a minus sign when it is negative. -/
def text (n : Int) : String :=
  if n < 0 then String.ofList ('-' :: digits n.natAbs) else String.ofList (digits n.natAbs)

/-- The refusal to write an integer. -/
inductive Unwritable where
  /-- The integer has more than `maxDigits` digits. -/
  | tooManyDigits
  deriving DecidableEq, Repr

/-- The text of an integer that is not too long. -/
def write (n : Int) : Except Unwritable String :=
  if isWritable n then .ok (text n) else .error .tooManyDigits

/-- The value of a hexadecimal digit of either case. -/
def hexValue? (c : Char) : Option Nat :=
  if c.isDigit then some (digitValue c)
  else if 'a' ≤ c ∧ c ≤ 'f' then some (c.toNat - 'a'.toNat + 10)
  else if 'A' ≤ c ∧ c ≤ 'F' then some (c.toNat - 'A'.toNat + 10)
  else none

/-- A natural number in at least `width` lower-case hexadecimal digits. -/
def hexText (width n : Nat) : List Char :=
  let significant := Nat.toDigits 16 n
  List.replicate (width - significant.length) '0' ++ significant

end InfixCalculator.Numeral
