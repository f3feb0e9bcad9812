import InfixCalculator.Binary64.Shortest

/-!
# Reading decimals

A decimal is read to the nearest double. The exact quotient is formed only where the answer depends
on it: a decimal far above the largest double or far below the least one is recognised by the size of
its exponent, however long that is.

`ofText?` reads the texts that `text` writes, and every other decimal with an optional sign, point
and exponent.
-/

namespace InfixCalculator.Binary64

/-- The double nearest to a decimal without sign, or nothing if it exceeds the largest double. The
largest double is below `10 ^ 309`, the least above zero is above `10 ^ -324`. -/
def Decimal.nearest? (d : Decimal) : Option Float :=
  if d.significand = 0 then Binary64.nearest? 0 1
  else if 400 < d.exponent then none
  else if (d.significand.log2 / 3 + 1 : Nat) + d.exponent < -400 then Binary64.nearest? 0 1
  else if 0 ≤ d.exponent then Binary64.nearest? (d.significand * Nat.pow 10 d.exponent.toNat) 1
  else Binary64.nearest? d.significand (Nat.pow 10 (-d.exponent).toNat)

/-! ## Splitting a text -/

/-- A run of ASCII digits at the beginning of a text, and the rest. -/
def takeDigits (s : List Char) : List Char × List Char :=
  (s.takeWhile Char.isDigit, s.dropWhile Char.isDigit)

/-- The digits before and after a point make up the significand; each digit after the point lowers
the exponent by one. -/
def Decimal.ofDigits (whole fraction : List Char) (exponent : Int) : Decimal :=
  ⟨Numeral.ofDigits (whole ++ fraction), exponent - fraction.length⟩

/-- The sign at the beginning of a text, and the rest. -/
def takeSign : List Char → Bool × List Char
  | '-' :: rest => (true, rest)
  | '+' :: rest => (false, rest)
  | rest => (false, rest)

/-- An exponent without sign, which must be the whole text; no text stands for zero. -/
def unsignedExponent? : List Char → Option Int
  | [] => some 0
  | mark :: digits =>
    if (mark == 'e' || mark == 'E') && !digits.isEmpty && digits.all Char.isDigit then
      some (Numeral.ofDigits digits : Nat)
    else none

/-- An exponent with optional sign, which must be the whole text; no text stands for zero. -/
def signedExponent? : List Char → Option Int
  | mark :: '-' :: digits => (unsignedExponent? (mark :: digits)).map (-·)
  | mark :: '+' :: digits => unsignedExponent? (mark :: digits)
  | rest => unsignedExponent? rest

/-- A decimal without sign: digits with an optional point, at least one digit, and an exponent as
the given reader takes it. -/
def Decimal.read? (exponent? : List Char → Option Int) (s : List Char) : Option Decimal :=
  let (whole, rest) := takeDigits s
  let (fraction, rest) :=
    match rest with
    | '.' :: rest => takeDigits rest
    | rest => ([], rest)
  if whole.isEmpty && fraction.isEmpty then none
  else (exponent? rest).map (Decimal.ofDigits whole fraction)

/-- The positive infinity. -/
def infinity : Float :=
  Float.ofBits infinityBits.toUInt64

/-- The double that is not a number. -/
def notANumber : Float :=
  Float.ofBits (infinityBits + fieldUnit / 2).toUInt64

/-- Reads a double with optional sign; a decimal beyond the largest double is infinite. -/
def ofText? (s : List Char) : Option Float :=
  let (negative, body) := takeSign s
  let magnitude :=
    if body == "inf".toList then some infinity
    else if body == "nan".toList then some notANumber
    else (Decimal.read? signedExponent? body).map fun d => d.nearest?.getD infinity
  magnitude.map fun x => if negative then -x else x

end InfixCalculator.Binary64
