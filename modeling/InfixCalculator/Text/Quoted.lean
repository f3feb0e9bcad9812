import InfixCalculator.Text.Numeral
import InfixCalculator.Text.Printable

/-!
# Quoted text

The form in which a message shows a text that may hold anything: between quotation marks, with
everything escaped that would not show or would be taken for the closing mark. The mark is `'`,
except for a text that holds a `'` and no `"`. Bytes are shown in the same way.
-/

namespace InfixCalculator.Text

/-- The quotation mark for a text: double if the text holds a single mark and no double one. -/
def quotationMark (s : List Char) : Char :=
  if s.contains '\'' && !s.contains '"' then '"' else '\''

/-- One character between quotation marks: the mark itself and the backslash after a backslash, the
line and tab characters by letter, what is not printable by its code point in two, four or eight
hexadecimal digits, and all else as it is. -/
def escaped (mark c : Char) : List Char :=
  if c == mark || c == '\\' then ['\\', c]
  else if c == '\t' then ['\\', 't']
  else if c == '\n' then ['\\', 'n']
  else if c == '\r' then ['\\', 'r']
  else if isPrintable c then [c]
  else if c.toNat < 0x100 then '\\' :: 'x' :: Numeral.hexText 2 c.toNat
  else if c.toNat < 0x10000 then '\\' :: 'u' :: Numeral.hexText 4 c.toNat
  else '\\' :: 'U' :: Numeral.hexText 8 c.toNat

/-- A text between quotation marks, with what would not show escaped. -/
def quoted (s : String) : String :=
  let mark := quotationMark s.toList
  String.ofList (mark :: s.toList.flatMap (escaped mark) ++ [mark])

/-- Bytes as a text of ASCII characters between quotation marks, after a `b`; a byte that is no
printable ASCII character is escaped. -/
def quotedBytes (bytes : List UInt8) : String :=
  let s := bytes.map fun byte => Char.ofNat byte.toNat
  let mark := quotationMark s
  let shown (c : Char) : List Char :=
    if 0x7f ≤ c.toNat then '\\' :: 'x' :: Numeral.hexText 2 c.toNat else escaped mark c
  String.ofList ('b' :: mark :: s.flatMap shown ++ [mark])

end InfixCalculator.Text
