import InfixCalculator.Text.Ranges

/-!
# Blank characters

Two classes of blanks are in use. *Separators* stand between the tokens of an expression: space,
tab, line feed and carriage return. *Spaces* are the wider class of white space in all scripts; they
are cut from both ends of a setting's text, and a line of input that holds nothing else is skipped.
Every separator is a space (`isSpace_of_isSeparator`).
-/

namespace InfixCalculator.Text

/-- The characters that separate the tokens of an expression. -/
def isSeparator (c : Char) : Bool :=
  c == ' ' || c == '\t' || c == '\n' || c == '\r'

/-- The code points of white space: the separators of lines, words and paragraphs in all scripts,
and the four information separators of ASCII. -/
def spaceRanges : List (Nat × Nat) :=
  [(0x9, 0xd), (0x1c, 0x20), (0x85, 0x85), (0xa0, 0xa0), (0x1680, 0x1680), (0x2000, 0x200a),
   (0x2028, 0x2029), (0x202f, 0x202f), (0x205f, 0x205f), (0x3000, 0x3000)]

/-- The wide class of white space. -/
def isSpace (c : Char) : Bool :=
  covers spaceRanges c.toNat

theorem isSpace_of_isSeparator {c : Char} (h : isSeparator c = true) : isSpace c = true := by
  simp only [isSeparator, Bool.or_eq_true, beq_iff_eq] at h
  rcases h with ((rfl | rfl) | rfl) | rfl <;> decide

/-- A text without its leading and trailing white space. -/
def trimSpaces (s : List Char) : List Char :=
  ((s.dropWhile isSpace).reverse.dropWhile isSpace).reverse

/-- A string without its leading and trailing white space. -/
def trim (s : String) : String :=
  String.ofList (trimSpaces s.toList)

/-- Whether a string holds nothing but white space. -/
def isAllSpace (s : String) : Bool :=
  s.toList.all isSpace

end InfixCalculator.Text
