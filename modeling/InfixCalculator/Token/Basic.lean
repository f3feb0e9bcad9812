import InfixCalculator.Operator

/-!
# Tokens

A token is a literal, an operator or a parenthesis, with its text and the position of its first
character. The tokens that are read from an expression have the text that belongs to their kind;
elsewhere a token may carry any text.
-/

namespace InfixCalculator

namespace Token

/-- What a token is. -/
inductive Kind where
  | literal
  | operator (op : Operator)
  | openParen
  | closeParen
  deriving DecidableEq, Repr

namespace Kind

/-- The operator that a kind of token stands for. -/
def operator? : Kind → Option Operator
  | operator op => some op
  | _ => none

/-- Whether a kind of token is a binary operator; parentheses are not. -/
def isOperator (kind : Kind) : Bool :=
  kind.operator?.isSome

/-- The character that denotes a kind of token; a literal has none. -/
def symbol? : Kind → Option Char
  | literal => none
  | operator op => some op.symbol
  | openParen => some '('
  | closeParen => some ')'

/-- The kind of token that a character denotes on its own. -/
def ofSymbol? (c : Char) : Option Kind :=
  if c == '(' then some openParen
  else if c == ')' then some closeParen
  else (Operator.ofSymbol? c).map operator

end Kind

end Token

/-- A token of an expression. -/
structure Token where
  /-- What the token is. -/
  kind : Token.Kind
  /-- The text of the token. -/
  text : String
  /-- The position of its first character. -/
  position : Int
  deriving DecidableEq, Repr

end InfixCalculator
