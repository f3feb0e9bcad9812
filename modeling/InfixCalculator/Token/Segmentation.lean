import InfixCalculator.Limits
import InfixCalculator.Text.Blank
import InfixCalculator.Token.Basic

/-!
# Splitting an expression into tokens

An expression is scanned from left to right. A symbol is a token of its own. A run of other printable
characters is a literal, whether it looks like a number or not. Separators end a literal and are
dropped. A character that is neither a symbol nor a separator nor printable stops the scan.

The scan is a step function on a small state (`Scan`), which holds the literal that is being read and
the tokens that are complete. Whenever a token is completed the tokens are counted, so a literal that
is still open is not counted yet when a bad character is met.
-/

namespace InfixCalculator

namespace Token

/-- Whether an expression holds nothing but separators. -/
def isBlank (source : String) : Bool :=
  source.toList.all Text.isSeparator

/-- The state of the scan. -/
structure Scan where
  /-- The position of the next character. -/
  position : Nat
  /-- The characters of the literal that is being read, the last one first. -/
  pending : List Char
  /-- The position at which that literal starts. -/
  start : Nat
  /-- The tokens that are complete. -/
  tokens : Array Token
  deriving DecidableEq, Repr

namespace Scan

/-- The state before the first character. -/
def initial : Scan :=
  ⟨0, [], 0, #[]⟩

/-- Completes a token and counts. -/
def push (limits : Limits) (scan : Scan) (token : Token) : Except Failure Scan :=
  let tokens := scan.tokens.push token
  match limits.check .tokenCount tokens.size with
  | .error failure => .error failure
  | .ok () => .ok { scan with tokens := tokens }

/-- Completes the literal that is being read, if there is one. -/
def flush (limits : Limits) (scan : Scan) : Except Failure Scan :=
  if scan.pending.isEmpty then .ok scan
  else
    ({ scan with pending := [] } : Scan).push limits
      ⟨.literal, String.ofList scan.pending.reverse, scan.start⟩

/-- Moves on to the next character. -/
def advance (scan : Scan) : Scan :=
  { scan with position := scan.position + 1 }

/-- Appends a character to the literal that is being read, or starts one. -/
def extend (scan : Scan) (c : Char) : Scan :=
  { scan with
    pending := c :: scan.pending
    start := if scan.pending.isEmpty then scan.position else scan.start }

/-- Takes in one character of the given expression. -/
def step (limits : Limits) (source : String) (scan : Scan) (c : Char) : Except Failure Scan :=
  if Text.isSeparator c then
    match scan.flush limits with
    | .error failure => .error failure
    | .ok scan => .ok scan.advance
  else
    match Kind.ofSymbol? c with
    | some kind =>
      match scan.flush limits with
      | .error failure => .error failure
      | .ok scan =>
        match scan.push limits ⟨kind, String.singleton c, scan.position⟩ with
        | .error failure => .error failure
        | .ok scan => .ok scan.advance
    | none =>
      if Text.isPrintable c then .ok (scan.extend c).advance
      else .error (.atPosition (.invalidCharacter (String.singleton c)) scan.position (some source))

/-- Takes in a list of characters. -/
def run (limits : Limits) (source : String) : Scan → List Char → Except Failure Scan
  | scan, [] => .ok scan
  | scan, c :: rest =>
    match scan.step limits source c with
    | .error failure => .error failure
    | .ok scan => scan.run limits source rest

@[simp] theorem run_nil (limits : Limits) (source : String) (scan : Scan) :
    scan.run limits source [] = .ok scan := rfl

end Scan

/-- The tokens of an expression, in their order. -/
def tokenize (limits : Limits) (source : String) : Except Failure (List Token) :=
  match limits.checkLength source with
  | .error failure => .error failure
  | .ok () =>
    match Scan.initial.run limits source source.toList with
    | .error failure => .error failure
    | .ok scan =>
      match scan.flush limits with
      | .error failure => .error failure
      | .ok scan => .ok scan.tokens.toList

end Token

end InfixCalculator
