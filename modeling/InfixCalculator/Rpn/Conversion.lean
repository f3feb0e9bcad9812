import InfixCalculator.Limits
import InfixCalculator.Token.Basic

/-!
# Postfix order

Infix tokens are brought into postfix order in one pass. Literals go straight to the output; an
operator waits on a stack for its right operand; parentheses separate the operators of a group from
those around it and leave no trace.

The conversion is a step function on configurations (`Conversion`): the stack, the output so far and
the number of parentheses that are open. It looks at nothing but the kinds of the tokens, so it
accepts every token list whose parentheses match and are not nested too deeply.
-/

namespace InfixCalculator

namespace Rpn

/-- A configuration of the conversion. -/
structure Conversion where
  /-- The operators and opening parentheses that wait, the last one first. -/
  stack : List Token
  /-- The output, in its order. -/
  output : Array Token
  /-- How many parentheses are open. -/
  depth : Nat
  deriving DecidableEq, Repr

namespace Conversion

/-- The configuration before the first token. -/
def initial : Conversion :=
  ⟨[], #[], 0⟩

/-- Moves waiting operators to the output until the given operator may wait on top of the rest. -/
def yieldTo (incoming : Operator) : List Token → Array Token → List Token × Array Token
  | [], output => ([], output)
  | top :: rest, output =>
    match top.kind.operator? with
    | some op =>
      if incoming.pops op then yieldTo incoming rest (output.push top) else (top :: rest, output)
    | none => (top :: rest, output)

/-- Moves waiting operators to the output down to the innermost opening parenthesis, and drops that;
nothing if there is none. -/
def closeGroup? : List Token → Array Token → Option (List Token × Array Token)
  | [], _ => none
  | top :: rest, output =>
    if top.kind = .openParen then some (rest, output) else closeGroup? rest (output.push top)

/-- Takes in one token. -/
def step (limits : Limits) (source : Option String) (config : Conversion) (token : Token) :
    Except Failure Conversion :=
  match token.kind with
  | .literal => .ok { config with output := config.output.push token }
  | .openParen =>
    let depth := config.depth + 1
    match limits.check .nestingDepth depth with
    | .error failure => .error failure
    | .ok () => .ok { config with stack := token :: config.stack, depth := depth }
  | .closeParen =>
    match closeGroup? config.stack config.output with
    | some (stack, output) => .ok ⟨stack, output, config.depth - 1⟩
    | none => .error (.atPosition .unmatchedClose token.position source)
  | .operator op =>
    let (stack, output) := yieldTo op config.stack config.output
    .ok { config with stack := token :: stack, output := output }

/-- Takes in a list of tokens. -/
def run (limits : Limits) (source : Option String) :
    Conversion → List Token → Except Failure Conversion
  | config, [] => .ok config
  | config, token :: rest =>
    match config.step limits source token with
    | .error failure => .error failure
    | .ok config => config.run limits source rest

/-- Moves all that still waits to the output; an opening parenthesis among it was never closed. -/
def drain (source : Option String) : List Token → Array Token → Except Failure (Array Token)
  | [], output => .ok output
  | top :: rest, output =>
    if top.kind = .openParen then .error (.atPosition .unmatchedOpen top.position source)
    else drain source rest (output.push top)

@[simp] theorem run_nil (limits : Limits) (source : Option String) (config : Conversion) :
    config.run limits source [] = .ok config := rfl

/-- Taking in a concatenation is taking in its parts in turn. -/
theorem run_append (limits : Limits) (source : Option String) (config : Conversion)
    (s t : List Token) :
    config.run limits source (s ++ t) =
      match config.run limits source s with
      | .error failure => .error failure
      | .ok config => config.run limits source t := by
  induction s generalizing config with
  | nil => rfl
  | cons token s ih =>
    simp only [List.cons_append, run]
    cases config.step limits source token with
    | error failure => rfl
    | ok config => exact ih config

end Conversion

/-- The tokens of an infix expression in postfix order, without parentheses. -/
def ofInfix (limits : Limits) (source : Option String) (tokens : List Token) :
    Except Failure (List Token) :=
  match Conversion.initial.run limits source tokens with
  | .error failure => .error failure
  | .ok config =>
    match Conversion.drain source config.stack config.output with
    | .error failure => .error failure
    | .ok output => .ok output.toList

/-- The texts of tokens, separated by single spaces. -/
def text (tokens : List Token) : String :=
  String.intercalate " " (tokens.map Token.text)

end Rpn

end InfixCalculator
