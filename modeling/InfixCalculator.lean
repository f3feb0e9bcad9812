import InfixCalculator.Main
import InfixCalculator.Number.Lemmas
import InfixCalculator.Proofs.Number.Grammar
import InfixCalculator.Proofs.Conversion.Postorder
import InfixCalculator.Proofs.Conversion.Parentheses
import InfixCalculator.Proofs.Conversion.Arrangement
import InfixCalculator.Proofs.Conversion.Operand
import InfixCalculator.Proofs.Conversion.Invariant
import InfixCalculator.Proofs.Evaluation.Agreement
import InfixCalculator.Proofs.Evaluation.Exact
import InfixCalculator.Proofs.Evaluation.Integers
import InfixCalculator.Proofs.Evaluation.Raising
import InfixCalculator.Proofs.Tree.Outline
import InfixCalculator.Proofs.Tree.Dimensions
import InfixCalculator.Proofs.Token.Faithful
import InfixCalculator.Proofs.Token.Refusal
import InfixCalculator.Proofs.Computation.Acceptance
import InfixCalculator.Proofs.Computation.InlineText
import InfixCalculator.Proofs.Computation.PostfixText
import InfixCalculator.Proofs.Computation.Separators
import InfixCalculator.Proofs.Computation.Shown
import InfixCalculator.Proofs.Computation.Substitution
import InfixCalculator.Proofs.Computation.Widening
import InfixCalculator.Proofs.Computation.Caret
import InfixCalculator.Proofs.CommandLine.Trace
import InfixCalculator.Proofs.CommandLine.Input
import InfixCalculator.Proofs.Session.History
import InfixCalculator.Proofs.Settings.Layers
import InfixCalculator.Proofs.Settings.Files
