/-!
# Faults of a document

Most documents that cannot be read break the rules of the format. A few obey them but hold a scalar
that does not denote a value of its type; each way in which a scalar can fail to do so is a fault of
its own.
-/

namespace InfixCalculator.Yaml

/-- Why a document cannot be read. -/
inductive Fault where
  /-- The text breaks the rules of the format, or a node does not fit its type. -/
  | malformed
  /-- A number, a date or a character code denotes nothing, or a number has too many digits. -/
  | noSuchValue
  /-- A number without any character apart from its sign. -/
  | emptyNumber
  /-- A truth value that is none of the words for one. -/
  | notAWord
  /-- A time that does not have the form of one. -/
  | notATime
  /-- A time that is given by an entry of a mapping. -/
  | nestedTime
  /-- A character code or the value of a place beyond the range of the machine. -/
  | outOfRange
  /-- Nodes that are nested too deeply. A scalar that is given by itself is nested without end. -/
  | tooDeep
  deriving DecidableEq, Repr

end InfixCalculator.Yaml
