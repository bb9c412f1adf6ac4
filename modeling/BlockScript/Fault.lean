/-!
The ways in which a step can break off without a diagnostic for the user. A fault
says what was asked for and could not be given; it carries no text.
-/
namespace BlockScript

inductive Fault
  /-- An operation met a value of a kind it has no meaning for. -/
  | typeMismatch
  /-- A record or a table has no entry under the name asked for. -/
  | missingField
  | outOfRange
  | noSuchProperty
  /-- A value is of the right kind but has no acceptable content. -/
  | badValue
  /-- A result was used before any case had produced it. -/
  | unboundResult
  /-- The text of a literal is not the text of any value. -/
  | badLiteral
  | divisionByZero
  | overflow
  | noSuchFile
  | isDirectory
  | notDirectory
  | tooDeep
  deriving DecidableEq, Repr

end BlockScript
