/-!
The problems a user can be told about, each with its wording. A problem says what is
wrong with a source text; where it is wrong is the business of a diagnostic.
-/
namespace BlockScript

inductive Role
  | attr
  | function
  deriving DecidableEq, Repr

def Role.name : Role → String
  | attr => "attribute"
  | function => "function"

def Role.title : Role → String
  | attr => "Attribute"
  | function => "Function"

inductive Member
  | field
  | method
  | function
  deriving DecidableEq, Repr

def Member.name : Member → String
  | field => "field"
  | method => "method"
  | function => "function"

inductive Problem
  | stringNotClosed
  | invalidCharacter
  | expectedDeclaration
  | expectedDeclarationValue
  | invalidDeclarationValue
  | misplacedKeyword
  | invalidVariableType
  | expectedVariableType
  | unexpectedExpression
  | invalidAttributeName
  | unfinishedArgument
  | expectedSemicolon
  | unexpectedBrace
  | expectedExpression
  | missingFunctionParentheses
  | expectedParenthesis
  | expectedStatement
  | unexpectedSemicolon
  | invalidDeclarationType
  | unexpectedDeclaration
  | unexpectedVariable
  | spriteOnlyDeclaration
  | redefinedDeclaration
  | rejectedDeclarationValue
  | variableNotFound
  | redeclaredVariable
  | redeclaredGlobal
  | undeclaredAssignment
  | constantAssignment
  | literalIndex
  | notFound (role : Role)
  | spriteOnly (role : Role)
  /-- The type of a variable, by its title, has no member of this name. -/
  | memberNotFound (type : String) (member : Member)
  | hatNotFound
  | noReturnType
  | argumentCount (optional required given : Int)
  | computedLocal
  /-- A message about the types of operands, with their names filled in. -/
  | mismatch (text : String)
  | notConvertible (type target : String)
  | generalToBoolean
  deriving DecidableEq, Repr

namespace Problem

def intText (n : Int) : String :=
  let digits := String.ofList (Nat.toDigits 10 n.natAbs)
  if n < 0 then "-" ++ digits else digits

def plural (n : Int) : String := if n = 1 then "" else "s"

def argumentText (optional required given : Int) : String :=
  let total := required + optional
  let expected :=
    if optional = 0 then intText required
    else intText required ++ " to " ++ intText total
  "Expected " ++ expected ++ " argument" ++ plural total ++ ", got " ++ intText given

def message : Problem → String
  | stringNotClosed => "String not closed"
  | invalidCharacter => "Invalid character"
  | expectedDeclaration => "Expected declaration"
  | expectedDeclarationValue => "Expected declaration value"
  | invalidDeclarationValue => "Invalid declaration value"
  | misplacedKeyword => "Can't use that keyword here"
  | invalidVariableType => "Invalid variable type"
  | expectedVariableType => "Expected variable type"
  | unexpectedExpression => "Unexpected expression"
  | invalidAttributeName => "Invalid attribute name"
  | unfinishedArgument => "Unfinished argument"
  | expectedSemicolon => "Expected semicolon"
  | unexpectedBrace => "Unexpected brace"
  | expectedExpression => "Expected expression"
  | missingFunctionParentheses => "Missing function parentheses"
  | expectedParenthesis => "Expected parenthesis"
  | expectedStatement => "Expected statement"
  | unexpectedSemicolon => "Unexpected semicolon"
  | invalidDeclarationType => "Invalid declaration type"
  | unexpectedDeclaration => "Unexpected declaration"
  | unexpectedVariable => "Unexpected variable"
  | spriteOnlyDeclaration => "This declaration can only be used in a sprite"
  | redefinedDeclaration => "Redefined declaration"
  | rejectedDeclarationValue => "Invalid declaration value asdasdasd"
  | variableNotFound => "Variable not found"
  | redeclaredVariable => "Cannot redeclare a variable"
  | redeclaredGlobal => "Cannot redeclare globals"
  | undeclaredAssignment => "Cannot assign to undeclared variable"
  | constantAssignment => "Cannot assign to constant"
  | literalIndex => "Literal indices must be positive integers"
  | notFound role => role.title ++ " not found"
  | spriteOnly role => "This " ++ role.name ++ " can only be used in a sprite"
  | memberNotFound type member => type ++ " " ++ member.name ++ " not found"
  | hatNotFound => "Hat not found"
  | noReturnType => "This function has no return type"
  | argumentCount optional required given => argumentText optional required given
  | computedLocal => "Top-level assignment values must be literals"
  | mismatch text => text
  | notConvertible type target => "Cannot convert a " ++ type ++ " to a " ++ target
  | generalToBoolean => "Cannot convert a general variable to a boolean"

end Problem

end BlockScript
