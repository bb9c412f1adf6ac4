import BlockScript.Fault
import BlockScript.Terminal

/-!
Grammars as data. A rule expands a category to a list of symbols and says how the
values of those symbols make up the value of the category. Precedence settles what
the rules leave open: each terminal has a level and a side, and a rule has those of
its last terminal unless it is given its own.
-/
namespace BlockScript

inductive Category
  | program | declarations | declaration | topStatements | topStatement | simpleStatement
  | statement | statements | declareVariable | setVariable | update | functionCall | number
  | boolean | list | parameterNames | place | index | expressions | expression | typeName
  | typeDeclaration | concatenation | arithmetic | comparison | logic | body | ifStatement
  | ifElse | forStatement | whileStatement | returnStatement | arguments | parameters
  | functionDeclaration | hat | fileDeclaration | variableDeclarations
  deriving DecidableEq, Repr

def Category.name : Category → String
  | program => "program"
  | declarations => "meta_declaration_list"
  | declaration => "meta_declaration"
  | topStatements => "top_level_statement_list"
  | topStatement => "top_level_statement"
  | simpleStatement => "fundamental_statement"
  | statement => "statement"
  | statements => "statement_list"
  | declareVariable => "declare_variable"
  | setVariable => "set_variable"
  | update => "in_place_assignment"
  | functionCall => "function_call"
  | number => "number"
  | boolean => "boolean"
  | list => "list"
  | parameterNames => "variable_list"
  | place => "variable"
  | index => "index"
  | expressions => "expression_list"
  | expression => "expression"
  | typeName => "type"
  | typeDeclaration => "type_declaration"
  | concatenation => "concatenation"
  | arithmetic => "numerical_operation"
  | comparison => "comparison_operation"
  | logic => "logical_operation"
  | body => "container_body"
  | ifStatement => "if"
  | ifElse => "if_else"
  | forStatement => "for"
  | whileStatement => "while"
  | returnStatement => "return"
  | arguments => "function_arguments"
  | parameters => "function_parameters"
  | functionDeclaration => "function_dec"
  | hat => "hat"
  | fileDeclaration => "file_declaration"
  | variableDeclarations => "variable_declarations"

inductive Symbol
  | tok (t : Terminal)
  | cat (c : Category)
  deriving DecidableEq, Repr

namespace Symbol

def name : Symbol → String
  | tok t => t.name
  | cat c => c.name

def endCode : Nat := Terminal.all.length

/-- Terminals come first, then the end of the input, then categories. -/
def code : Symbol → Nat
  | tok t => t.ctorIdx
  | cat c => endCode + 1 + c.ctorIdx

def terminal? : Symbol → Option Terminal
  | tok t => some t
  | cat _ => none

end Symbol

namespace Grammar

inductive Side
  | left
  | right
  deriving DecidableEq, Repr

structure Precedence where
  level : Nat
  side : Side
  deriving DecidableEq, Repr

/-- A symbol that no row of a table mentions. -/
def Precedence.unranked : Precedence := ⟨0, .right⟩

structure Rule (α : Type) where
  head : Category
  body : List Symbol
  /-- The precedence of the rule where it is not that of its last terminal. -/
  rank : Option Precedence
  action : List α → Except Fault α

end Grammar

structure Grammar (α : Type) where
  start : Category
  rows : List (Grammar.Side × List Terminal)
  rules : List (Grammar.Rule α)

namespace Grammar

variable {α : Type}

def precedenceFrom (level : Nat) (t : Terminal) : List (Side × List Terminal) → Precedence
  | [] => .unranked
  | (side, ts) :: rows => if t ∈ ts then ⟨level, side⟩ else precedenceFrom (level + 1) t rows

def precedence (g : Grammar α) (t : Terminal) : Precedence := precedenceFrom 1 t g.rows

def Rule.lastTerminal? (r : Rule α) : Option Terminal :=
  (r.body.filterMap Symbol.terminal?).getLast?

def rulePrecedence (g : Grammar α) (r : Rule α) : Precedence :=
  r.rank.getD ((r.lastTerminal?.map g.precedence).getD .unranked)

end Grammar

end BlockScript
