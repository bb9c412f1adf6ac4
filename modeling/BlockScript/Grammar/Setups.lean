import BlockScript.Grammar.Scripts
import BlockScript.Text.FileName

/-!
The grammar of setups: the name of a project and its global variables.
-/
namespace BlockScript.Grammar

namespace Setups

/-- The operators of setups, loosest first. Negation and membership have no level, so
they take in all that follows. -/
def precedenceRows : List (Side × List Terminal) :=
  [(.left, [.or]), (.left, [.and]), (.left, [.equalTo, .notEqualTo]),
    (.left, [.lessThan, .greaterThan, .lessThanEqual, .greaterThanEqual]),
    (.left, [.plus, .minus]), (.left, [.times, .dividedBy, .modulo]), (.left, [.exponent])]

def minusRank : Precedence := ⟨8, .right⟩

def program : List Fragment → Built
  | [.file f, .globals gs] => .ok (.setup ⟨f, gs⟩)
  | [.file f] => .ok (.setup ⟨f, []⟩)
  | [.globals gs] => .ok (.setup ⟨.unnamed, gs⟩)
  | [] => .ok (.setup ⟨.absent, []⟩)
  | _ => unfit

/-- A project without a file name is named after its title. -/
def fileDeclaration : List Fragment → Built
  | [.token _ _, .token (.string title) _, .token _ _] => do
    return .file (.named title ((← Text.fileName title) ++ ".sb3"))
  | [.token _ _, .token (.string title) _, .token _ _, .token (.string filename) _,
      .token _ _] =>
    .ok (.file (.named title filename))
  | _ => unfit

def globals : List Fragment → Built
  | [.globals g, .globals gs] => .ok (.globals (g ++ gs))
  | [.globals g] => .ok (.globals g)
  | _ => unfit

def place : List Fragment → Built
  | [.token (.text n) p] => .ok (.expr (.name (.start p) n))
  | _ => unfit

def setVariable : List Fragment → Built
  | [.token (.text n) p, .type t, .token _ _, .expr v, .token _ _] =>
    .ok (.globals [⟨.start p, n, t, v⟩])
  | _ => unfit

def rules : List (Rule Fragment) :=
  [rule .program [.cat .fileDeclaration, .cat .variableDeclarations] program,
    rule .program [.cat .fileDeclaration] program,
    rule .program [.cat .variableDeclarations] program,
    rule .program [] program,
    rule .fileDeclaration [.tok .project, .tok .string, .tok .semicolon] fileDeclaration,
    rule .fileDeclaration
      [.tok .project, .tok .string, .tok .filename, .tok .string, .tok .semicolon]
      fileDeclaration,
    rule .variableDeclarations [.cat .setVariable, .cat .variableDeclarations] globals,
    rule .variableDeclarations [.cat .setVariable] globals,
    rule .place [.tok .word] place,
    rule .setVariable
      [.tok .word, .cat .typeDeclaration, .tok .equals, .cat .expression, .tok .semicolon]
      setVariable,
    rule .setVariable
      [.tok .word, .cat .typeDeclaration, .tok .equals, .cat .list, .tok .semicolon]
      setVariable]

end Setups

def setups : Grammar Fragment :=
  { start := .program
    rows := Setups.precedenceRows
    rules := Setups.rules ++ expressionRules Setups.minusRank }

def setupMachine : Machine Fragment := .ofGrammar setups Fragment.ofToken

/-- What is wrong with a setup, if that can be told. Nothing can be said about its
first token. Numbers are scanned as integers and decimals, so no state expects a token of
the kind "number", and a missing expression is no problem of its own. -/
def Rejection.setupProblem? (r : Rejection) : Except Fault (Option Problem) :=
  let found (p : Terminal → Bool) : Bool := (r.foundKind?.map p).getD false
  if r.symbols.isEmpty then .error .outOfRange
  else .ok <|
    if r.endsWith Terminal.isDeclarator then some .invalidDeclarationType
    else if found Terminal.isDeclarator then some .unexpectedDeclaration
    else if r.expects .semicolon then some .expectedSemicolon
    else if r.has .word then some .unexpectedVariable
    else none

end BlockScript.Grammar
