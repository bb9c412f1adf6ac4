import BlockScript.Grammar.Fragment

/-!
The grammar of scripts: declarations, then variables, functions and hats with bodies
of statements. Where a text breaks off the grammar, the symbols read and the tokens
that could have come decide what the user is told.
-/
namespace BlockScript.Grammar

namespace Scripts

/-- The operators of scripts, loosest first. A sign binds tighter than any of them. -/
def precedenceRows : List (Side × List Terminal) :=
  [(.left, [.or]), (.left, [.and]), (.right, [.not]), (.left, [.isIn]),
    (.left, [.equalTo, .notEqualTo]),
    (.left, [.lessThan, .greaterThan, .lessThanEqual, .greaterThanEqual]),
    (.left, [.plus, .minus]), (.left, [.times, .dividedBy, .modulo]), (.left, [.exponent])]

def minusRank : Precedence := ⟨10, .right⟩

def program : List Fragment → Built
  | [.declarations ds, .stmts ss] => .ok (.script ⟨ds, ss⟩)
  | [.declarations ds] => .ok (.script ⟨ds, []⟩)
  | [.stmts ss] => .ok (.script ⟨[], ss⟩)
  | [] => .ok (.script ⟨[], []⟩)
  | _ => unfit

def declarations : List Fragment → Built
  | [.declaration d, .declarations ds] => .ok (.declarations (d :: ds))
  | [.declaration d] => .ok (.declarations [d])
  | _ => unfit

def declared (property : Literal) (p : Nat) (value : Expr) : Built :=
  match property with
  | .text name => .ok (.declaration ⟨.start p, some name, some value.toRecord⟩)
  | _ => unfit

def declaration : List Fragment → Built
  | [.token property p, .expr e] => declared property p e
  | [.token property p, .token v _] => declared property p (literalExpr v)
  | _ => unfit

/-- Costumes and sounds are lists of paths, and a single path is a list of one. -/
def paths : List Fragment → Built
  | [.token property p, .expr e] => declared property p e
  | [.token property p, .token v _] => declared property p (.list [literalExpr v])
  | _ => unfit

def statements : List Fragment → Built
  | [.stmt s, .stmts ss] => .ok (.stmts (s :: ss))
  | [.stmt s] => .ok (.stmts [s])
  | _ => unfit

/-- A statement closed by a semicolon, or one that needs none. -/
def statement : List Fragment → Built
  | [.stmt s, .token _ _] => .ok (.stmt s)
  | [.stmt s] => .ok (.stmt s)
  | _ => unfit

def callStatement : List Fragment → Built
  | [.expr (.call p f arguments)] => .ok (.stmt (.call p f arguments))
  | _ => unfit

def declare (p : Position) (target : Expr) (t : TypeSet) (value : Option Expr) (constant : Bool) :
    Built :=
  .ok (.stmt (.declare p target t value constant))

def declareVariable : List Fragment → Built
  | [.expr target, .type t, .token _ _, .expr v] => do
    declare (← target.position) target t (some v) false
  | [.expr target, .type t] => do declare (← target.position) target t none false
  | [.token _ p, .expr target, .type t, .token _ _, .expr v] =>
    declare (.start p) target t (some v) true
  | [.token _ p, .expr target, .type t] => declare (.start p) target t none true
  | _ => unfit

def setVariable : List Fragment → Built
  | [.expr target, .token _ _, .expr v] => do
    return .stmt (.assign (← target.position) target v)
  | _ => unfit

def update (op : UpdateOp) : List Fragment → Built
  | [.expr target, .token _ _, .expr v] => do
    return .stmt (.update (← target.position) op target v)
  | _ => unfit

def functionCall : List Fragment → Built
  | [.expr f, .exprs arguments] => do
    return .expr (.call (← f.position) f arguments)
  | _ => unfit

def parameterNames : List Fragment → Built
  | [.token (.text n) _] => .ok (.names [n])
  | [.token (.text n) _, .token _ _, .names ns] => .ok (.names (n :: ns))
  | _ => unfit

/-- A name, or an attribute of the stage, of the sprite itself or of what a name
stands for. -/
def place : List Fragment → Built
  | [.token (.text n) p] => .ok (.expr (.name (.start p) n))
  | [.expr e] => .ok (.expr e)
  | [.token (.text object) p, .token _ _, .token (.text n) _] =>
    .ok (.expr (.attr (.start p) (.str object) n))
  | [.expr object, .token _ _, .token (.text n) _] => do
    return .expr (.attr (← object.position) object n)
  | _ => unfit

def index : List Fragment → Built
  | [.expr target, .token _ _, .expr i, .token _ _] => do
    return .expr (.index (← target.position) target i)
  | _ => unfit

def body : List Fragment → Built
  | [.stmt s] => .ok (.stmts [s])
  | [.token _ _, .token _ _] => .ok (.stmts [])
  | [.token _ _, .stmts ss, .token _ _] => .ok (.stmts ss)
  | _ => unfit

def ifThen : List Fragment → Built
  | [.token _ p, .token _ _, .expr c, .token _ _, .stmts ss] =>
    .ok (.stmt (.ifThen (.start p) c ss))
  | _ => unfit

def ifElse : List Fragment → Built
  | [.stmt (.ifThen p c ss), .token _ _, .stmts other] => .ok (.stmt (.ifElse p c ss other))
  | _ => unfit

def whileLoop : List Fragment → Built
  | [.token _ p, .token _ _, .expr c, .token _ _, .stmts ss] =>
    .ok (.stmt (.whileLoop (.start p) c ss))
  | _ => unfit

def forLoop : List Fragment → Built
  | [.token _ p, .token _ _, .stmt first, .token _ _, .expr c, .token _ _, .stmt next,
      .token _ _, .stmts ss] =>
    .ok (.stmt (.forLoop (.start p) first c next ss))
  | _ => unfit

def giveBack : List Fragment → Built
  | [.token _ p, .token _ _] => .ok (.stmt (.giveBack (.start p) none))
  | [.token _ p, .expr e, .token _ _] => .ok (.stmt (.giveBack (.start p) (some e)))
  | _ => unfit

def arguments : List Fragment → Built
  | [.token _ _, .token _ _] => .ok (.exprs [])
  | [.token _ _, .exprs es, .token _ _] => .ok (.exprs es)
  | _ => unfit

def parameters : List Fragment → Built
  | [.token _ _, .token _ _] => .ok (.names [])
  | [.token _ _, .names ns, .token _ _] => .ok (.names ns)
  | _ => unfit

/-- A function that starts with its type is placed at the start of the text. One that
runs at once and has no type keeps the names of its parameters for a body. -/
def functionDeclaration : List Fragment → Built
  | [.token _ p, .token (.text n) _, .names ns, .stmts ss] =>
    .ok (.stmt (.function (.start p) none n ns false ss))
  | [.type t, .token _ _, .token (.text n) _, .names ns, .stmts ss] =>
    .ok (.stmt (.function (.start 0) (some t) n ns false ss))
  | [.token _ p, .token _ _, .token (.text n) _, .names ns, .stmts _] =>
    .ok (.stmt (.function (.start p) none n ns true (ns.map .bare)))
  | [.token _ p, .type t, .token _ _, .token (.text n) _, .names ns, .stmts ss] =>
    .ok (.stmt (.function (.start p) (some t) n ns true ss))
  | _ => unfit

def hat : List Fragment → Built
  | [.expr event, .exprs arguments, .stmts ss] => do
    return .stmt (.hat (← event.position) event arguments ss)
  | _ => unfit

def declarationRules : List (Rule Fragment) :=
  let string : Symbol := .tok .string
  let list : Symbol := .cat .list
  let number : Symbol := .cat .number
  let boolean : Symbol := .cat .boolean
  [rule .program [.cat .declarations, .cat .topStatements] program,
    rule .program [.cat .declarations] program,
    rule .program [.cat .topStatements] program,
    rule .program [] program,
    rule .declarations [.cat .declaration, .cat .declarations] declarations,
    rule .declarations [.cat .declaration] declarations,
    rule .declaration [.tok .spriteName, string] declaration,
    rule .declaration [.tok .costume, string] paths,
    rule .declaration [.tok .costume, list] paths,
    rule .declaration [.tok .sound, string] paths,
    rule .declaration [.tok .sound, list] paths,
    rule .declaration [.tok .visibility, boolean] declaration,
    rule .declaration [.tok .xPosition, number] declaration,
    rule .declaration [.tok .yPosition, number] declaration,
    rule .declaration [.tok .size, number] declaration,
    rule .declaration [.tok .direction, number] declaration,
    rule .declaration [.tok .draggable, boolean] declaration,
    rule .declaration [.tok .rotationStyle, string] declaration,
    rule .declaration [.tok .layer, number] declaration]

def statementRules : List (Rule Fragment) :=
  let e : Symbol := .cat .expression
  let place : Symbol := .cat .place
  let semicolon : Symbol := .tok .semicolon
  [rule .topStatements [.cat .topStatement] statements,
    rule .topStatements [.cat .topStatement, .cat .topStatements] statements,
    rule .topStatement [.cat .declareVariable, semicolon] statement,
    rule .topStatement [.cat .setVariable, semicolon] statement,
    rule .topStatement [.cat .hat] statement,
    rule .topStatement [.cat .functionDeclaration] statement,
    rule .simpleStatement [.cat .declareVariable] statement,
    rule .simpleStatement [.cat .setVariable] statement,
    rule .simpleStatement [.cat .update] statement,
    rule .simpleStatement [.cat .functionCall] callStatement,
    rule .statement [.cat .simpleStatement, semicolon] statement,
    rule .statement [.cat .ifStatement] statement,
    rule .statement [.cat .ifElse] statement,
    rule .statement [.cat .forStatement] statement,
    rule .statement [.cat .whileStatement] statement,
    rule .statement [.cat .returnStatement] statement,
    rule .statements [.cat .statement] statements,
    rule .statements [.cat .statement, .cat .statements] statements,
    rule .declareVariable [place, .cat .typeDeclaration, .tok .equals, e] declareVariable,
    rule .declareVariable [place, .cat .typeDeclaration, .tok .equals, .cat .list]
      declareVariable,
    rule .declareVariable [place, .cat .typeDeclaration] declareVariable,
    rule .declareVariable [.tok .const, place, .cat .typeDeclaration, .tok .equals, e]
      declareVariable,
    rule .declareVariable [.tok .const, place, .cat .typeDeclaration, .tok .equals, .cat .list]
      declareVariable,
    rule .declareVariable [.tok .const, place, .cat .typeDeclaration] declareVariable,
    rule .setVariable [place, .tok .equals, e] setVariable,
    rule .setVariable [place, .tok .equals, .cat .list] setVariable,
    rule .update [place, .tok .plusAssign, e] (update (.arith .add)),
    rule .update [place, .tok .minusAssign, e] (update (.arith .sub)),
    rule .update [place, .tok .timesAssign, e] (update (.arith .mul)),
    rule .update [place, .tok .dividedByAssign, e] (update (.arith .div)),
    rule .update [place, .tok .moduloAssign, e] (update (.arith .mod)),
    rule .update [place, .tok .exponentAssign, e] (update (.arith .pow)),
    rule .update [place, .tok .concatAssign, e] (update .concat),
    rule .functionCall [place, .cat .arguments] functionCall]

def placeRules : List (Rule Fragment) :=
  let word : Symbol := .tok .word
  let dot : Symbol := .tok .dot
  [rule .parameterNames [word] parameterNames,
    rule .parameterNames [word, .tok .comma, .cat .parameterNames] parameterNames,
    rule .place [.tok .scratch, dot, word] place,
    rule .place [.tok .this, dot, word] place,
    rule .place [.cat .place, dot, word] place,
    rule .place [word] place,
    rule .place [.cat .index] place,
    rule .index [.cat .place, .tok .lbracket, .cat .expression, .tok .rbracket] index,
    rule .expression [.cat .functionCall] pass]

def controlRules : List (Rule Fragment) :=
  let e : Symbol := .cat .expression
  let inner : Symbol := .cat .body
  let lparen : Symbol := .tok .lparen
  let rparen : Symbol := .tok .rparen
  let semicolon : Symbol := .tok .semicolon
  let word : Symbol := .tok .word
  let formals : Symbol := .cat .parameters
  [rule .body [.cat .statement] body,
    rule .body [.tok .lbrace, .tok .rbrace] body,
    rule .body [.tok .lbrace, .cat .statements, .tok .rbrace] body,
    rule .ifStatement [.tok .ifWord, lparen, e, rparen, inner] ifThen,
    rule .ifElse [.cat .ifStatement, .tok .elseWord, inner] ifElse,
    rule .forStatement [.tok .forWord, lparen, .cat .setVariable, semicolon, e, semicolon,
      .cat .simpleStatement, rparen, inner] forLoop,
    rule .whileStatement [.tok .whileWord, lparen, e, rparen, inner] whileLoop,
    rule .returnStatement [.tok .returnWord, semicolon] giveBack,
    rule .returnStatement [.tok .returnWord, e, semicolon] giveBack,
    rule .arguments [lparen, rparen] arguments,
    rule .arguments [lparen, .cat .expressions, rparen] arguments,
    rule .parameters [lparen, rparen] parameters,
    rule .parameters [lparen, .cat .parameterNames, rparen] parameters,
    rule .functionDeclaration [.tok .function, word, formals, inner] functionDeclaration,
    rule .functionDeclaration [.cat .typeName, .tok .function, word, formals, inner]
      functionDeclaration,
    rule .functionDeclaration [.tok .warp, .tok .function, word, formals, inner]
      functionDeclaration,
    rule .functionDeclaration [.tok .warp, .cat .typeName, .tok .function, word, formals,
      inner] functionDeclaration,
    rule .hat [.cat .place, .cat .arguments, inner] hat]

end Scripts

def scripts : Grammar Fragment :=
  { start := .program
    rows := Scripts.precedenceRows
    rules := Scripts.declarationRules ++ Scripts.statementRules ++ Scripts.placeRules ++
      expressionRules Scripts.minusRank ++ Scripts.controlRules }

def scriptMachine : Machine Fragment := .ofGrammar scripts Fragment.ofToken

namespace Rejection

def expects (r : Rejection) (t : Terminal) : Bool := r.expected.contains (Symbol.tok t).code

def foundKind? (r : Rejection) : Option Terminal := r.found.map (·.kind)

def has (r : Rejection) (t : Terminal) : Bool := r.symbols.contains (.tok t)

def last? (r : Rejection) : Option Symbol := r.symbols.getLast?

def endsWith (r : Rejection) (p : Terminal → Bool) : Bool :=
  match r.last? with
  | some (.tok t) => p t
  | _ => false

def scriptProblem? (r : Rejection) : Option Problem :=
  let found (p : Terminal → Bool) : Bool := (r.foundKind?.map p).getD false
  if r.symbols.isEmpty then some .expectedDeclaration
  else if found Terminal.isDeclarator then some .expectedDeclarationValue
  else if r.endsWith Terminal.isDeclarator then some .invalidDeclarationValue
  else if found (Terminal.isKeyword .script) then some .misplacedKeyword
  else if r.expects .numType then
    some (if found (· == .word) then .invalidVariableType else .expectedVariableType)
  else if r.last? == some (.cat .expression) then some .unexpectedExpression
  else if r.endsWith (· == .dot) then some .invalidAttributeName
  else if found (· == .rparen) then some .unfinishedArgument
  else if r.expects .semicolon then some .expectedSemicolon
  else if found fun t => t == .lbrace || t == .rbrace then some .unexpectedBrace
  else if found (· == .semicolon) && (r.expects .equals || r.expects .string) then
    some .expectedExpression
  else if r.has .function && r.has .word && r.expects .lparen then
    some .missingFunctionParentheses
  else if r.expects .lparen then some .expectedParenthesis
  else if r.expects .ifWord then some .expectedStatement
  else if found (· == .semicolon) then some .unexpectedSemicolon
  else none

/-- Where a problem with a script is: at the token found, at the end of the text, or
at its start if nothing was read. -/
def scriptPosition (r : Rejection) : Option Int :=
  if r.symbols.isEmpty then some 0 else r.found.map fun t => (t.position : Int)

end Rejection

end BlockScript.Grammar
