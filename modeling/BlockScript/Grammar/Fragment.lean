import BlockScript.Grammar.Run
import BlockScript.Record.Printer

/-!
The values of grammar symbols while a text is parsed, and the rules for expressions
that both source languages have.
-/
namespace BlockScript.Grammar

inductive Fragment
  | token (value : Literal) (position : Nat)
  | expr (e : Expr)
  | exprs (es : List Expr)
  | names (ns : List String)
  | type (t : TypeSet)
  | stmt (s : Stmt)
  | stmts (ss : List Stmt)
  | declaration (d : Declaration)
  | declarations (ds : List Declaration)
  | script (s : Script)
  | file (f : FileDeclaration)
  | globals (gs : List Global)
  | setup (s : Setup)

namespace Fragment

def ofToken (t : Token) : Fragment := token t.value t.position

end Fragment

/-- The value of a rule. A rule is only applied to values of its own symbols. -/
abbrev Built := Except Fault Fragment

def unfit : Built := .error .typeMismatch

def pass : List Fragment → Built
  | [f] => .ok f
  | _ => unfit

def literalExpr : Literal → Expr
  | .text s | .string s => .str s
  | .int n => .int n
  | .float x => .value (.float x)

def literal : List Fragment → Built
  | [.token v _] => .ok (.expr (literalExpr v))
  | _ => unfit

def truth (b : Bool) : List Fragment → Built := fun _ => .ok (.expr (.truth b))

def typeNamed (t : TypeSet) : List Fragment → Built := fun _ => .ok (.type t)

/-- An operation starts where its first operand does, or at its operator if that
operand is a literal. -/
def startOf (first : Expr) (operator : Nat) : Position :=
  match first.position with
  | .ok p => p
  | .error _ => .start operator

def concatenation : List Fragment → Built
  | [.expr a, .token _ p, .expr b] => .ok (.expr (.concat (startOf a p) [a, b]))
  | _ => unfit

def arithmetic (op : ArithOp) : List Fragment → Built
  | [.expr a, .token _ p, .expr b] => .ok (.expr (.arith (startOf a p) op [a, b]))
  | _ => unfit

/-- A negation has no position of its own and is placed at the start of its text. -/
def negation : List Fragment → Built
  | [.token _ _, .expr a] => .ok (.expr (.arith (.start 0) .neg [a]))
  | _ => unfit

/-- A comparison starts where its first operand does, which must have a position. -/
def comparison (op : CompareOp) : List Fragment → Built
  | [.expr a, .token _ _, .expr b] => do
    return .expr (.compare (← a.position) op [a, b])
  | _ => unfit

def logic (op : LogicOp) : List Fragment → Built
  | [.expr a, .token _ p, .expr b] => .ok (.expr (.logic (startOf a p) op [a, b]))
  | _ => unfit

def logicalNot : List Fragment → Built
  | [.token _ p, .expr a] => .ok (.expr (.logic (.start p) .not [a]))
  | _ => unfit

def parenthesised : List Fragment → Built
  | [.token _ _, f, .token _ _] => .ok f
  | _ => unfit

def oneExpr : List Fragment → Built
  | [.expr e] => .ok (.exprs [e])
  | _ => unfit

def moreExprs : List Fragment → Built
  | [.expr e, .token _ _, .exprs es] => .ok (.exprs (e :: es))
  | _ => unfit

def bracketed : List Fragment → Built
  | [.token _ _, .exprs es, .token _ _] => .ok (.expr (.list es))
  | [.token _ _, .token _ _] => .ok (.expr (.list []))
  | _ => unfit

def typeDeclaration : List Fragment → Built
  | [.token _ _, .type t] => .ok (.type t)
  | [.token _ _, .token _ _] => .ok (.type .ofList)
  | _ => unfit

def rule (head : Category) (body : List Symbol) (action : List Fragment → Built) : Rule Fragment :=
  ⟨head, body, none, action⟩

/-- The rules that expressions have in both languages; `minusRank` is the precedence of
a sign. -/
def expressionRules (minusRank : Precedence) : List (Rule Fragment) :=
  let e : Symbol := .cat .expression
  let between (head : Category) (t : Terminal) (action : List Fragment → Built) :=
    rule head [e, .tok t, e] action
  [rule .number [.tok .decimal] literal,
    rule .number [.tok .integer] literal,
    rule .boolean [.tok .trueWord] (truth true),
    rule .boolean [.tok .falseWord] (truth false),
    rule .list [.tok .lbracket, .cat .expressions, .tok .rbracket] bracketed,
    rule .list [.tok .lbracket, .tok .rbracket] bracketed,
    rule .expressions [e] oneExpr,
    rule .expressions [e, .tok .comma, .cat .expressions] moreExprs,
    rule .typeName [.tok .numType] (typeNamed .ofNumber),
    rule .typeName [.tok .strType] (typeNamed .ofString),
    rule .typeName [.tok .boolType] (typeNamed .ofBoolean),
    rule .typeName [.tok .varType] (typeNamed .general),
    rule .typeDeclaration [.tok .colon, .cat .typeName] typeDeclaration,
    rule .typeDeclaration [.tok .lbracket, .tok .rbracket] typeDeclaration,
    between .concatenation .concat concatenation,
    between .arithmetic .plus (arithmetic .add),
    between .arithmetic .minus (arithmetic .sub),
    between .arithmetic .times (arithmetic .mul),
    between .arithmetic .dividedBy (arithmetic .div),
    between .arithmetic .modulo (arithmetic .mod),
    between .arithmetic .exponent (arithmetic .pow),
    ⟨.arithmetic, [.tok .minus, e], some minusRank, negation⟩,
    between .comparison .lessThan (comparison .lt),
    between .comparison .greaterThan (comparison .gt),
    between .comparison .lessThanEqual (comparison .le),
    between .comparison .greaterThanEqual (comparison .ge),
    between .comparison .equalTo (comparison .eq),
    between .comparison .notEqualTo (comparison .ne),
    rule .logic [.tok .not, e] logicalNot,
    between .logic .and (logic .and),
    between .logic .or (logic .or),
    between .logic .isIn (logic .isIn),
    rule .expression [.cat .number] pass,
    rule .expression [.tok .string] literal,
    rule .expression [.cat .boolean] pass,
    rule .expression [.cat .place] pass,
    rule .expression [.cat .concatenation] pass,
    rule .expression [.cat .arithmetic] pass,
    rule .expression [.cat .comparison] pass,
    rule .expression [.cat .logic] pass,
    rule .expression [.tok .lparen, e, .tok .rparen] parenthesised]

end BlockScript.Grammar
