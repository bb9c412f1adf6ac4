import BlockScript.Proofs.Conflicts
import BlockScript.Proofs.Phrases

/-!
What the two grammars leave to precedence. In both of them operators compete for their operands. In
scripts an else can belong to more than one condition as well. Nothing else is open, which tables of
both grammars show.
-/
namespace BlockScript.Grammar

open Automaton

def operatorKinds : List Terminal := Operator.all.map Operator.terminal

/-- Operands are expressions. After an expression at its end a rule may go on with an operator, and
a condition may go on with an else. -/
def disputes : Disputes where
  operand := .expression
  contested body t :=
    body.getLast? == some (.cat .expression) && operatorKinds.contains t ||
      body == [.cat .ifStatement] && t == .elseWord

/-- The trails of symbols whose states need not be told apart. -/
def plain (xs : List Symbol) : List Trail := xs.map fun x => some (x, 0)

def slack : Category → Nat
  | .expressions => 123
  | .expression | .statements | .body | .topStatements => 124
  | .place | .simpleStatement | .statement | .topStatement | .declarations
  | .variableDeclarations => 125
  | _ => 126

namespace Scripts

/-- The parentheses of functions, of calls and of conditions are told apart, and so are the parts of
a loop that counts. Statements in braces differ from the only statement of a body. -/
def variant : Trail → Symbol → Nat
  | some (.tok .function, _), .tok .word => 1
  | some (.tok .word, _), .tok .lparen => 1
  | some (.cat .place, _), .tok .lparen => 2
  | some (.tok .ifWord, _), .tok .lparen => 3
  | some (.tok .whileWord, _), .tok .lparen => 3
  | some (.tok .lparen, 3), .cat .expression => 1
  | some (.cat .expression, 1), .tok .rparen => 1
  | some (.cat .simpleStatement, _), .tok .rparen => 1
  | some (.tok .lparen, _), .cat .setVariable => 1
  | some (.cat .setVariable, 1), .tok .semicolon => 1
  | some (.tok .semicolon, 1), .cat .expression => 2
  | some (.cat .expression, 2), .tok .semicolon => 2
  | some (.tok .word, _), .tok .comma => 1
  | some (.cat .declaration, _), .cat .declarations => 1
  | some (.tok .lbrace, _), .cat .statement => 1
  | some (.cat .statement, _), .cat .statement => 1
  | some (.cat .place, _), .tok .lbracket => 1
  | _, _ => 0

def operandTrails : List Trail :=
  plain (operatorKinds.map .tok ++ [.tok .not, .tok .comma, .tok .equals, .tok .plusAssign,
    .tok .minusAssign, .tok .timesAssign, .tok .dividedByAssign, .tok .moduloAssign,
    .tok .exponentAssign, .tok .concatAssign, .tok .returnWord, .tok .lparen, .tok .lbracket]) ++
  [some (.tok .lparen, 2), some (.tok .lparen, 3), some (.tok .lbracket, 1),
    some (.tok .semicolon, 1)]

def bodyTrails : List Trail :=
  some (.tok .rparen, 1) :: plain [.tok .elseWord, .cat .arguments, .cat .parameters]

def blockTrails : List Trail := [some (.tok .lbrace, 0), some (.cat .statement, 1)]

def topTrails : List Trail := none :: plain [.cat .declarations, .cat .topStatement]

def left : Category → List Trail
  | .program => [none]
  | .declarations | .declaration => [none, some (.cat .declaration, 0)]
  | .topStatements | .topStatement | .hat | .functionDeclaration => topTrails
  | .typeName => topTrails ++ plain [.tok .colon, .tok .warp]
  | .statements => blockTrails
  | .body => bodyTrails
  | .statement | .ifStatement | .ifElse | .forStatement | .whileStatement | .returnStatement =>
    bodyTrails ++ blockTrails
  | .simpleStatement | .update => some (.tok .semicolon, 2) :: (bodyTrails ++ blockTrails)
  | .setVariable | .declareVariable =>
    some (.tok .lparen, 0) :: some (.tok .semicolon, 2) ::
      (topTrails ++ bodyTrails ++ blockTrails)
  | .functionCall => some (.tok .semicolon, 2) :: (operandTrails ++ bodyTrails ++ blockTrails)
  | .place | .index =>
    some (.tok .const, 0) :: some (.tok .semicolon, 2) ::
      (operandTrails ++ topTrails ++ bodyTrails ++ blockTrails)
  | .number | .boolean =>
    operandTrails ++ plain [.tok .visibility, .tok .draggable, .tok .xPosition, .tok .yPosition,
      .tok .size, .tok .direction, .tok .layer]
  | .list => plain [.tok .equals, .tok .costume, .tok .sound]
  | .expressions => some (.tok .lparen, 2) :: plain [.tok .comma, .tok .lbracket]
  | .parameters => [some (.tok .word, 1)]
  | .parameterNames => [some (.tok .lparen, 1), some (.tok .comma, 1)]
  | .typeDeclaration | .arguments => plain [.cat .place]
  | _ => operandTrails

def declarationWords : List Terminal :=
  [.spriteName, .costume, .sound, .visibility, .xPosition, .yPosition, .size, .direction,
    .draggable, .rotationStyle, .layer]

def topWords : List Terminal :=
  [.word, .scratch, .this, .const, .function, .warp, .numType, .strType, .boolType, .varType]

def statementWords : List Terminal :=
  [.word, .scratch, .this, .const, .ifWord, .forWord, .whileWord, .returnWord]

def afterExpressions : List Terminal :=
  [.colon, .dot, .equals, .lbracket, .lparen, .lbrace] ++ statementWords

def tables : Tables where
  toDisputes := disputes
  variant := variant
  left := left
  first
    | .topStatements | .topStatement | .declareVariable | .setVariable | .hat
    | .functionDeclaration | .place | .index | .typeName => topWords
    | _ => Terminal.all
  barred
    | .program => declarationWords ++ topWords
    | .declarations => declarationWords
    | .topStatements => topWords
    | .statements => statementWords
    | .parameterNames => [.comma]
    | .expression | .functionCall | .arithmetic | .comparison | .logic | .concatenation
    | .declareVariable | .setVariable | .update | .simpleStatement => afterExpressions
    | .expressions => .comma :: afterExpressions
    | _ => []
  slack := slack

theorem settles : tables.Settles scripts := by
  constructor
  · constructor <;> decide +kernel
  all_goals decide +kernel

end Scripts

namespace Setups

def tables : Tables where
  toDisputes := disputes
  variant _ _ := 0
  left
    | .program | .fileDeclaration => [none]
    | .variableDeclarations | .setVariable =>
      none :: plain [.cat .fileDeclaration, .cat .setVariable]
    | .typeDeclaration => plain [.tok .word]
    | .typeName => plain [.tok .colon]
    | .list => plain [.tok .equals]
    | .expressions => plain [.tok .comma, .tok .lbracket]
    | _ => plain (operatorKinds.map .tok ++ [.tok .not, .tok .lparen, .tok .lbracket, .tok .comma,
        .tok .equals])
  first _ := Terminal.all
  barred
    | .program => [.project, .word]
    | .variableDeclarations => [.word]
    | .place | .expression | .arithmetic | .comparison | .logic | .concatenation =>
      [.colon, .lbracket]
    | .expressions => [.colon, .lbracket, .comma]
    | _ => []
  slack := slack

theorem settles : tables.Settles setups := by
  constructor
  · constructor <;> decide +kernel
  all_goals decide +kernel

end Setups

end BlockScript.Grammar
