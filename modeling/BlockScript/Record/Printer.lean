import BlockScript.Expr

/-!
Trees as records. Every tree is written in full.
-/
namespace BlockScript

def Family.title : Family → String
  | arith => "numerical operation"
  | compare => "comparison operation"
  | logic => "logical operation"

namespace Record

def start : Position → List (String × Record)
  | .missing => []
  | .nowhere => [("lexpos", value .null)]
  | .start n => [("lexpos", value (.int n))]

def kinded (kind : String) (p : Position) (fields : List (String × Record)) : Record :=
  node (start p ++ ("type", str kind) :: fields)

end Record

open Record (kinded)

mutual

def Expr.toRecord : Expr → Record
  | .value v => .value v
  | .truth b => .value (.bool b)
  | .list items => .list (exprRecords items)
  | .name p n => kinded "variable" p [("variable", .str n)]
  | .attr p object attr =>
    kinded "get attribute" p [("object", object.toRecord), ("attribute", .str attr)]
  | .index p target i => kinded "index" p [("target", target.toRecord), ("index", i.toRecord)]
  | .call p f arguments =>
    kinded "function call" p
      [("function", f.toRecord), ("arguments", .list (exprRecords arguments))]
  | .concat p operands => kinded "concatenation" p [("operands", .list (exprRecords operands))]
  | .arith p op operands =>
    kinded Family.arith.title p
      [("operation", .str op.spelling), ("operands", .list (exprRecords operands))]
  | .compare p op operands =>
    kinded Family.compare.title p
      [("condition", .str op.spelling), ("operands", .list (exprRecords operands))]
  | .logic p op operands =>
    kinded Family.logic.title p
      [("condition", .str op.spelling), ("comparands", .list (exprRecords operands))]
  | .unknown p family operands =>
    let key := if family = .logic then "comparands" else "operands"
    kinded family.title p [(key, .list (exprRecords operands))]
  | .malformed p _ => .node (Record.start p)

def exprRecords : List Expr → List Record
  | [] => []
  | e :: rest => e.toRecord :: exprRecords rest

end

def optionalRecord : Option Expr → Record
  | some e => e.toRecord
  | none => .value .null

mutual

def Stmt.toRecord : Stmt → Record
  | .declare p target type v constant =>
    kinded "declare variable" p
      [("variable", target.toRecord), ("variable type", .flags type), ("value", optionalRecord v),
        ("constant", .value (.bool constant))]
  | .assign p target v =>
    kinded "set variable" p [("variable", target.toRecord), ("value", v.toRecord)]
  | .update p op target operand =>
    kinded "in-place assignment" p
      [("operation", .str op.spelling), ("variable", target.toRecord),
        ("operand", operand.toRecord)]
  | .call p f arguments => (Expr.call p f arguments).toRecord
  | .ifThen p condition body =>
    kinded "if" p [("expression", condition.toRecord), ("body", .list (stmtRecords body))]
  | .ifElse p condition body alternative =>
    kinded "if-else" p
      [("expression", condition.toRecord), ("body 1", .list (stmtRecords body)),
        ("body 2", .list (stmtRecords alternative))]
  | .whileLoop p condition body =>
    kinded "while" p [("expression", condition.toRecord), ("body", .list (stmtRecords body))]
  | .forLoop p start condition next body =>
    kinded "for" p
      [("initializer", start.toRecord), ("expression", condition.toRecord),
        ("post-iteration", next.toRecord), ("body", .list (stmtRecords body))]
  | .giveBack p v => kinded "return" p [("expression", optionalRecord v)]
  | .shared p target type v =>
    kinded "assignment" p
      [("variable", target.toRecord), ("variable type", (type.map .flags).getD (.value .null)),
        ("value", v.toRecord)]
  | .function p returns name parameters warp body =>
    kinded "function declaration" p
      [("return type", (returns.map .flags).getD (.value .null)), ("name", .str name),
        ("parameters", .list (parameters.map .str)), ("warp", .value (.bool warp)),
        ("body", .list (stmtRecords body))]
  | .hat p event arguments body =>
    kinded "hat" p
      [("event", event.toRecord), ("arguments", .list (exprRecords arguments)),
        ("body", .list (stmtRecords body))]
  | .bare word => .str word
  | .malformed p _ _ => .node (Record.start p)

def stmtRecords : List Stmt → List Record
  | [] => []
  | s :: rest => s.toRecord :: stmtRecords rest

end

def Declaration.toRecord (d : Declaration) : Record :=
  kinded "meta declaration" d.pos
    [("property", (d.property.map .str).getD (.value .null)), ("value", d.value.getD default)]

def Script.toRecord (s : Script) : Record :=
  .node [("declarations", .list (s.declarations.map Declaration.toRecord)),
    ("statements", .list (stmtRecords s.statements))]

def FileDeclaration.toRecord : FileDeclaration → Record
  | .absent => .value .null
  | .unnamed => .node []
  | .named project filename =>
    .node [("project name", .str project), ("filename", .str filename)]

def Global.toRecord (g : Global) : Record :=
  .node (Record.start g.pos ++ [("name", .str g.name), ("type", .flags g.type),
    ("value", g.value.toRecord)])

def Setup.toRecord (s : Setup) : Record :=
  .node [("file declaration", s.file.toRecord),
    ("variables", .list (s.globals.map Global.toRecord))]

end BlockScript
