import BlockScript.Record.Printer

/-!
Records as trees. Reading accepts any record: a field that is missing or of the wrong
kind gives a tree that is at fault where the field is needed.
-/
namespace BlockScript

/-- What a record can be read as. The kind of a statement whose own kind is unknown is
that of the statement before it. -/
structure Reading where
  expr : Expr
  exprs : List Expr
  kind : Option String
  stmt : Option String → Stmt
  stmts : List Stmt
  words : List String
  literal : Value

instance : Inhabited Reading :=
  ⟨⟨default, [], none, fun _ => default, [], [], .null⟩⟩

/-- The fields of a record, each with all that it can be read as. -/
abbrev Fields := List (String × Reading)

namespace Fields

def literal? (fields : Fields) (key : String) : Option Value :=
  (fields.lookup key).map Reading.literal

def position (fields : Fields) : Position :=
  match fields.literal? "lexpos" with
  | some (.int n) => .start n
  | some .null => .nowhere
  | _ => .missing

def text? (fields : Fields) (key : String) : Option String :=
  match fields.literal? key with
  | some (.str s) => some s
  | _ => none

def flags? (fields : Fields) (key : String) : Option TypeSet :=
  match fields.literal? key with
  | some (.flags t) => some t
  | _ => none

/-- A type; what is no type is taken for the one without flags. -/
def type? (fields : Fields) (key : String) : Option TypeSet :=
  (fields.lookup key).map fun r => match r.literal with
    | .flags t => t
    | _ => .none

def truth? (fields : Fields) (key : String) : Option Bool :=
  (fields.literal? key).map Value.truthy

def expr (fields : Fields) (key : String) : Expr :=
  ((fields.lookup key).map Reading.expr).getD .absent

def optional? (fields : Fields) (key : String) : Option (Option Expr) :=
  (fields.lookup key).map fun r => match r.expr with
    | .value .null => none
    | e => some e

def exprs (fields : Fields) (key : String) : List Expr :=
  ((fields.lookup key).map Reading.exprs).getD [.absent]

def stmts? (fields : Fields) (key : String) : Option (List Stmt) :=
  (fields.lookup key).map Reading.stmts

end Fields

def arithOp? (s : String) : Option ArithOp :=
  [ArithOp.add, .sub, .mul, .div, .mod, .pow, .neg].find? fun op => op.spelling == s

def compareOp? (s : String) : Option CompareOp :=
  [CompareOp.lt, .gt, .le, .ge, .eq, .ne].find? fun op => op.spelling == s

def logicOp? (s : String) : Option LogicOp :=
  [LogicOp.not, .and, .or, .isIn].find? fun op => op.spelling == s

/-- The operator of an in-place assignment, whose last character is the equals sign. -/
def updateOp? (s : String) : Option UpdateOp :=
  let op := String.ofList s.toList.dropLast
  if op == ".." then some .concat else (arithOp? op).map .arith

/-- An operation by the name of its operator, which may be unknown or missing. -/
def operationOf {α : Type} (name : Option String) (operator? : String → Option α)
    (known : α → Expr) (unknown missing : Expr) : Expr :=
  match name with
  | none => missing
  | some n => ((operator? n).map known).getD unknown

def exprOf (kind : Option String) (fields : Fields) : Expr :=
  let p := fields.position
  let missing := Expr.malformed p .missingField
  match kind with
  | none => missing
  | some "variable" => ((fields.text? "variable").map (.name p ·)).getD missing
  | some "get attribute" =>
    ((fields.text? "attribute").map (.attr p (fields.expr "object") ·)).getD missing
  | some "index" => .index p (fields.expr "target") (fields.expr "index")
  | some "function call" => .call p (fields.expr "function") (fields.exprs "arguments")
  | some "concatenation" => .concat p (fields.exprs "operands")
  | some "numerical operation" =>
    operationOf (fields.text? "operation") arithOp? (.arith p · (fields.exprs "operands"))
      (.unknown p .arith (fields.exprs "operands")) missing
  | some "comparison operation" =>
    operationOf (fields.text? "condition") compareOp? (.compare p · (fields.exprs "operands"))
      (.unknown p .compare (fields.exprs "operands")) missing
  | some "logical operation" =>
    operationOf (fields.text? "condition") logicOp? (.logic p · (fields.exprs "comparands"))
      (.unknown p .logic (fields.exprs "comparands")) missing
  | some _ => if p = .missing then missing else .malformed p .unboundResult

def stmtOfKind (kind : String) (fields : Fields) : Option Stmt :=
  let p := fields.position
  let missing (part : Part) (s : Option Stmt) : Option Stmt :=
    some (s.getD (.malformed p part .missingField))
  match kind with
  | "declare variable" => missing .other do
    some (.declare p (fields.expr "variable") (← fields.type? "variable type")
      (← fields.optional? "value") (← fields.truth? "constant"))
  | "set variable" =>
    some (.assign p (fields.expr "variable") (fields.expr "value"))
  | "in-place assignment" => missing .other do
    some (.update p (← (fields.text? "operation").bind updateOp?) (fields.expr "variable")
      (fields.expr "operand"))
  | "function call" =>
    some (.call p (fields.expr "function") (fields.exprs "arguments"))
  | "if" => missing .other do
    some (.ifThen p (fields.expr "expression") (← fields.stmts? "body"))
  | "if-else" => missing .other do
    some (.ifElse p (fields.expr "expression") (← fields.stmts? "body 1")
      (← fields.stmts? "body 2"))
  | "while" => missing .other do
    let _ ← fields.lookup "expression"
    some (.whileLoop p (fields.expr "expression") (← fields.stmts? "body"))
  | "for" => missing .other do
    let _ ← fields.lookup "expression"
    some (.forLoop p ((← fields.lookup "initializer").stmt none) (fields.expr "expression")
      ((← fields.lookup "post-iteration").stmt none) (← fields.stmts? "body"))
  | "return" => missing .other do
    some (.giveBack p (← fields.optional? "expression"))
  | "assignment" =>
    some (.shared p (fields.expr "variable") (fields.flags? "variable type") (fields.expr "value"))
  | "function declaration" => missing .function do
    let _ ← fields.lookup "return type"
    some (.function p (fields.flags? "return type") (← fields.text? "name")
      ((← fields.lookup "parameters").words) (← fields.truth? "warp")
      (← fields.stmts? "body"))
  | "hat" => missing .hat do
    let arguments ← fields.lookup "arguments"
    some (.hat p (fields.expr "event") arguments.exprs (← fields.stmts? "body"))
  | _ => none

def isInnerKind (kind : String) : Bool :=
  ["declare variable", "set variable", "in-place assignment", "function call", "if", "if-else",
    "while", "for", "return"].contains kind

/-- Inside a body a statement of a kind that bodies do not have is handled like the
statement before it. -/
def stmtOf (kind : Option String) (fields : Fields) (previous : Option String) : Stmt :=
  let p := fields.position
  match kind with
  | none => .malformed p .unknown .missingField
  | some k =>
    let own := (stmtOfKind k fields).getD (.malformed p .other .unboundResult)
    if isInnerKind k then own
    else match previous with
      | some before => (stmtOfKind before fields).getD own
      | none => own

/-- Statements in order, each with the last known kind before it. -/
def stmtsFrom (previous : Option String) : List Reading → List Stmt
  | [] => []
  | r :: rest =>
    let known := match r.kind with
      | some k => if isInnerKind k then some k else previous
      | none => previous
    r.stmt previous :: stmtsFrom known rest

def wordOf : Value → String
  | .str s => s
  | _ => ""

mutual

def Record.read : Record → Reading
  | .value (.bool b) =>
    ⟨.truth b, [.malformed .missing .typeMismatch], none, fun _ => .bare "", [.bare ""], [],
      .bool b⟩
  | .value v =>
    ⟨.value v, [.malformed .missing .typeMismatch], none, fun _ => .bare (wordOf v), [.bare ""],
      [], v⟩
  | .list items =>
    let rs := readAll items
    { expr := .list (rs.map (·.expr))
      exprs := rs.map (·.expr)
      kind := none
      stmt := fun _ => .bare ""
      stmts := stmtsFrom none rs
      words := rs.map fun r => wordOf r.literal
      literal := .null }
  | .node fields =>
    let fs := readFields fields
    let kind := Fields.text? fs "type"
    { expr := exprOf kind fs
      exprs := [.malformed .missing .typeMismatch]
      kind := kind
      stmt := stmtOf kind fs
      stmts := [.bare ""]
      words := []
      literal := .null }

def readAll : List Record → List Reading
  | [] => []
  | r :: rest => r.read :: readAll rest

def readFields : List (String × Record) → List (String × Reading)
  | [] => []
  | (key, r) :: rest => (key, r.read) :: readFields rest

end

def Record.toExpr (r : Record) : Expr := r.read.expr

def Record.toBody (r : Record) : List Stmt := r.read.stmts

def Record.position : Option Record → Position
  | some (.value (.int n)) => .start n
  | some (.value .null) => .nowhere
  | _ => .missing

/-- A record as a word; what is no text is taken for an empty one. -/
def Record.word : Record → String
  | .value v => wordOf v
  | _ => ""

def Record.toStatements (r : Record) : List Stmt := r.items.map fun s => s.read.stmt none

def Record.toDeclaration (r : Record) : Declaration :=
  ⟨Record.position (r.field? "lexpos"), (r.field? "property").map Record.word, r.field? "value"⟩

def Record.toScript (r : Record) : Script :=
  ⟨((r.field? "declarations").map Record.items).getD [] |>.map Record.toDeclaration,
    ((r.field? "statements").map Record.toStatements).getD []⟩

def Record.toGlobal (r : Record) : Global :=
  let p := Record.position (r.field? "lexpos")
  match r.field? "name", r.field? "type", r.field? "value" with
  | some (.value (.str name)), some (.value (.flags t)), some v => ⟨p, name, t, v.toExpr⟩
  | _, _, _ => ⟨p, "", .none, .absent⟩

def Record.toSetup (r : Record) : Setup :=
  let file := match r.field? "file declaration" with
    | some (.node fields) =>
      match (fields.lookup "filename").bind Record.text? with
      | some filename =>
        .named (((fields.lookup "project name").bind Record.text?).getD "") filename
      | none => .unnamed
    | _ => .absent
  ⟨file, ((r.field? "variables").map Record.items).getD [] |>.map Record.toGlobal⟩

end BlockScript
