import BlockScript.Operator
import BlockScript.Record

/-!
The source language as trees. Expressions and statements carry the position at which
they start in their text. Trees that were not read from a text may lack a position or
other parts; what is missing turns into a fault when it is asked for.
-/
namespace BlockScript

/-- Where a tree starts in its text. A tree that was not read from a text may lack the
position, or have one that is empty. -/
inductive Position
  | missing
  | nowhere
  | start (offset : Int)
  deriving DecidableEq, Repr

inductive Family
  | arith
  | compare
  | logic
  deriving DecidableEq, Repr

inductive Expr
  /-- A literal other than a truth value, or a value compiled before. -/
  | value (v : Value)
  | truth (b : Bool)
  | list (items : List Expr)
  | name (pos : Position) (name : String)
  | attr (pos : Position) (object : Expr) (attr : String)
  | index (pos : Position) (target index : Expr)
  | call (pos : Position) (function : Expr) (arguments : List Expr)
  | concat (pos : Position) (operands : List Expr)
  | arith (pos : Position) (op : ArithOp) (operands : List Expr)
  | compare (pos : Position) (op : CompareOp) (operands : List Expr)
  | logic (pos : Position) (op : LogicOp) (operands : List Expr)
  | unknown (pos : Position) (family : Family) (operands : List Expr)
  | malformed (pos : Position) (fault : Fault)

namespace Expr

instance : Inhabited Expr := ⟨value .null⟩

/-- An expression asked for where there is none. -/
def absent : Expr := malformed .missing .missingField

def int (n : Int) : Expr := value (.int n)

def str (s : String) : Expr := value (.str s)

def isText (e : Expr) (text : String) : Bool :=
  match e with
  | value (.str s) => s == text
  | _ => false

/-- The position of an expression with parts; a literal has no position of its own. -/
def position : Expr → Except Fault Position
  | name pos _ | attr pos _ _ | index pos _ _ | call pos _ _ | concat pos _ | arith pos _ _
  | compare pos _ _ | logic pos _ _ | unknown pos _ _ | malformed pos _ =>
    if pos = .missing then .error .missingField else .ok pos
  | value _ | truth _ | list _ => .error .typeMismatch

/-- The variable that an expression names, if it is a plain name. -/
def plainName : Expr → Except Fault String
  | name _ n => .ok n
  | value _ | truth _ | list _ => .error .typeMismatch
  | malformed .missing fault => .error fault
  | _ => .error .missingField

end Expr

inductive UpdateOp
  | concat
  | arith (op : ArithOp)
  deriving DecidableEq, Repr

def UpdateOp.spelling : UpdateOp → String
  | concat => "..="
  | arith op => op.spelling ++ "="

def UpdateOp.apply (op : UpdateOp) (current operand : Value) : Except Fault Value :=
  match op with
  | concat => .ok (.op .join [current, operand])
  | arith op => op.apply [current, operand]

/-- What a statement is at the top level of a script. -/
inductive Part
  | shared
  | function
  | hat
  | other
  | unknown
  deriving DecidableEq, Repr

inductive Stmt
  /-- A declaration; an assignment in its place has no type. -/
  | declare (pos : Position) (target : Expr) (type : TypeSet) (value : Option Expr)
      (constant : Bool)
  | assign (pos : Position) (target value : Expr)
  | update (pos : Position) (op : UpdateOp) (target operand : Expr)
  | call (pos : Position) (function : Expr) (arguments : List Expr)
  | ifThen (pos : Position) (condition : Expr) (body : List Stmt)
  | ifElse (pos : Position) (condition : Expr) (body alternative : List Stmt)
  | whileLoop (pos : Position) (condition : Expr) (body : List Stmt)
  | forLoop (pos : Position) (start : Stmt) (condition : Expr) (next : Stmt) (body : List Stmt)
  | giveBack (pos : Position) (value : Option Expr)
  | shared (pos : Position) (target : Expr) (type : Option TypeSet) (value : Expr)
  | function (pos : Position) (returns : Option TypeSet) (name : String)
      (parameters : List String) (warp : Bool) (body : List Stmt)
  | hat (pos : Position) (event : Expr) (arguments : List Expr) (body : List Stmt)
  /-- A word where a statement should stand. -/
  | bare (word : String)
  /-- What is no statement; to use it is a fault. -/
  | malformed (pos : Position) (part : Part) (fault : Fault)

namespace Stmt

instance : Inhabited Stmt := ⟨bare ""⟩

def part : Stmt → Part
  | shared _ _ _ _ => .shared
  | function _ _ _ _ _ _ => .function
  | hat _ _ _ _ => .hat
  | malformed _ part _ => part
  | bare _ => .unknown
  | _ => .other

end Stmt

/-- A property of a sprite or the stage. Its value is kept as it is. -/
structure Declaration where
  pos : Position
  property : Option String
  value : Option Record

structure Script where
  declarations : List Declaration
  statements : List Stmt

/-- The name a setup gives to its project. An empty setup differs from one that only
declares variables. -/
inductive FileDeclaration
  | absent
  | unnamed
  | named (project filename : String)
  deriving DecidableEq, Repr

structure Global where
  pos : Position
  name : String
  type : TypeSet
  value : Expr

structure Setup where
  file : FileDeclaration
  globals : List Global

end BlockScript
