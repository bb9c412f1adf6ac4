import BlockScript.Expr
import BlockScript.Proofs.Engine

/-!
Structured code on whole numbers: declarations, assignments, branches, loops and bare
returns, as a language of its own with the trees it stands for. A variable belongs to the
block that declares it and is gone when the block is left. Blocks are numbered in the order
in which they begin in the text, so that a cell of the memory says where its variable was
declared.
-/
namespace BlockScript.NumberCode

inductive Operation
  | add | sub | mul | mod
  deriving DecidableEq

inductive Arith
  | lit (n : Int)
  | var (pos : Position) (name : String)
  | binary (pos : Position) (op : Operation) (a b : Arith)
  | neg (pos : Position) (a : Arith)

inductive Cond
  | truth (b : Bool)
  | compare (pos : Position) (op : CompareOp) (a b : Arith)
  | not (pos : Position) (c : Cond)
  | or (pos : Position) (a b : Cond)

/-- A list of statements. Every statement comes with what follows it. -/
inductive Code
  | done
  | declare (pos namePos : Position) (name : String) (value : Option Arith) (constant : Bool)
      (rest : Code)
  | assign (pos namePos : Position) (name : String) (value : Arith) (rest : Code)
  | update (pos namePos : Position) (op : Operation) (name : String) (value : Arith) (rest : Code)
  | ifThen (pos : Position) (condition : Cond) (body rest : Code)
  | ifElse (pos : Position) (condition : Cond) (body alternative rest : Code)
  | whileLoop (pos : Position) (condition : Cond) (body rest : Code)
  | giveBack (pos : Position) (rest : Code)

/-! The trees. -/

def Operation.arith : Operation → ArithOp
  | add => .add
  | sub => .sub
  | mul => .mul
  | mod => .mod

def Arith.expr : Arith → Expr
  | lit n => .int n
  | var pos name => .name pos name
  | binary pos op a b => .arith pos op.arith [a.expr, b.expr]
  | neg pos a => .arith pos .neg [a.expr]

def Cond.expr : Cond → Expr
  | truth b => .truth b
  | compare pos op a b => .compare pos op [a.expr, b.expr]
  | not pos c => .logic pos .not [c.expr]
  | or pos a b => .logic pos .or [a.expr, b.expr]

def Code.stmts : Code → List Stmt
  | done => []
  | declare pos namePos name value constant rest =>
    .declare pos (.name namePos name) .ofNumber (value.map Arith.expr) constant :: rest.stmts
  | assign pos namePos name value rest =>
    .assign pos (.name namePos name) value.expr :: rest.stmts
  | update pos namePos op name value rest =>
    .update pos (.arith op.arith) (.name namePos name) value.expr :: rest.stmts
  | ifThen pos c body rest => .ifThen pos c.expr body.stmts :: rest.stmts
  | ifElse pos c body alternative rest =>
    .ifElse pos c.expr body.stmts alternative.stmts :: rest.stmts
  | whileLoop pos c body rest => .whileLoop pos c.expr body.stmts :: rest.stmts
  | giveBack pos rest => .giveBack pos none :: rest.stmts

/-! The names that occur. -/

def Arith.names : Arith → List String
  | lit _ => []
  | var _ name => [name]
  | binary _ _ a b => a.names ++ b.names
  | neg _ a => a.names

def Cond.names : Cond → List String
  | truth _ => []
  | compare _ _ a b => a.names ++ b.names
  | not _ c => c.names
  | or _ a b => a.names ++ b.names

def Code.names : Code → List String
  | done => []
  | declare _ _ name value _ rest => name :: ((value.map Arith.names).getD [] ++ rest.names)
  | assign _ _ name value rest | update _ _ _ name value rest => name :: (value.names ++ rest.names)
  | ifThen _ c body rest | whileLoop _ c body rest => c.names ++ (body.names ++ rest.names)
  | ifElse _ c body alternative rest =>
    c.names ++ (body.names ++ (alternative.names ++ rest.names))
  | giveBack _ rest => rest.names

/-! Values. -/

/-- The remainder with the sign of the divisor. What the remainder by zero is, is left
open. -/
def remainder (byZero : Int → Int) (a b : Int) : Int := if b = 0 then byZero a else Int.fmod a b

def Operation.apply (byZero : Int → Int) : Operation → Int → Int → Int
  | add, a, b => a + b
  | sub, a, b => a - b
  | mul, a, b => a * b
  | mod, a, b => remainder byZero a b

/-- Whether a comparison holds of two numbers. -/
def compares : CompareOp → Int → Int → Bool
  | .lt, a, b => decide (a < b)
  | .gt, a, b => decide (b < a)
  | .le, a, b => decide (a ≤ b)
  | .ge, a, b => decide (b ≤ a)
  | .eq, a, b => decide (a = b)
  | .ne, a, b => decide (a ≠ b)

/-- What is kept for a variable, with the number of the block that declares it; a variable
from around the code has no number. -/
structure Cell (α : Type) where
  block : Option Nat
  name : String
  content : α

namespace Cell

variable {α β : Type}

def map (f : α → β) (c : Cell α) : Cell β := ⟨c.block, c.name, f c.content⟩

/-- What is kept for the variable of a name that was declared last. -/
def find (name : String) : List (Cell α) → Option α
  | [] => none
  | c :: rest => if c.name = name then some c.content else find name rest

/-- Changes the variable of a name that was declared last. -/
def put (name : String) (content : α) : List (Cell α) → Option (List (Cell α))
  | [] => none
  | c :: rest =>
    if c.name = name then some ({ c with content := content } :: rest)
    else (put name content rest).map (c :: ·)

end Cell

/-- The variables that exist, the last one first. -/
abbrev Memory := List (Cell Int)

def Arith.eval (byZero : Int → Int) (mem : Memory) : Arith → Option Int
  | lit n => some n
  | var _ name => Cell.find name mem
  | binary _ op a b => do return op.apply byZero (← a.eval byZero mem) (← b.eval byZero mem)
  | neg _ a => do return -(← a.eval byZero mem)

def Cond.holds (byZero : Int → Int) (mem : Memory) : Cond → Option Bool
  | truth b => some b
  | compare _ op a b => do return compares op (← a.eval byZero mem) (← b.eval byZero mem)
  | not _ c => do return !(← c.holds byZero mem)
  | or _ a b => do return (← a.holds byZero mem) || (← b.holds byZero mem)

/-! Runs. -/

def Code.blocks : Code → Nat
  | done => 0
  | declare _ _ _ _ _ rest | assign _ _ _ _ rest | update _ _ _ _ _ rest => rest.blocks
  | ifThen _ _ body rest | whileLoop _ _ body rest => 1 + body.blocks + rest.blocks
  | ifElse _ _ body alternative rest =>
    1 + body.blocks + (1 + alternative.blocks) + rest.blocks
  | giveBack _ rest => rest.blocks

/-- Goes on with a value, if there is one. -/
def given {α σ : Type} (value : Option α) (next : α → Ending σ) : Ending σ :=
  match value with
  | none => .stuck
  | some a => next a

/-- The end of a block that was entered with the given memory: the variables of the block
are gone. -/
def leave (mem : Memory) (e : Ending Memory) : Ending Memory :=
  e.bind fun mem' => .finished (mem'.drop (mem'.length - mem.length))

/-- Runs code that stands in a block, after so many blocks have begun. -/
def Code.run (byZero : Int → Int) :
    (fuel block last : Nat) → Code → Memory → Ending Memory
  | 0, _, _, _, _ => .running
  | _ + 1, _, _, done, mem => .finished mem
  | fuel + 1, block, last, declare _ _ name value _ rest, mem =>
    given ((value.getD (.lit 0)).eval byZero mem) fun v =>
      rest.run byZero fuel block last (⟨some block, name, v⟩ :: mem)
  | fuel + 1, block, last, assign _ _ name value rest, mem =>
    given (value.eval byZero mem) fun v =>
      given (Cell.put name v mem) (rest.run byZero fuel block last)
  | fuel + 1, block, last, update _ _ op name value rest, mem =>
    given (Cell.find name mem) fun old =>
      given (value.eval byZero mem) fun v =>
        given (Cell.put name (op.apply byZero old v) mem) (rest.run byZero fuel block last)
  | fuel + 1, block, last, ifThen _ c body rest, mem =>
    (given (c.holds byZero mem) fun b =>
      if b then leave mem (body.run byZero fuel (last + 1) (last + 1) mem)
      else .finished mem).bind (rest.run byZero fuel block (last + (1 + body.blocks)))
  | fuel + 1, block, last, ifElse _ c body alternative rest, mem =>
    (given (c.holds byZero mem) fun b =>
      if b then leave mem (body.run byZero fuel (last + 1) (last + 1) mem)
      else
        let next := last + (1 + body.blocks) + 1
        leave mem (alternative.run byZero fuel next next mem)).bind
      (rest.run byZero fuel block (last + (1 + body.blocks) + (1 + alternative.blocks)))
  | fuel + 1, block, last, whileLoop pos c body rest, mem =>
    (given (c.holds byZero mem) fun b =>
      if b then
        (leave mem (body.run byZero fuel (last + 1) (last + 1) mem)).bind
          ((whileLoop pos c body done).run byZero fuel block last)
      else .finished mem).bind (rest.run byZero fuel block (last + (1 + body.blocks)))
  | _ + 1, _, _, giveBack _ _, mem => .stopped mem

end BlockScript.NumberCode
