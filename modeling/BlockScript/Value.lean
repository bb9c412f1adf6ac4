import BlockScript.Fault
import BlockScript.Opcode

/-!
What expressions and statements compile to: literals, which are known when a project
is built, and blocks, which are run later. A block has arguments that are values
again, so scripts are trees of values.
-/
namespace BlockScript

/-- The type of a variable or list. The variable that carries the message of a
broadcast has no type of its own. -/
inductive DataType
  | typed (t : TypeSet)
  | message
  deriving DecidableEq, Repr

def DataType.name : DataType → String
  | typed t => t.name
  | message => "'variable'"

structure Data where
  name : String
  isList : Bool
  type : DataType
  constant : Bool
  deriving DecidableEq, Repr

inductive Value
  | null
  | bool (b : Bool)
  | int (n : Int)
  | float (x : Float)
  | complex (re im : Float)
  | str (s : String)
  | list (items : List Value)
  | flags (t : TypeSet)
  | target (name : String)
  | broadcast (name : Value)
  | data (d : Data)
  /-- A parameter of the custom block with the given label. -/
  | parameter (index : Nat) (label : String)
  | call (label : String) (arguments : List Value)
  /-- A block of the target language, with the type it was given in place of its own
  and the script for the case that its condition fails. -/
  | block (op : Opcode) (arguments : List Value) (retyped : Option TypeSet)
      (alternative : Option (List Value))

namespace Value

instance : Inhabited Value := ⟨null⟩

def isBlock : Value → Bool
  | data _ | parameter _ _ | call _ _ | block _ _ _ _ => true
  | _ => false

/-- A block with arguments that are known to be few enough. -/
abbrev op (o : Opcode) (arguments : List Value) : Value := block o arguments none none

/-- A block applied to any number of arguments. -/
def apply (o : Opcode) (arguments : List Value) : Except Fault Value :=
  match o.argumentLimit with
  | some limit => if limit < arguments.length then .error .typeMismatch else .ok (op o arguments)
  | none => .ok (op o arguments)

def truthy : Value → Bool
  | null => false
  | bool b => b
  | int n => n != 0
  | float x => x != 0.0
  | str s => s != ""
  | list items => !items.isEmpty
  | flags t => t != TypeSet.none
  | complex re im => re != 0.0 || im != 0.0
  | _ => true

/-- The type of a value. A literal that is no number, text, truth value or list has
none; to ask a block that yields nothing for its type is a fault. -/
def type? : Value → Except Fault (Option DataType)
  | flags t => .ok (some (.typed t))
  | data d => .ok (some d.type)
  | parameter _ _ => .ok (some (.typed .general))
  | call _ _ => .error .noSuchProperty
  | block o _ retyped _ =>
    match retyped.or o.resultType with
    | some t => .ok (some (.typed t))
    | none => .error .noSuchProperty
  | bool _ => .ok (some (.typed .ofBoolean))
  | int _ | float _ => .ok (some (.typed .ofNumber))
  | str _ => .ok (some (.typed .ofString))
  | list _ => .ok (some (.typed .ofList))
  | null | complex _ _ | target _ | broadcast _ => .ok none

/-- A block with another type. A type itself stays as it is. -/
def retype (v : Value) (t : TypeSet) : Except Fault Value :=
  match v with
  | data d => .ok (data { d with type := .typed t })
  | block o arguments _ alternative => .ok (block o arguments (some t) alternative)
  | parameter _ _ | call _ _ | flags _ => .ok v
  | _ => .error .noSuchProperty

mutual

/-- How many blocks a block is made of, counting itself. -/
def blockCount : Value → Nat
  | block _ arguments _ _ => blockCounts arguments + 1
  | call _ arguments => blockCounts arguments + 1
  | _ => 1

/-- How many blocks the blocks among some values are made of. -/
def blockCounts : List Value → Nat
  | [] => 0
  | v :: rest => (if v.isBlock then blockCount v else 0) + blockCounts rest

end

/-- The size of a value: a number counts as one, and a block as the blocks it is made
of. -/
def depth : Value → Except Fault Nat
  | bool _ | int _ | float _ => .ok 1
  | v => if v.isBlock then .ok v.blockCount else .error .noSuchProperty

end Value

end BlockScript
