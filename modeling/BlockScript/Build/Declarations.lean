import BlockScript.Build.State

/-!
The properties that a script declares at its head. Each property has a default; some
belong to sprites only, and some accept only part of the numbers.
-/
namespace BlockScript

inductive Property
  | name | costume | sound | visible | x | y | size | direction | draggable | rotationStyle | layer
  deriving DecidableEq, Repr

namespace Property

def all : List Property :=
  [name, costume, sound, visible, x, y, size, direction, draggable, rotationStyle, layer]

def word : Property → String
  | name => "name"
  | costume => "costume"
  | sound => "sound"
  | visible => "visible"
  | x => "x"
  | y => "y"
  | size => "size"
  | direction => "direction"
  | draggable => "draggable"
  | rotationStyle => "rotationstyle"
  | layer => "layer"

def stem (filename : String) : String :=
  String.ofList (filename.toList.take (filename.length - 4))

/-- The value of a property that is not declared in a file. -/
def default (filename : String) : Property → Record
  | name => .str (stem filename)
  | costume | sound => .list []
  | visible | draggable => .value (.bool true)
  | x | y => .value (.int 0)
  | size => .value (.int 100)
  | direction => .value (.int 90)
  | rotationStyle => .str "all_around"
  | layer => .value (.int 1)

def spriteOnly : Property → Bool
  | costume | sound => false
  | _ => true

def acceptsSize : Record → Except Fault Bool
  | .value v =>
    if v.isBlock then .ok true
    else match v.number? with
      | some n =>
        let low := n.order? (.int 0)
        let high := n.order? (.int 100)
        .ok (Value.holds .ge low && Value.holds .le high)
      | none => .error .typeMismatch
  | _ => .error .typeMismatch

def accepts (value : Record) : Property → Except Fault Bool
  | size => acceptsSize value
  | layer => .ok (match value with
    | .value (.int n) => 0 < n
    | .value (.bool b) => b
    | _ => false)
  | _ => .ok true

end Property

abbrev Properties := Assoc Property Record

def Properties.get (ps : Properties) (p : Property) : Record := (Assoc.get? p ps).getD default

namespace Build

/-- The fields of a declaration, after moving to its position. -/
def declarationParts (d : Declaration) : Build (String × Record) := do
  moveTo d.pos
  match d.value, d.property with
  | some value, some property => return (property, value)
  | _, _ => fault .missingField

/-- Reads what a list of declarations says about one property; `found` is what it said
so far. -/
def readProperty (p : Property) (onStage : Bool) (found : Option Record) :
    List Declaration → Build (Option Record)
  | [] => pure found
  | d :: rest => do
    let (property, value) ← declarationParts d
    if property != "#" ++ p.word then readProperty p onStage found rest
    else if p.spriteOnly && onStage then reject .spriteOnlyDeclaration
    else if found.isSome then reject .redefinedDeclaration
    else if !(← ofExcept (p.accepts value)) then reject .rejectedDeclarationValue
    else readProperty p onStage (some value) rest

def readProperties (ds : List Declaration) (filename : String) (onStage : Bool) :
    List Property → Build Properties
  | [] => pure []
  | p :: rest => do
    let found ← readProperty p onStage none ds
    let others ← readProperties ds filename onStage rest
    return (p, found.getD (p.default filename)) :: others

def declarations (ds : List Declaration) (filename : String) (onStage : Bool) : Build Properties :=
  readProperties ds filename onStage Property.all

def declaredValue (property : String) (default : Record) : List Declaration → Build Record
  | [] => pure default
  | d :: rest =>
    match d.property with
    | none => fault .missingField
    | some own =>
      if own == property then
        match d.value with
        | some value => pure value
        | none => fault .missingField
      else declaredValue property default rest

end Build

end BlockScript
