import BlockScript.Build.Name

/-!
Compiling expressions. Scripts and setups share all operators. In a script a name is a
variable, and a truth value is a comparison; in a setup a name is the value of an
earlier global, and there are no calls.
-/
namespace BlockScript.Build

/-- An item of a list or a letter of a text. Indices count from zero, and blocks count
from one. -/
def indexed (target index : Value) : Build Value := do
  require [[.ofList], [.ofString]] [target] "Index target must be a string/list, not a \x7b\x7d"
  require [[.ofNumber]] [index] "Index must be a number, not a \x7b\x7d"
  let place ← ofExcept (index.add (.int 1))
  if (← ofExcept target.type?) == some (.typed .ofList) then
    return .block .itemOfList [place, target] (some .general) none
  else return .op .letterOf [place, target]

def concatenated : List Value → Build Value
  | [a, b] => do
    require [[.ofString, .ofString]] [a, b] "Cannot concatenate a \x7b\x7d to a \x7b\x7d"
    match a, b with
    | .str s, .str t => return .str (s ++ t)
    | _, _ => return .op .join [a, b]
  | _ => fault .badValue

def requireNumbers (operands : List Value) : Build Unit :=
  match operands with
  | [a] => require [[.ofNumber]] [a] "Cannot perform numerical operation on a \x7b\x7d"
  | _ =>
    require [[.ofNumber, .ofNumber]] operands
      "Cannot perform numerical operation on a \x7b\x7d and a \x7b\x7d"

def calculated (op : ArithOp) (operands : List Value) : Build Value := do
  requireNumbers operands
  ofExcept (op.apply operands)

/-- The types that a comparison accepts. Texts can only be equal or not. -/
def comparable : CompareOp → List (List TypeSet)
  | .eq | .ne => [[.ofNumber, .ofNumber], [.ofString, .ofString]]
  | _ => [[.ofNumber, .ofNumber]]

def requireComparable (allowed : List (List TypeSet)) (operands : List Value) : Build Unit :=
  require allowed operands "Cannot perform comparison operation on a \x7b\x7d and a \x7b\x7d"

def compared (op : CompareOp) : List Value → Build Value
  | [a, b] => do
    requireComparable (comparable op) [a, b]
    ofExcept (op.apply [a, b])
  | _ => fault .badValue

def requireTruths (operands : List Value) : Build Unit :=
  require [[.ofBoolean, .ofBoolean]] operands
    "Cannot perform logical operation on a \x7b\x7d and a \x7b\x7d"

def combined (op : LogicOp) (operands : List Value) : Build Value := do
  match op with
  | .isIn =>
    match operands[1]? with
    | none => fault .outOfRange
    | some whole => require [[.ofList], [.ofString]] [whole] "\x7b\x7d is not a container"
  | _ => requireTruths operands
  ofExcept (op.apply operands)

/-- An operation whose operator is not known fails, but only after its operands have been
checked. -/
def unknownOperation (family : Family) (operands : List Value) : Build Value := do
  match family with
  | .arith => requireNumbers operands
  | .compare =>
    if operands.length ≠ 2 then fault .badValue
    requireComparable [[.ofNumber, .ofNumber]] operands
  | .logic => requireTruths operands
  fault .missingField

mutual

def expression (d : Dialect) : Expr → Build Value
  | .value v => pure v
  | .truth b => pure (match d with
    | .script => Value.truthBlock b
    | .setup => .bool b)
  | .list items => do return .list (← expressions d items)
  | .name pos n => do
    moveTo pos
    match d with
    | .script => variableValue n
    | .setup => constantValue n
  | .attr pos object n => do
    moveTo pos
    match d with
    | .script => attributeValue pos object n
    | .setup => fault .unboundResult
  | .index pos target index => do
    moveTo pos
    let t ← expression d target
    let i ← expression d index
    indexed t i
  | .call pos f arguments => do
    moveTo pos
    match d with
    | .script => callValue f (← expressions d arguments)
    | .setup => fault .unboundResult
  | .concat pos operands => do
    moveTo pos
    concatenated (← expressions d operands)
  | .arith pos op operands => do
    moveTo pos
    calculated op (← expressions d operands)
  | .compare pos op operands => do
    moveTo pos
    compared op (← expressions d operands)
  | .logic pos op operands => do
    moveTo pos
    combined op (← comparands d operands)
  | .unknown pos family operands => do
    moveTo pos
    match family with
    | .logic => unknownOperation family (← comparands d operands)
    | _ => unknownOperation family (← expressions d operands)
  | .malformed pos f => do
    moveTo pos
    fault f

def expressions (d : Dialect) : List Expr → Build (List Value)
  | [] => pure []
  | e :: rest => do
    let v ← expression d e
    let vs ← expressions d rest
    return v :: vs

/-- The operands of a logical operator. A truth value among them is not yet turned into
a comparison, because the operator may need no block for it. -/
def comparands (d : Dialect) : List Expr → Build (List Value)
  | [] => pure []
  | .truth b :: rest => do return .bool b :: (← comparands d rest)
  | e :: rest => do
    let v ← expression d e
    let vs ← comparands d rest
    return v :: vs

end

def condition (e : Expr) : Build Value := do
  let v ← expression .script e
  require [[.ofBoolean]] [v] "Condition must be a boolean, not a \x7b\x7d"
  return v

end BlockScript.Build
