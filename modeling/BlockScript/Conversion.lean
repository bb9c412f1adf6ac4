import BlockScript.Decimal.Reader
import BlockScript.Operator
import BlockScript.Typing

/-!
The conversions between numbers, texts and truth values. A literal is converted at
once; a block keeps its arguments and is given another type.
-/
namespace BlockScript

inductive Refusal
  | fault (f : Fault)
  | problem (p : Problem)
  deriving Repr

abbrev Outcome (α : Type) := Except Refusal α

namespace Outcome

def ofFault {α : Type} : Except Fault α → Outcome α
  | .ok a => .ok a
  | .error f => .error (.fault f)

def require (allowed : List (List TypeSet)) (operands : List Value) (template : String) :
    Outcome Unit := do
  match ← ofFault (Typing.check allowed operands template) with
  | none => return ()
  | some p => throw (.problem p)

end Outcome

namespace Value

open Outcome

def announcedBase? (text : List Char) : Option Nat :=
  match text.take 2 |>.map Text.lowerAscii with
  | ['0', 'b'] => some 2
  | ['0', 'o'] => some 8
  | ['0', 'x'] => some 16
  | _ => none

def numberOfText? (text : List Char) : Option Value :=
  match announcedBase? text with
  | some base => (Decimal.readBase? base text).map fun n => int n
  | none => (Decimal.read? text).map float

def retyped (v : Value) (t : TypeSet) : Outcome Value := ofFault (v.retype t)

def typeText (v : Value) : Outcome String := do
  return Typing.typeName (← ofFault v.type?)

def toNumber (v : Value) : Outcome Value := do
  require [[.ofNumber], [.ofString], [.ofBoolean]] [v] "Cannot convert a \x7b\x7d to a number"
  if v.isBlock then v.retyped .ofNumber
  else match v with
    | bool b => return int (if b then 1 else 0)
    | int _ | float _ => return v
    | str s =>
      match numberOfText? s.toList with
      | some n => return n
      | none => throw (.problem (.notConvertible "string" "number"))
    | _ => throw (.problem (.notConvertible (← v.typeText) "number"))

def toText (v : Value) : Outcome Value := do
  require [[.ofNumber], [.ofString]] [v] "Cannot convert a \x7b\x7d to a string"
  if v.isBlock then v.retyped .ofString else return str (← ofFault v.textString)

def toBoolean (v : Value) : Outcome Value := do
  require [[.ofNumber], [.ofString], [.ofBoolean], [.ofList]] [v]
    "Cannot convert a \x7b\x7d to a boolean"
  match v with
  | bool _ | int _ | float _ | str _ => return truthBlock v.truthy
  | _ =>
    if v.isBlock then
      match ← ofFault v.type? with
      | some (.typed t) =>
        if t = .ofNumber then return op .not [op .equals [v, int 0]]
        else if t = .ofString then return op .greaterThan [op .lengthOf [v], int 0]
        else if t = .ofList then return op .greaterThan [op .listLength [v], int 0]
        else if t = .general then throw (.problem .generalToBoolean)
        else return v
      | _ => return v
    else return v

/-- One item of a list, or one letter of a text, picked at random. -/
def randomChoice (v : Value) : Outcome Value :=
  match v with
  | data d =>
    if d.isList then
      .ok (block .itemOfList [op .pickRandom [int 1, op .listLength [v]], v] (some .general) none)
    else .ok (letter v)
  | _ => .ok (letter v)
where
  letter (v : Value) : Value := op .letterOf [op .pickRandom [int 1, op .lengthOf [v]], v]

end Value

end BlockScript
