import BlockScript.Build.State

/-!
Scopes, names and scripts under construction. A variable is stored under a full name
that begins with a letter for the kind of its target and, inside a scope, the number of
that scope. Every scope has a number of its own, so two variables of one name in
different scopes stay apart.
-/
namespace BlockScript.Build

def enterScope : Build Unit :=
  modifyFrame fun f =>
    let scope := f.lastScope + 1
    { f with lastScope := scope, scopes := scope :: f.scopes, currentScope := scope }

def exitScope : Build Unit := do
  match (← get).frame.scopes with
  | [] => fault .outOfRange
  | [_] =>
    modifyFrame fun f => { f with scopes := [] }
    fault .outOfRange
  | _ :: outer :: rest =>
    modifyFrame fun f => { f with scopes := outer :: rest, currentScope := outer }

def openScript (ownScope : Bool) : Build Unit := do
  if ownScope then enterScope
  modifyFrame fun f => { f with unfinished := [] :: f.unfinished }

def closeScript (ownScope : Bool) : Build (List Value) := do
  if ownScope then exitScope
  match (← get).frame.unfinished with
  | [] => fault .outOfRange
  | script :: rest =>
    modifyFrame fun f => { f with unfinished := rest }
    return script

def inScript (ownScope : Bool) (step : Build Unit) : Build (List Value) := do
  openScript ownScope
  step
  closeScript ownScope

def requireScript : Build Unit := do
  if (← get).frame.unfinished.isEmpty then fault .noSuchProperty

def emitAll (blocks : List Value) : Build Unit := do
  requireScript
  modifyFrame fun f => match f.unfinished with
    | [] => f
    | script :: rest => { f with unfinished := (script ++ blocks) :: rest }

def emit (block : Value) : Build Unit := emitAll [block]

def fullName (sprite : Bool) (scope : Nat) (name : String) : String :=
  (if sprite then "s" else "b") ++ (if scope = 0 then "" else Decimal.writeInt scope) ++ "_" ++ name

def globalName (name : String) : String := "g_" ++ name

def isGlobalName (name : String) : Bool := Text.beginsWith "g_" name || Text.beginsWith "br_" name

/-- Creates a variable or list on a target and records it under its full name. -/
def addData (place : Place) (name : String) (type : DataType) (value : Value) (constant : Bool) :
    Build Data := do
  let data : Data := ⟨name, type == .typed .ofList, type, constant⟩
  modifyTarget place (·.addDatum ⟨data, value⟩)
  if isGlobalName name then
    modifyDraft fun d => { d with globals := Assoc.put name data d.globals }
    debug ("    Created global " ++ type.name ++ " \"" ++ name ++ "\" ")
  else
    match (← get).draft.locals? place with
    | none => fault .missingField
    | some locals =>
      modifyDraft (·.setLocals place (Assoc.put name data locals))
      debug ("    Created local " ++ type.name ++ " \"" ++ name ++ "\" ")
  return data

def addVariable (name : String) (type : TypeSet) (value : Value) (constant : Bool) :
    Build Data := do
  let f := (← get).frame
  addData f.place (fullName f.place.isSprite f.currentScope name) (.typed type) value constant

/-- A name as it is looked up: the text it has in full names, and the name it equals if
it is a name at all. -/
structure Key where
  text : Option String
  name : Option String

namespace Key

def ofName (name : String) : Key := ⟨some name, some name⟩

def ofExpr : Expr → Key
  | .value (.str s) => ofName s
  | .value v =>
    if v.isBlock then ⟨none, none⟩
    else match v with
      | .null | .int _ | .float _ => ⟨some v.plainText, none⟩
      | _ => ⟨none, none⟩
  | .truth b => ⟨some (Value.bool b).plainText, none⟩
  | _ => ⟨none, none⟩

end Key

/-- How full names begin that belong to no scope. -/
def unscoped : List String := ["g_", "s_", "b_", "fo_", "bfo_"]

def decode? (full : String) : Except Fault (Int × String) :=
  let cs := full.toList
  let scope := cs.takeWhile (· != '_')
  match cs.dropWhile (· != '_') with
  | [] => .error .badValue
  | _ :: name =>
    match Decimal.readInt? (scope.drop 1) with
    | some n => .ok (n, String.ofList name)
    | none => .error .badValue

def findScoped (name : Option String) (scopes : List Nat) :
    Assoc String Data → Except Fault (Option Data)
  | [] => .ok none
  | (full, data) :: rest =>
    if unscoped.any (Text.beginsWith · full) then findScoped name scopes rest
    else do
      let (scope, own) ← decode? full
      if some own == name && scopes.any fun n => (n : Int) == scope then return some data
      else findScoped name scopes rest

/-- The variable that a key stands for: a global, else a variable of the target, else
one in an open scope. -/
def find? (key : Key) : Build (Option Data) := do
  let s ← get
  match key.text.bind fun t => Assoc.get? (globalName t) s.draft.globals with
  | some data => return some data
  | none =>
    match s.draft.locals? s.frame.place with
    | none => fault .missingField
    | some locals =>
      match key.text.bind fun t => Assoc.get? (fullName s.frame.place.isSprite 0 t) locals with
      | some data => return some data
      | none => ofExcept (findScoped key.name (s.frame.currentScope :: s.frame.scopes) locals)

def variableNamed (name : String) : Build Data := do
  match ← find? (.ofName name) with
  | some data => return data
  | none => reject .variableNotFound

end BlockScript.Build
