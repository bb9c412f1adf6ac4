import BlockScript.Build.Statement

/-!
Building all that belongs to one target: its variables, then its functions, which
become custom blocks, and then its hats, each of which starts a script.
-/
namespace BlockScript.Build

/-- A variable of a whole target. It must start with a literal. -/
def addShared (target : Expr) (type : Option TypeSet) (value : Expr) : Build Unit := do
  let v ← match value with
    | .truth b => pure (.bool b)
    | e => expression .script e
  let computed := match v with
    | .list items => items.any Value.isBlock
    | _ => v.isBlock
  if computed then
    moveTo (← ofExcept value.position)
    reject .computedLocal
  let name ← ofExcept target.plainName
  match type with
  | none => fault .missingField
  | some t => let _ ← addVariable name t v false

def shareVariable : Stmt → Build Unit
  | .shared _ target type value => addShared target type value
  | .declare _ target type value _ => addShared target (some type) (value.getD (.value .null))
  | .assign _ target value => addShared target none value
  | .bare _ => fault .typeMismatch
  | .malformed _ _ f => fault f
  | _ => fault .missingField

/-- The label of a custom block: the name, and a place for each parameter. -/
def blockLabel (name : String) (parameters : Nat) : String :=
  String.ofList (Text.trimBy Text.isBlank
    (name.toList ++ ' ' :: (List.replicate parameters ['%', 's', ' ']).flatten))

/-- Copies the parameters of a block, from an index on, to variables of the current
scope. -/
def copyParameters (label : String) (index : Nat) : List String → Build (List Value)
  | [] => pure []
  | name :: rest => do
    let d ← addVariable name .general (.str "") false
    let blocks ← copyParameters label (index + 1) rest
    return .op .setVariable [.data d, .parameter index label] :: blocks

def addOutput (name : String) (type : TypeSet) : Build Data := do
  let start := if ← inSprite then "fo_" else "bfo_"
  addData .stage (start ++ name) (.typed type) (.str "") true

def setFunction (name : String) (f : Function) : Build Unit :=
  modifyFrame fun frame => { frame with functions := Assoc.put name f frame.functions }

/-- Builds a function: a custom block that copies its parameters and runs the body. -/
def addFunction (returns : Option TypeSet) (name : String) (parameters : List String) (warp : Bool)
    (body : List Stmt) : Build Unit := do
  let place := (← get).frame.place
  let label := blockLabel name parameters.length
  let index := (((← get).draft.project.target? place).map fun t => t.custom.length).getD 0
  modifyTarget place (·.addCustom ⟨label, warp, none⟩)
  enterScope
  let copies ← copyParameters label 0 parameters
  let output ← match returns with
    | some type => some <$> addOutput name type
    | none => pure none
  setFunction name ⟨output, none⟩
  modifyFrame fun f => { f with building := name }
  let blocks ← script false body
  modifyFrame fun f => { f with building := "" }
  modifyTarget place (·.setScript index (copies ++ blocks))
  setFunction name ⟨output, some ⟨label, parameters.length⟩⟩
  exitScope

def functionOf : Stmt → Build Unit
  | .function _ returns name parameters warp body => addFunction returns name parameters warp body
  | .bare _ => fault .typeMismatch
  | .malformed _ _ f => fault f
  | _ => fault .missingField

def addPending (script : List Value) : Build Unit :=
  modifyFrame fun f => { f with pending := f.pending ++ [script] }

/-- A script that starts when a key is let go: it starts when the key is pressed, and
waits. -/
def addKeyRelease (arguments : List Expr) (body : List Stmt) : Build Unit := do
  match arguments with
  | [] => fault .outOfRange
  | key :: _ =>
    let key ← expression .script key
    let blocks ← script true body
    addPending (.op .whenKeyPressed [key] ::
      .op .waitUntil [.op .not [.op .keyPressed [key]]] :: blocks)

/-- A broadcast's name in a hat, which is taken as it is written. -/
def writtenName : Expr → Build Value
  | .value v => pure v
  | .truth b => pure (.bool b)
  | _ => fault .typeMismatch

/-- The variable for the message, in the current scope, with the block that sets it. -/
def receiveMessage (name : Option String) (message : Data) : Build (List Value) := do
  match name with
  | none | some "" => return []
  | some name =>
    let d ← addVariable name .general (.str "") false
    return [.op .setVariable [.data d, .data message]]

def addReceiver (arguments : List Expr) (body : List Stmt) : Build Unit := do
  match arguments with
  | [] => fault .outOfRange
  | written :: rest =>
    let message ← match rest with
      | [] => pure none
      | e :: _ => some <$> ofExcept e.plainName
    let b ← broadcastNamed (← writtenName written)
    enterScope
    let setter ← receiveMessage message b.message
    let blocks ← script false body
    addPending (.op .whenBroadcastReceived [.broadcast b.name] :: setter ++ blocks)
    exitScope

def addPlainHat (op : Opcode) (arguments : List Expr) (body : List Stmt) : Build Unit := do
  let hat ← ofExcept (Value.apply op (← expressions .script arguments))
  let blocks ← script true body
  addPending (hat :: blocks)

def addHat (event : Expr) (arguments : List Expr) (body : List Stmt) : Build Unit := do
  match event with
  | .attr _ _ name =>
    if name == "on_keyrelease" then addKeyRelease arguments body
    else match Builtins.hats.resolve event with
      | some (.entry .whenBroadcastReceived) => addReceiver arguments body
      | some (.entry op) => addPlainHat op arguments body
      | _ => reject .hatNotFound
  | .value _ | .truth _ | .list _ => fault .typeMismatch
  | _ => fault .missingField

def hatOf : Stmt → Build Unit
  | .hat pos event arguments body => do
    moveTo pos
    addHat event arguments body
  | .bare _ => fault .typeMismatch
  | .malformed pos _ f => do
    moveTo pos
    fault f
  | _ => fault .missingField

/-- Stops if something that is no statement stands among the statements. -/
def checkParts : List Stmt → Build Unit
  | [] => pure ()
  | .bare _ :: _ => fault .typeMismatch
  | .malformed _ .unknown f :: _ => fault f
  | _ :: rest => checkParts rest

def counted (verb : String) (n : Nat) (noun : String) : String :=
  "  " ++ verb ++ " " ++ Decimal.writeInt n ++ " " ++ noun ++ Problem.plural n

def target (body : List Stmt) : Build Unit := do
  checkParts body
  let shares := body.filter fun s => s.part == .shared
  let functions := body.filter fun s => s.part == .function
  let hats := body.filter fun s => s.part == .hat
  shares.forM shareVariable
  debug (counted "Added" shares.length "targetwide variable")
  functions.forM functionOf
  debug (counted "Built" functions.length "function")
  hats.forM hatOf
  debug (counted "Built" hats.length "hat")
  let f := (← get).frame
  f.pending.forM fun script => modifyTarget f.place (·.addScript script)

end BlockScript.Build
