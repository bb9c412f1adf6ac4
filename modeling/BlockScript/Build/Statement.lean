import BlockScript.Build.Expression

/-!
Compiling statements. Each statement adds blocks to the script being written; the
statements inside loops and branches are compiled to scripts of their own, which become
arguments of the block around them.
-/
namespace BlockScript.Build

def checkAssignment (type : Option DataType) (v : Value) : Build Unit := do
  let wanted := type.bind fun
    | .typed t => some t
    | .message => none
  let types := [type, ← ofExcept v.type?]
  match ← ofExcept (Typing.problem? [[wanted, wanted]] types
      "Cannot assign a \x7b1\x7d value to a \x7b0\x7d") with
  | some p => reject p
  | none => return ()

/-- Assigns a value: a list is cleared and filled anew. -/
def assign (d : Data) (v : Value) : Build Unit := do
  checkAssignment (some d.type) v
  if d.type == .typed .ofList then
    emit (.op .clearList [.data d])
    match v with
    | .list items => emitAll (items.map fun item => .op .addToList [item, .data d])
    | _ => fault .typeMismatch
  else emit (.op .setVariable [.data d, v])

/-- The value a variable starts with; a union of types has none. -/
def startValue? (type : TypeSet) : Option Expr :=
  if type = .ofNumber then some (.int 0)
  else if type = .ofString ∨ type = .general then some (.str "")
  else if type = .ofBoolean then some (.truth false)
  else if type = .ofList then some (.list [])
  else none

/-- The value that is stored for a literal. -/
def storedValue : Expr → Value
  | .value v => v
  | .truth b => .bool b
  | .list _ => .list []
  | _ => .null

def requireUnused (target : Expr) : Build String := do
  let name ← ofExcept target.plainName
  if (← find? (.ofName name)).isSome then reject .redeclaredVariable
  return name

def declareVariable (target : Expr) (type : TypeSet) (value : Option Expr) (constant : Bool) :
    Build Unit := do
  let name ← requireUnused target
  match value.or (startValue? type) with
  | none => fault .unboundResult
  | some e =>
    let v ← expression .script e
    match startValue? type with
    | none => fault .unboundResult
    | some start => assign (← addVariable name type (storedValue start) constant) v

def startLoop : Stmt → Build Unit
  | .declare _ target type value constant => declareVariable target type value constant
  | .assign _ target _ | .update _ _ target _ => do
    let _ ← requireUnused target
    fault .missingField
  | .shared _ target _ _ => do
    let _ ← requireUnused target
    fault .missingField
  | .bare _ => fault .typeMismatch
  | .malformed _ _ f => fault f
  | _ => fault .missingField

def requireMutable (d : Data) : Build Unit := do
  if d.constant then reject .constantAssignment

def requireLiteralIndex (index : Value) : Build Unit :=
  match index with
  | .int n => if n < 0 then reject .literalIndex else pure ()
  | .float _ => reject .literalIndex
  | _ => pure ()

def assignItem (target index value : Expr) : Build Unit := do
  let t ← expression .script target
  match t with
  | .data d => requireMutable d
  | _ => fault .noSuchProperty
  let i ← expression .script index
  let v ← expression .script value
  require [[.ofList], [.ofString]] [t] "Index target must be a string/list, not a \x7b\x7d"
  require [[.ofNumber]] [i] "Index must be a number, not a \x7b\x7d"
  requireLiteralIndex i
  requireScript
  emit (.op .replaceInList [← ofExcept (i.add (.int 1)), t, v])

def assignAttribute (target : Expr) (v : Value) : Build Unit := do
  let b ← builtin .attr Builtins.setters target
  requireScript
  emit (← ofOutcome (b.apply [v]))

def assignTo (target value : Expr) : Build Unit := do
  moveTo (← ofExcept target.position)
  let v ← expression .script value
  match target with
  | .attr _ _ _ => assignAttribute target v
  | .index _ list index => assignItem list index value
  | _ =>
    match ← find? (.ofName (← ofExcept target.plainName)) with
    | none => reject .undeclaredAssignment
    | some d =>
      requireMutable d
      assign d v

def updateVariable (op : UpdateOp) (name : String) (operand : Value) : Build Unit := do
  let d ← variableNamed name
  requireMutable d
  let v ← ofExcept (op.apply (.data d) operand)
  checkAssignment (some d.type) v
  emit (.op .setVariable [.data d, v])

def updateItem (op : UpdateOp) (target index : Expr) (operand : Value) : Build Unit := do
  let d ← variableNamed (← ofExcept target.plainName)
  requireMutable d
  let i ← expression .script index
  let place ← ofExcept (i.add (.int 1))
  require [[.ofList]] [.data d] "Index target must be a list, not a \x7b\x7d"
  let v ← ofExcept (op.apply (.op .itemOfList [place, .data d]) operand)
  emit (.op .replaceInList [place, .data d, v])

def updateAttribute (op : UpdateOp) (target : Expr) (operand : Value) : Build Unit := do
  let setter ← builtin .attr Builtins.setters target
  match Builtins.reporters.resolve target with
  | some (.entry entry) =>
    let current ← ofOutcome (entry.builtin.apply [])
    let v ← ofExcept (op.apply current operand)
    checkAssignment (← ofExcept current.type?) v
    requireScript
    emit (← ofOutcome (setter.apply [v]))
  | _ => fault .typeMismatch

def update (op : UpdateOp) (target operand : Expr) : Build Unit := do
  let v ← expression .script operand
  match target with
  | .name _ n => updateVariable op n v
  | .index _ list index => updateItem op list index v
  | .attr _ _ _ => updateAttribute op target v
  | .value _ | .truth _ | .list _ => fault .typeMismatch
  | .malformed _ .missingField => fault .missingField
  | _ => return ()

/-- The value as the name of a broadcast. Blocks and lists cannot name one. -/
def requireBroadcastName (v : Value) : Build Unit :=
  match v with
  | .list _ => fault .typeMismatch
  | _ => if v.isBlock then fault .typeMismatch else pure ()

def broadcastNamed (name : Value) : Build Broadcast := do
  requireBroadcastName name
  match (← get).draft.broadcasts.find? fun b => b.name.same name with
  | some b => return b
  | none =>
    let text ← ofExcept name.textString
    let message ← addData .stage ("br_" ++ text) .message (.str "") false
    let b : Broadcast := ⟨name, message⟩
    modifyDraft fun d => { d with broadcasts := d.broadcasts ++ [b] }
    debug ("    Created new broadcast \"" ++ text ++ "\"")
    return b

/-- Stores the message of a broadcast and gives the argument that its block takes. -/
def storeMessage (arguments : List Value) : Build (List Value) := do
  match arguments with
  | [] => fault .outOfRange
  | name :: rest =>
    let b ← broadcastNamed name
    emit (.op .setVariable [.data b.message, rest.headD (.str "")])
    return [.broadcast b.name]

def isBroadcast : Expr → Bool
  | .attr _ object name => object.isText "scratch" && Text.beginsWith "broadcast" name
  | _ => false

inductive Callee
  | builtin (b : Builtin)
  | custom (signature : Signature)
  | unknown

def Callee.apply : Callee → List Value → Build Value
  | builtin b, arguments => ofOutcome (b.apply arguments)
  | custom signature, arguments => pure (.call signature.label arguments)
  | unknown, _ => reject (.notFound .function)

def customCallee (f : Expr) (given : Nat) : Build Callee := do
  match f with
  | .value _ | .truth _ | .list _ => fault .noSuchProperty
  | .name _ n =>
    match Assoc.get? n (← get).frame.functions with
    | none => return .unknown
    | some function =>
      match function.signature with
      | none => fault .missingField
      | some signature =>
        checkCount 0 signature.parameters given
        return .custom signature
  | _ => return .unknown

def calleeOf (f : Expr) (given : Nat) : Build Callee := do
  match ← builtin? .function Builtins.functions f with
  | some b =>
    checkArity b given
    return .builtin b
  | none => customCallee f given

/-- The object of a name after a point, as a key. What has no object looks for a
variable called after nothing. -/
def objectKey : Expr → Key
  | .attr _ object _ => .ofExpr object
  | _ => ⟨some Value.null.plainText, none⟩

/-- A function of a variable, such as one that changes a list. -/
def changeVariable (f : Expr) (arguments : List Value) (d : Data) : Build Unit := do
  requireScript
  match f with
  | .attr pos object name => emit (← member .function pos object name arguments d)
  | _ => fault .missingField

def callKnown (f : Expr) (callee : Callee) (arguments : List Value) : Build Unit := do
  match f with
  | .value _ | .truth _ | .list _ => fault .typeMismatch
  | .malformed _ .missingField => fault .missingField
  | _ =>
    let arguments ← if isBroadcast f then storeMessage arguments else pure arguments
    match callee with
    | .unknown => reject (.notFound .function)
    | _ =>
      requireScript
      emit (← callee.apply arguments)

def callStatement (f : Expr) (arguments : List Expr) : Build Unit := do
  let values ← expressions .script arguments
  let callee ← calleeOf f values.length
  match callee with
  | .unknown =>
    match ← find? (objectKey f) with
    | some d => changeVariable f values d
    | none => callKnown f callee values
  | _ => callKnown f callee values

def storeResult (output : Option Data) (e : Expr) : Build Unit := do
  let v ← expression .script e
  match output with
  | none => if v.truthy then reject .noReturnType else fault .typeMismatch
  | some d =>
    let wanted := match d.type with
      | .typed t => some t
      | .message => none
    match ← ofExcept (Typing.problem? [[wanted, wanted]] [some d.type, ← ofExcept v.type?]
        "Return type must be a \x7b\x7d, not a \x7b\x7d") with
    | some p => reject p
    | none => emit (.op .setVariable [.data d, v])

def giveBack (value : Option Expr) : Build Unit := do
  let f := (← get).frame
  match value with
  | some e =>
    if f.building != "" then
      match Assoc.get? f.building f.functions with
      | some function => storeResult function.output e
      | none => fault .missingField
  | none => pure ()
  emit (.op .stop [.str "this_script"])

mutual

def statement : Stmt → Build Unit
  | .declare pos target type value constant => do
    moveTo pos
    declareVariable target type value constant
  | .assign pos target value => do
    moveTo pos
    assignTo target value
  | .update pos op target operand => do
    moveTo pos
    update op target operand
  | .call pos f arguments => do
    moveTo pos
    callStatement f arguments
  | .ifThen pos c body => do
    moveTo pos
    let c ← condition c
    let body ← inScript true (statements body)
    emit (.op .ifThen (c :: body))
  | .ifElse pos c body alternative => do
    moveTo pos
    let c ← condition c
    let body ← inScript true (statements body)
    let alternative ← inScript true (statements alternative)
    emit (.block .ifThen (c :: body) none (some alternative))
  | .whileLoop pos c body => do
    moveTo pos
    let body ← inScript true (statements body)
    match c with
    | .truth true => emit (.op .forever body)
    | _ =>
      let c ← condition c
      requireScript
      emit (.op .repeatUntil ((← ofExcept c.logicalNot) :: body))
  | .forLoop pos start c next body => do
    moveTo pos
    enterScope
    startLoop start
    let body ← inScript false (do
      statements body
      statement next)
    let c ← condition c
    requireScript
    emit (.op .repeatUntil ((← ofExcept c.logicalNot) :: body))
    exitScope
  | .giveBack pos value => do
    moveTo pos
    giveBack value
  | .shared pos _ _ _ | .function pos _ _ _ _ _ | .hat pos _ _ _ => do
    moveTo pos
    fault .unboundResult
  | .bare _ => fault .typeMismatch
  | .malformed pos part f => do
    moveTo pos
    fault (if part == .hat || part == .function then .unboundResult else f)

def statements : List Stmt → Build Unit
  | [] => pure ()
  | s :: rest => do
    statement s
    statements rest

end

/-- Compiles statements to a script, in a scope of its own if asked to. -/
def script (ownScope : Bool) (body : List Stmt) : Build (List Value) :=
  inScript ownScope (statements body)

end BlockScript.Build
