import BlockScript.Build.Scope

/-!
What names stand for in scripts: members of variables, names known from the start, and
functions defined in the script.
-/
namespace BlockScript.Build

def checkCount (optional required given : Int) : Build Unit :=
  if optional = 0 then
    if given = required then pure () else reject (.argumentCount optional required given)
  else if required ≤ given ∧ given ≤ required + optional then pure ()
  else reject (.argumentCount optional required given)

def checkArity (b : Builtin) (given : Nat) : Build Unit :=
  checkCount b.arity.2 b.arity.1 given

/-- An entry that is used in a script. Only sprites can use some of them. -/
def useEntry (role : Role) (entry : Entry) : Build Builtin := do
  if entry.spriteOnly && !(← inSprite) then reject (.spriteOnly role)
  return entry.builtin

/-- A table where an entry is needed. A table of two names is taken for an entry that
only sprites can use, and then cannot be used. -/
def useTable (role : Role) (size : Nat) : Build Builtin := do
  if size ≠ 2 then fault .badValue
  else if !(← inSprite) then reject (.spriteOnly role)
  else fault .typeMismatch

/-- What an expression stands for in a table, if it stands for anything. -/
def builtin? (role : Role) (table : EntryTable) (e : Expr) : Build (Option Builtin) := do
  match table.resolve e with
  | none => return none
  | some (.entry entry) => return some (← useEntry role entry)
  | some (.table names) => return some (← useTable role names.length)

def builtin (role : Role) (table : EntryTable) (e : Expr) : Build Builtin := do
  match ← builtin? role table e with
  | some b => return b
  | none =>
    match e.position with
    | .ok p => moveTo p
    | .error _ => pure ()
    reject (.notFound role)

/-- Where the name after a point starts. The name before it must be a plain word. -/
def afterPoint (pos : Position) (object : Expr) : Except Fault Position :=
  match pos, object with
  | .missing, _ => .error .missingField
  | .start n, .value (.str s) => .ok (.start (n + s.length + 1))
  | _, _ => .error .typeMismatch

/-- A member of a variable, with the arguments it is given. -/
def member (kind : Member) (pos : Position) (object : Expr) (name : String)
    (arguments : List Value) (d : Data) : Build Value := do
  let type := d.type.name
  let table ← ofExcept (MemberAction.tableOf type kind)
  match Assoc.get? name table with
  | some action => ofExcept (action.apply arguments (.data d))
  | none =>
    moveTo (← ofExcept (afterPoint pos object))
    reject (.memberNotFound (MemberAction.title type) kind)

/-- Creates the variable that tells clones apart, with the two scripts that set it. -/
def addCloneFlag : Build Data := do
  let data : Data := ⟨"sg_is_clone", false, .typed .general, false⟩
  let place := (← get).frame.place
  modifyTarget place (·.addDatum ⟨data, .int 0⟩)
  modifyFrame fun f =>
    { f with
      cloneFlag := some data
      pending := f.pending ++
        [[.op .whenFlagClicked [], .op .setVariable [.data data, .int 0]],
          [.op .whenStartAsClone [], .op .setVariable [.data data, .int 1]]] }
  return data

def cloneFlag : Build Value := do
  if !(← inSprite) then reject (.spriteOnly .attr)
  match (← get).frame.cloneFlag with
  | some data => return .data data
  | none => return .data (← addCloneFlag)

def attributeValue (pos : Position) (object : Expr) (name : String) : Build Value := do
  match ← find? (.ofExpr object) with
  | some d => member .field pos object name [] d
  | none =>
    if object.isText "this" && name == "is_clone" then cloneFlag
    else
      let b ← builtin .attr Builtins.reporters (.attr pos object name)
      ofOutcome (b.apply [])

/-- A variable, where a value is needed. A truth value is compared with one, so that it
has the shape of a condition. -/
def variableValue (name : String) : Build Value := do
  let d ← variableNamed name
  return if d.type == .typed .ofBoolean then .op .equals [.data d, .int 1] else .data d

def constantValue (name : String) : Build Value := do
  match Assoc.get? name (← get).constants with
  | some v => return v
  | none => reject .variableNotFound

/-- A function of the script, where a value is needed: its block is run first, and its
result is then read from its variable. -/
def functionValue (f : Function) (arguments : List Value) : Build Value := do
  match f.output with
  | none => reject .noReturnType
  | some output =>
    match f.signature with
    | none => fault .missingField
    | some signature =>
      checkCount 0 signature.parameters arguments.length
      emit (.call signature.label arguments)
      return .data output

/-- A sprite among the arguments of a touching test is named by its own block. -/
def touchedSprite? (arguments : List Value) : Build (Option Value) := do
  match arguments with
  | [] => fault .outOfRange
  | .str s :: _ =>
    return if (Assoc.get? s (← get).draft.sprites).isSome then some (.target s) else none
  | .list _ :: _ => fault .typeMismatch
  | _ => return none

def builtinValue (f : Expr) (arguments : List Value) : Build Value := do
  let b ← builtin .function Builtins.functionReporters f
  checkArity b arguments.length
  match b with
  | .block .touchingObject =>
    match ← touchedSprite? arguments with
    | some sprite => return .op .touchingObject [sprite]
    | none => ofOutcome (b.apply arguments)
  | _ => ofOutcome (b.apply arguments)

def callValue (f : Expr) (arguments : List Value) : Build Value := do
  match f with
  | .value _ | .truth _ | .list _ => fault .typeMismatch
  | .malformed _ .missingField => fault .missingField
  | .name _ n =>
    match Assoc.get? n (← get).frame.functions with
    | some function => functionValue function arguments
    | none => builtinValue f arguments
  | .attr pos object n =>
    match ← find? (.ofExpr object) with
    | some d => member .method pos object n arguments d
    | none => builtinValue f arguments
  | _ => builtinValue f arguments

end BlockScript.Build
