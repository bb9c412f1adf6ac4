import BlockScript.Builtin
import BlockScript.Project
import BlockScript.Session

/-!
The state in which a project is built. A step of building may print, may change the
draft, and may stop with a failure; what was done before the failure stays done.
-/
namespace BlockScript

structure Signature where
  label : String
  parameters : Nat
  deriving DecidableEq, Repr

/-- A function: the variable that takes its result, and its block once the body is
built. -/
structure Function where
  output : Option Data
  signature : Option Signature

/-- What is kept while the scripts of one target are built. -/
structure Frame where
  place : Place
  lastScope : Nat
  /-- The scopes that are open, innermost first. -/
  scopes : List Nat
  currentScope : Nat
  functions : Assoc String Function
  /-- The function whose body is being built, or an empty name. -/
  building : String
  /-- The scripts being written, innermost first. -/
  unfinished : List (List Value)
  pending : List (List Value)
  /-- The variable that tells clones from the sprite they were made of. -/
  cloneFlag : Option Data

def Frame.fresh (place : Place) : Frame := ⟨place, 0, [0], 0, [], "", [], [], none⟩

structure BuildState where
  session : Session
  draft : Draft
  frame : Frame
  constants : Assoc String Value
  saved : List (String × Project)

def BuildState.fresh (session : Session) (folder : String) : BuildState :=
  ⟨session, Draft.fresh folder, Frame.fresh .stage, [], []⟩

abbrev Build := EStateM Failure BuildState

namespace Build

def fault {α : Type} (f : Fault) : Build α := throw (.fault f)

def reject {α : Type} (p : Problem) : Build α := do
  throw ((← get).session.diagnose p)

def ofExcept {α : Type} : Except Fault α → Build α
  | .ok a => pure a
  | .error f => fault f

def ofOutcome {α : Type} : Outcome α → Build α
  | .ok a => pure a
  | .error (.fault f) => fault f
  | .error (.problem p) => reject p

def require (allowed : List (List TypeSet)) (operands : List Value) (template : String) :
    Build Unit :=
  ofOutcome (Outcome.require allowed operands template)

def setPosition (p : Option Int) : Build Unit :=
  modify fun s => { s with session.position := p }

/-- Makes a position the current one; a tree without a position is at fault. -/
def moveTo : Position → Build Unit
  | .start n => setPosition (some n)
  | .nowhere => setPosition none
  | .missing => fault .missingField

def log (level : Level) (text : String) : Build Unit := do
  match ← ofExcept ((← get).session.console.line? level text) with
  | some line => modify fun s => { s with session.console := s.session.console.print line }
  | none => return ()

def debug (text : String) : Build Unit := log .debug text

def modifyDraft (f : Draft → Draft) : Build Unit := modify fun s => { s with draft := f s.draft }

def modifyFrame (f : Frame → Frame) : Build Unit := modify fun s => { s with frame := f s.frame }

def modifyTarget (place : Place) (f : Target → Target) : Build Unit :=
  modifyDraft fun d => { d with project := d.project.modify place f }

def inSprite : Build Bool := return (← get).frame.place.isSprite

end Build

end BlockScript
