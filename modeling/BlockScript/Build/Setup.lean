import BlockScript.Build.Statement

/-!
Building a setup: its globals are evaluated in order, each with the values of those
before it.
-/
namespace BlockScript.Build

/-- Declares a global. Its name may be taken only by a global whose value counts as
absent. -/
def addGlobal (g : Global) : Build Unit := do
  moveTo g.pos
  let v ← expression .setup g.value
  match Assoc.get? g.name (← get).constants with
  | some before => if before.truthy then reject .redeclaredGlobal
  | none => pure ()
  checkAssignment (some (.typed g.type)) v
  let _ ← addData .stage (globalName g.name) (.typed g.type) v true
  modify fun s => { s with constants := Assoc.put g.name v s.constants }

def globals (gs : List Global) : Build Unit := do
  modify fun s => { s with constants := [] }
  gs.forM addGlobal

/-- Applies a setup; `folder` gives the project its name if the setup does not. -/
def setup (folder : String) (s : Setup) : Build Unit := do
  let filename := match s.file with
    | .named _ filename => filename
    | _ => folder ++ Draft.extension
  modifyDraft fun d => { d with filename }
  globals s.globals

end BlockScript.Build
