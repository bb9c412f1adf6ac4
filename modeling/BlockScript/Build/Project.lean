import BlockScript.Build.Declarations
import BlockScript.Build.Script
import BlockScript.Build.Setup
import BlockScript.Folder

/-!
Building a project: the stage and the sprites are added first, and then their scripts
are built in the order in which they were added. Costumes and sounds are searched for
in a folder.
-/
namespace BlockScript.Build

def parseScript : Build Script := do
  let (result, session) := (← get).session.parseScript
  modify fun s => { s with session }
  match result with
  | .ok script => return script
  | .error failure => throw failure

def parseSetup : Build Setup := do
  let (result, session) := (← get).session.parseSetup
  modify fun s => { s with session }
  match result with
  | .ok setup => return setup
  | .error failure => throw failure

def addAssetsAt (folder : Location) (kind : AssetKind) (place : Place) (path : Record) :
    Build Unit := do
  match path with
  | .value (.str pattern) =>
    (folder.search pattern).forM fun file => do
      modifyTarget place (·.addAsset ⟨kind, file⟩)
      debug ("  Added asset \"" ++ file ++ "\"")
  | _ => fault .typeMismatch

/-- The paths in a value; a text is read as a list of its characters. -/
def pathsOf : Record → Build (List Record)
  | .list paths => pure paths
  | .value (.str s) => pure (s.toList.map fun c => .str (String.ofList [c]))
  | _ => fault .typeMismatch

def addAssets (folder : Location) (kind : AssetKind) (place : Place) (paths : Record) :
    Build Unit := do
  (← pathsOf paths).forM (addAssetsAt folder kind place)

def spriteName : Record → Except Fault String
  | .value v => if v.isBlock then .error .typeMismatch else .ok v.plainText
  | _ => .error .typeMismatch

/-- The properties that a sprite is created with, in order. -/
def spriteProperties : List Property :=
  [.visible, .x, .y, .size, .direction, .draggable, .rotationStyle, .layer]

def addSprite (folder : Location) (script : Script) (filename : String) : Build String := do
  let properties ← declarations script.declarations filename false
  let name := spriteName (properties.get .name)
  let index := (← get).draft.project.sprites.length
  let sprite := Target.fresh (name.toOption.getD "") (spriteProperties.map properties.get)
  modifyDraft fun d => { d with project.sprites := d.project.sprites ++ [sprite] }
  addAssets folder .costume (.sprite index) (properties.get .costume)
  addAssets folder .sound (.sprite index) (properties.get .sound)
  let name ← ofExcept name
  modifyDraft fun d =>
    { d with sprites := Assoc.put name ⟨index, filename, script.statements, []⟩ d.sprites }
  return name

def addStage (folder : Location) (script : Script) : Build Unit := do
  let properties ← declarations script.declarations "stage.sbs" true
  addAssets folder .costume .stage (properties.get .costume)
  addAssets folder .sound .stage (properties.get .sound)
  modifyDraft fun d => { d with stageStatements := script.statements }

def buildTarget (place : Place) (file : String) (body : List Stmt) : Build Unit := do
  modify fun s => { s with session.current := some file, frame := Frame.fresh place }
  target body

def buildStage : Build Unit := do
  let body := (← get).draft.stageStatements
  if body.isEmpty then log .warning "  No scripts were found in the stage"
  else
    buildTarget .stage "stage.sbs" body
    debug "  Built scripts in stage"

def buildSprite (name : String) (entry : SpriteEntry) : Build Unit := do
  buildTarget (.sprite entry.index) ("sprites/" ++ entry.filename) entry.statements
  debug ("  Built scripts in sprite \"" ++ name ++ "\"")

def project : Build Unit := do
  buildStage
  (← get).draft.sprites.forM fun (name, entry) => buildSprite name entry

/-- Saves the project, under its own name if none is given. -/
def save (filename : Option String) : Build String := do
  let d := (← get).draft
  let name := match filename with
    | none | some "" => d.filename
    | some name => name
  modify fun s => { s with saved := s.saved ++ [(name, d.project)] }
  return name

end BlockScript.Build
