import BlockScript.Build.Project
import BlockScript.CommandLine

/-!
A whole run of the compiler: the setup, the stage and the sprites of a folder are read,
built and saved as one project. What is missing from the folder is reported and left
out.
-/
namespace BlockScript

namespace Build

def info (text : String) : Build Unit := log .info text

def warn (text : String) : Build Unit := log .warning text

def openSource (folder : Location) (path : String) : Build Unit := do
  let path := path.map fun c => if c == '\\' then '/' else c
  let text ← ofExcept (folder.read path)
  modify fun s => { s with session := s.session.register path text }
  debug ("  Opened file \"" ++ path ++ "\"")

def currentText : Build String := do ofExcept (← get).session.content

def closeSource : Build Unit := do
  let session ← ofExcept (← get).session.close
  modify fun s => { s with session }

def readSetup (folder : Location) : Build Unit := do
  debug "Applying setup"
  if folder.contains "setup.sbc" then
    openSource folder "setup.sbc"
    setup folder.name (← parseSetup)
    closeSource
    info "Setup applied"
  else warn "Setup file not found"

def readStage (folder : Location) : Build Unit := do
  debug "Adding stage"
  if folder.contains "stage.sbs" then
    openSource folder "stage.sbs"
    addStage folder (← parseScript)
    closeSource
  else warn "Stage not found"

def baseName (path : String) : String := (Location.splitPath path).2

def readSprite (folder : Location) (path : String) : Build Unit := do
  debug ("Adding sprite from \"" ++ path ++ "\"")
  openSource folder path
  let name ← addSprite folder (← parseScript) (baseName path)
  closeSource
  info ("Added sprite \"" ++ name ++ "\"")

def readSprites (folder : Location) : Build Unit := do
  debug "Searching for sprite folder"
  if folder.contains "sprites" then
    debug "Gathering sprites"
    let paths := folder.search "sprites/*.sbs"
    if paths.isEmpty then warn "Sprites folder exists but contains no sprites"
    debug "Adding sprites"
    paths.forM (readSprite folder)
  else warn "Sprites folder not found"

/-- Compiles the project in a folder. There is no way to show the result afterwards, so
to ask for it is a fault. -/
def compile (location : Location) (o : Options) : Build Unit := do
  debug ("Changing running directory to " ++ o.path)
  let folder ← ofExcept (location.enter o.path)
  modifyDraft fun _ => Draft.fresh folder.name
  readSetup folder
  readStage folder
  readSprites folder
  debug "Building project"
  project
  info "Project built"
  debug "Saving project"
  let filename ← save o.filename
  info ("Project saved as \"" ++ filename ++ "\"")
  if o.openAfter then fault .noSuchProperty

end Build

/-- What a run prints, why it ended early if it did, and what it saved. -/
structure Run where
  output : String
  failure : Option Failure
  saved : List (String × Project)

namespace Run

def ofResult {α : Type} (result : EStateM.Result Failure BuildState α) : Run :=
  match result with
  | .ok _ s => ⟨s.session.console.output, none, s.saved⟩
  | .error failure s => ⟨s.session.console.output, some failure, s.saved⟩

/-- The message about a path that leads nowhere. It is shown before any option takes
effect. -/
def missingPath (path : String) : Failure :=
  .exited (Level.error.label ++ Colour.reset ++ " The provided path (\"" ++ path ++
    "\") does not exist")

def compile (location : Location) (arguments : List String) : Run :=
  match CommandLine.parse arguments with
  | none => ⟨"", some .usage, []⟩
  | some o =>
    if !location.contains o.path then ⟨"", some (missingPath o.path), []⟩
    else ofResult ((Build.compile location o).run
      (BuildState.fresh (Session.fresh (some o.level) o.colour) ""))

end Run

end BlockScript
