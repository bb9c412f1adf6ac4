import BlockScript.Assoc
import BlockScript.Expr

/-!
A finished project, and a draft of one. A project is a stage and its sprites, each with
its own variables, custom blocks and scripts. A draft also keeps what is needed while
scripts are compiled: which variable goes by which name, which broadcasts there are,
and which scripts still wait to be built.
-/
namespace BlockScript

inductive AssetKind
  | costume
  | sound
  deriving DecidableEq, Repr

def AssetKind.name : AssetKind → String
  | costume => "costume"
  | sound => "sound"

structure Asset where
  kind : AssetKind
  path : String
  deriving DecidableEq, Repr

structure Datum where
  data : Data
  value : Value

/-- A custom block; it has no script until its body is built. -/
structure CustomBlock where
  label : String
  warp : Bool
  script : Option (List Value)

structure Target where
  name : String
  properties : List Record
  assets : List Asset
  data : List Datum
  custom : List CustomBlock
  scripts : List (List Value)

namespace Target

instance : Inhabited Target := ⟨⟨"", [], [], [], [], []⟩⟩

def fresh (name : String) (properties : List Record) : Target :=
  ⟨name, properties, [], [], [], []⟩

def addAsset (t : Target) (a : Asset) : Target := { t with assets := t.assets ++ [a] }

def addDatum (t : Target) (d : Datum) : Target := { t with data := t.data ++ [d] }

def addCustom (t : Target) (c : CustomBlock) : Target := { t with custom := t.custom ++ [c] }

def addScript (t : Target) (script : List Value) : Target :=
  { t with scripts := t.scripts ++ [script] }

def setScript (t : Target) (index : Nat) (script : List Value) : Target :=
  { t with custom := t.custom.modify index fun c => { c with script := some script } }

end Target

inductive Place
  | stage
  | sprite (index : Nat)
  deriving DecidableEq, Repr

def Place.isSprite : Place → Bool
  | stage => false
  | sprite _ => true

structure Project where
  stage : Target
  sprites : List Target

namespace Project

def empty : Project := ⟨Target.fresh "Stage" [], []⟩

/-- The stage and then the sprites in the order in which they were added. -/
def targets (p : Project) : List Target := p.stage :: p.sprites

def target? (p : Project) : Place → Option Target
  | .stage => some p.stage
  | .sprite i => p.sprites[i]?

def modify (p : Project) (place : Place) (f : Target → Target) : Project :=
  match place with
  | .stage => { p with stage := f p.stage }
  | .sprite i => { p with sprites := p.sprites.modify i f }

end Project

structure Broadcast where
  name : Value
  message : Data

/-- A sprite of a draft: where it is in the project, the file it comes from, its
statements, and the variables of its own by their full names. -/
structure SpriteEntry where
  index : Nat
  filename : String
  statements : List Stmt
  locals : Assoc String Data

structure Draft where
  project : Project
  filename : String
  broadcasts : List Broadcast
  globals : Assoc String Data
  stageLocals : Assoc String Data
  stageStatements : List Stmt
  sprites : Assoc String SpriteEntry

namespace Draft

def extension : String := ".sb3"

def fresh (folder : String) : Draft :=
  ⟨Project.empty, folder ++ extension, [], [], [], [], []⟩

def locals? (d : Draft) : Place → Option (Assoc String Data)
  | .stage => some d.stageLocals
  | .sprite i => do
    let target ← d.project.sprites[i]?
    let entry ← Assoc.get? target.name d.sprites
    some entry.locals

def setLocals (d : Draft) (place : Place) (locals : Assoc String Data) : Draft :=
  match place with
  | .stage => { d with stageLocals := locals }
  | .sprite i =>
    match d.project.sprites[i]? with
    | some target =>
      match Assoc.get? target.name d.sprites with
      | some entry => { d with sprites := Assoc.put target.name { entry with locals } d.sprites }
      | none => d
    | none => d

end Draft

end BlockScript
