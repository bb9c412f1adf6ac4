import BlockScript.Assoc
import BlockScript.Conversion
import BlockScript.Expr

/-!
The names that the language knows from the start. They are kept in nested tables: a
name stands for an entry or for a table of further names, so that an expression such
as `this.costume.name` is a walk from the root of a table.
-/
namespace BlockScript

inductive Builtin
  | block (op : Opcode)
  /-- Takes no arguments and stands for a value. -/
  | constant (v : Value)
  | operation (name : String)
  | randomChoice
  | toNumber
  | toText
  | toBoolean
  | changeEffect
  | setEffect
  | changeLayer
  /-- Sends a broadcast; the message, if there is one, is stored beforehand. -/
  | broadcast (op : Opcode)
  | clone
  | glideTo
  | glideToPosition

namespace Builtin

/-- How many arguments are required, and how many more may be given. -/
def arity : Builtin → Nat × Nat
  | block _ => (0, 8)
  | constant _ => (0, 0)
  | operation _ | randomChoice | toNumber | toText | toBoolean | changeLayer => (1, 0)
  | changeEffect | setEffect | glideTo => (2, 0)
  | broadcast _ => (1, 1)
  | clone => (0, 1)
  | glideToPosition => (3, 0)

/-- The effects of sounds; all others are of graphics. Which effect a block names is
not known, so a block counts as one of them. -/
def isSoundEffect : Value → Bool
  | .str s => s == "pitch" || s == "pan"
  | v => v.isBlock

def apply (b : Builtin) (arguments : List Value) : Outcome Value :=
  match b, arguments with
  | block op, _ => .ofFault (Value.apply op arguments)
  | constant v, [] => .ok v
  | operation name, [x] => .ok (Value.operation name x)
  | randomChoice, [x] => x.randomChoice
  | toNumber, [x] => x.toNumber
  | toText, [x] => x.toText
  | toBoolean, [x] => x.toBoolean
  | changeEffect, [effect, change] =>
    .ok (.op (if isSoundEffect effect then .changeSoundEffect else .changeGraphicEffect)
      [effect, change])
  | setEffect, [effect, value] =>
    .ok (.op (if isSoundEffect effect then .setSoundEffect else .setGraphicEffect)
      [effect, value])
  | changeLayer, [change] => .ok (.op .changeLayer [.str "forward", change])
  | broadcast op, [x] | broadcast op, [x, _] => .ok (.op op [x])
  | clone, [] => .ok (.op .createCloneOf [.str "myself"])
  | clone, [x] => .ok (.op .createCloneOf [x])
  | glideTo, [place, seconds] => .ok (.op .glideTo [seconds, place])
  | glideToPosition, [x, y, seconds] => .ok (.op .glideToPosition [seconds, x, y])
  | _, _ => .error (.fault .typeMismatch)

end Builtin

inductive NameTable (α : Type)
  | entry (a : α)
  | table (names : List (String × NameTable α))

namespace NameTable

variable {α : Type}

def find? (name : String) : NameTable α → Option (NameTable α)
  | entry _ => none
  | table names => names.lookup name

/-- What an expression stands for in a table: a name is looked up, and an attribute is
looked up in what its object stands for. -/
def resolve (root : NameTable α) : Expr → Option (NameTable α)
  | .value (.str s) => root.find? s
  | .name _ n => root.find? n
  | .attr _ object n => (resolve root object).bind (find? n)
  | _ => none

end NameTable

structure Entry where
  builtin : Builtin
  spriteOnly : Bool

abbrev EntryTable := NameTable Entry

namespace Builtins

def anywhere (b : Builtin) : EntryTable := .entry ⟨b, false⟩

def inSprites (b : Builtin) : EntryTable := .entry ⟨b, true⟩

def typedBlock (op : Opcode) (argument : String) (t : TypeSet) : Value :=
  .block op [.str argument] (some t) none

def current (unit : String) : EntryTable := anywhere (.constant (.op .current [.str unit]))

/-- The names that stand for themselves in lower case. -/
def constantNames : List String :=
  ["MOUSE", "STAGE", "EDGE", "MYSELF", "RANDOM", "COLOR", "FISHEYE", "WHIRL", "PIXELATE",
    "MOSAIC", "BRIGHTNESS", "GHOST", "PITCH", "PAN", "FRONT", "BACK", "DRAGGABLE",
    "NOT_DRAGGABLE", "LEFT_RIGHT", "DONT_ROTATE", "ALL_AROUND", "ALL", "OTHER_SCRIPTS",
    "THIS_SCRIPT", "SPACE", "ENTER", "UP_ARROW", "DOWN_ARROW", "LEFT_ARROW", "RIGHT_ARROW",
    "BACKDROP_NUMBER", "BACKDROP_NAME", "X_POSITION", "Y_POSITION", "DIRECTION",
    "COSTUME_NUMBER", "COSTUME_NAME", "SIZE", "VOLUME", "LOUDNESS", "TIMER"]

def constants : EntryTable :=
  .table (constantNames.map fun n => (n, anywhere (.constant (.str n.toLower))))

def reporters : EntryTable :=
  .table
    [("scratch", .table
        [("backdrop", .table
            [("name", anywhere (.constant (typedBlock .backdrop "name" .ofString))),
              ("number", anywhere (.constant (typedBlock .backdrop "number" .ofNumber)))]),
          ("answer", anywhere (.block .answer)),
          ("mouse_down", anywhere (.block .mouseDown)),
          ("mouse_x", anywhere (.block .mouseX)),
          ("mouse_y", anywhere (.block .mouseY)),
          ("loudness", anywhere (.block .loudness)),
          ("username", anywhere (.block .username))]),
      ("C", constants),
      ("time", .table
        [("year", current "year"), ("month", current "month"), ("date", current "date"),
          ("day_of_week", current "day_of_week"), ("hour", current "hour"),
          ("minute", current "minute"), ("second", current "second"),
          ("timer", anywhere (.block .timer)),
          ("days_since_2000", anywhere (.block .daysSince2000))]),
      ("math", .table [("pi", anywhere (.constant (.float 3.141592653589793)))]),
      ("this", .table
        [("x", inSprites (.block .xPosition)), ("y", inSprites (.block .yPosition)),
          ("direction", inSprites (.block .direction)), ("size", inSprites (.block .size)),
          ("costume", .table
            [("name", inSprites (.constant (typedBlock .costume "name" .ofString))),
              ("number", inSprites (.constant (typedBlock .costume "number" .ofNumber)))]),
          ("volume", anywhere (.block .volume))])]

def functionReporters : EntryTable :=
  .table
    [("scratch", .table
        [("key_pressed", anywhere (.block .keyPressed)),
          ("get_attribute", anywhere (.block .getAttribute))]),
      ("math", .table
        [("round", anywhere (.block .round)),
          ("abs", anywhere (.operation "absolute")),
          ("floor", anywhere (.operation "floor")),
          ("ceil", anywhere (.operation "ceiling")),
          ("sqrt", anywhere (.operation "square_root")),
          ("sin", anywhere (.operation "sine")),
          ("cos", anywhere (.operation "cosine")),
          ("tan", anywhere (.operation "tangent")),
          ("asin", anywhere (.operation "arcsine")),
          ("acos", anywhere (.operation "arccosine")),
          ("atan", anywhere (.operation "arctangent")),
          ("log", anywhere (.operation "natural_logarithm")),
          ("log10", anywhere (.operation "logarithm")),
          ("exp", anywhere (.operation "e_to_the")),
          ("exp10", anywhere (.operation "ten_to_the"))]),
      ("random", .table
        [("range", anywhere (.block .pickRandom)), ("choice", anywhere .randomChoice)]),
      ("this", .table
        [("touching", inSprites (.block .touchingObject)),
          ("touching_color", inSprites (.block .touchingColor)),
          ("color_touching_color", inSprites (.block .colorTouchingColor)),
          ("distance_to", inSprites (.block .distanceTo))]),
      ("tonum", anywhere .toNumber),
      ("tostr", anywhere .toText),
      ("tobool", anywhere .toBoolean)]

def functions : EntryTable :=
  .table
    [("scratch", .table
        [("stop", anywhere (.block .stop)),
          ("ask", anywhere (.block .askAndWait)),
          ("broadcast", anywhere (.broadcast .broadcast)),
          ("broadcast_and_wait", anywhere (.broadcast .broadcastAndWait)),
          ("clone", anywhere .clone),
          ("delete_clone", anywhere (.block .deleteThisClone))]),
      ("time", .table
        [("sleep", anywhere (.block .wait)),
          ("reset_timer", anywhere (.block .resetTimer)),
          ("wait_until", anywhere (.block .waitUntil))]),
      ("move_steps", inSprites (.block .moveSteps)),
      ("go_to", inSprites (.block .goTo)),
      ("set_pos", inSprites (.block .goToPosition)),
      ("glide_to", inSprites .glideTo),
      ("glide_to_pos", inSprites .glideToPosition),
      ("point_towards", inSprites (.block .pointTowards)),
      ("bounce_off_edge", inSprites (.block .bounceOffEdge)),
      ("set_rotation_style", inSprites (.block .setRotationStyle)),
      ("say_for_seconds", inSprites (.block .sayForSeconds)),
      ("say", inSprites (.block .say)),
      ("think_for_seconds", inSprites (.block .thinkForSeconds)),
      ("think", inSprites (.block .think)),
      ("set_costume", inSprites (.block .switchCostume)),
      ("next_costume", inSprites (.block .nextCostume)),
      ("switch_backdrop", anywhere (.block .switchBackdrop)),
      ("next_backdrop", anywhere (.block .nextBackdrop)),
      ("change_effect", anywhere .changeEffect),
      ("set_effect", anywhere .setEffect),
      ("clear_graphic_effects", anywhere (.block .clearGraphicEffects)),
      ("show", inSprites (.block .showSprite)),
      ("hide", inSprites (.block .hideSprite)),
      ("set_layer", inSprites (.block .setLayer)),
      ("change_layer", inSprites .changeLayer),
      ("play_until_done", anywhere (.block .playUntilDone)),
      ("play_sound", anywhere (.block .play)),
      ("stop_all_sounds", anywhere (.block .stopSounds)),
      ("clear_sound_effects", anywhere (.block .clearSoundEffects)),
      ("set_drag_mode", inSprites (.block .setDragMode))]

def setters : EntryTable :=
  .table
    [("this", .table
      [("x", inSprites (.block .setX)),
        ("y", inSprites (.block .setY)),
        ("direction", inSprites (.block .pointInDirection)),
        ("size", inSprites (.block .setSize)),
        ("volume", anywhere (.block .setVolume))])]

def hats : NameTable Opcode :=
  .table
    [("scratch", .table
      [("on_flag", .entry .whenFlagClicked),
        ("on_keypress", .entry .whenKeyPressed),
        ("on_clicked", .entry .whenThisSpriteClicked),
        ("on_backdrop", .entry .whenBackdropSwitchesTo),
        ("on_greater_than", .entry .whenGreaterThan),
        ("on_broadcast", .entry .whenBroadcastReceived),
        ("on_clone", .entry .whenStartAsClone)])]

end Builtins

inductive MemberAction
  | block (op : Opcode)
  /-- The place of an item in a list, counted from zero. -/
  | indexOf
  | remove
  | insert

namespace MemberAction

def apply (a : MemberAction) (arguments : List Value) (d : Value) : Except Fault Value :=
  match a, arguments with
  | block op, _ => Value.apply op (arguments ++ [d])
  | indexOf, [item] => (Value.op .listIndexOf [item, d]).sub (.int 1)
  | remove, [i] => do return .op .deleteOfList [← i.add (.int 1), d]
  | insert, [i, item] => do return .op .insertIntoList [item, ← i.add (.int 1), d]
  | _, _ => .error .typeMismatch

/-- The members of a type. Only the five types with names of their own have any. -/
def tableOf (type : String) (member : Member) : Except Fault (Assoc String MemberAction) :=
  match type, member with
  | "number", _ | "boolean", _ => .ok []
  | "string", .field | "variable", .field => .ok [("length", .block .lengthOf)]
  | "string", _ | "variable", _ => .ok []
  | "list", .field => .ok [("length", .block .listLength)]
  | "list", .method => .ok [("index", .indexOf)]
  | "list", .function =>
    .ok [("push", .block .addToList), ("remove", .remove), ("clear", .block .clearList),
      ("insert", .insert)]
  | _, _ => .error .noSuchProperty

def title (type : String) : String :=
  match type.toList with
  | c :: rest => String.ofList (c.toUpper :: rest)
  | [] => ""

end MemberAction

end BlockScript
