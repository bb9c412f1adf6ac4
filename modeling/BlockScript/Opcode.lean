import BlockScript.TypeSet

/-!
The blocks of the target language by name. Conditions and reporters yield a value of
a known type; hats, commands and the three control blocks yield none.
-/
namespace BlockScript

inductive Opcode
  | equals | lessThan | greaterThan | and | or | not | contains | listContains | mouseDown
  | keyPressed | touchingObject | touchingColor | colorTouchingColor
  | xPosition | yPosition | direction | size | volume | distanceTo | timer | mouseX | mouseY
  | current | daysSince2000 | loudness | answer | username | add | subtract | multiply | divide
  | pickRandom | join | letterOf | lengthOf | modulo | round | operation | listIndexOf
  | listLength | itemOfList | backdrop | costume | getAttribute
  | whenFlagClicked | whenKeyPressed | whenThisSpriteClicked | whenBackdropSwitchesTo
  | whenGreaterThan | whenBroadcastReceived | whenStartAsClone
  | ifThen | forever | repeatUntil
  | setVariable | clearList | addToList | insertIntoList | deleteOfList | replaceInList | stop
  | askAndWait | broadcast | broadcastAndWait | createCloneOf | deleteThisClone | wait
  | resetTimer | waitUntil | moveSteps | goTo | goToPosition | glideTo | glideToPosition
  | pointTowards | bounceOffEdge | setRotationStyle | sayForSeconds | say | thinkForSeconds
  | think | switchCostume | nextCostume | switchBackdrop | nextBackdrop | changeSoundEffect
  | changeGraphicEffect | setSoundEffect | setGraphicEffect | clearGraphicEffects
  | showSprite | hideSprite | setLayer | changeLayer | playUntilDone | play | stopSounds
  | clearSoundEffects | setDragMode | setX | setY | pointInDirection | setSize | setVolume
  deriving DecidableEq, Repr

namespace Opcode

def name : Opcode → String
  | equals => "Equals"
  | lessThan => "LessThan"
  | greaterThan => "GreaterThan"
  | and => "And"
  | or => "Or"
  | not => "Not"
  | contains => "Contains"
  | listContains => "ListContains"
  | mouseDown => "MouseDown"
  | keyPressed => "KeyPressed"
  | touchingObject => "TouchingObject"
  | touchingColor => "TouchingColor"
  | colorTouchingColor => "ColorTouchingColor"
  | xPosition => "XPosition"
  | yPosition => "YPosition"
  | direction => "Direction"
  | size => "Size"
  | volume => "Volume"
  | distanceTo => "DistanceTo"
  | timer => "Timer"
  | mouseX => "MouseX"
  | mouseY => "MouseY"
  | current => "Current"
  | daysSince2000 => "DaysSince2000"
  | loudness => "Loudness"
  | answer => "Answer"
  | username => "Username"
  | add => "Add"
  | subtract => "Subtract"
  | multiply => "Multiply"
  | divide => "Divide"
  | pickRandom => "PickRandom"
  | join => "Join"
  | letterOf => "LetterOf"
  | lengthOf => "LengthOf"
  | modulo => "Modulo"
  | round => "Round"
  | operation => "Operation"
  | listIndexOf => "ListIndexOf"
  | listLength => "ListLength"
  | itemOfList => "ItemOfList"
  | backdrop => "Backdrop"
  | costume => "Costume"
  | getAttribute => "GetAttribute"
  | whenFlagClicked => "WhenFlagClicked"
  | whenKeyPressed => "WhenKeyPressed"
  | whenThisSpriteClicked => "WhenThisSpriteClicked"
  | whenBackdropSwitchesTo => "WhenBackdropSwitchesTo"
  | whenGreaterThan => "WhenGreaterThan"
  | whenBroadcastReceived => "WhenBroadcastReceived"
  | whenStartAsClone => "WhenStartAsClone"
  | ifThen => "If"
  | forever => "Forever"
  | repeatUntil => "RepeatUntil"
  | setVariable => "SetVariable"
  | clearList => "ClearList"
  | addToList => "AddToList"
  | insertIntoList => "InsertIntoList"
  | deleteOfList => "DeleteOfList"
  | replaceInList => "ReplaceInList"
  | stop => "Stop"
  | askAndWait => "AskAndWait"
  | broadcast => "Broadcast"
  | broadcastAndWait => "BroadcastAndWait"
  | createCloneOf => "CreateCloneOf"
  | deleteThisClone => "DeleteThisClone"
  | wait => "Wait"
  | resetTimer => "ResetTimer"
  | waitUntil => "WaitUntil"
  | moveSteps => "MoveSteps"
  | goTo => "GoTo"
  | goToPosition => "GoToPosition"
  | glideTo => "GlideTo"
  | glideToPosition => "GlideToPosition"
  | pointTowards => "PointTowards"
  | bounceOffEdge => "BounceOffEdge"
  | setRotationStyle => "SetRotationStyle"
  | sayForSeconds => "SayForSeconds"
  | say => "Say"
  | thinkForSeconds => "ThinkForSeconds"
  | think => "Think"
  | switchCostume => "SwitchCostume"
  | nextCostume => "NextCostume"
  | switchBackdrop => "SwitchBackdrop"
  | nextBackdrop => "NextBackdrop"
  | changeSoundEffect => "ChangeSoundEffect"
  | changeGraphicEffect => "ChangeGraphicEffect"
  | setSoundEffect => "SetSoundEffect"
  | setGraphicEffect => "SetGraphicEffect"
  | clearGraphicEffects => "ClearGraphicEffects"
  | showSprite => "Show"
  | hideSprite => "Hide"
  | setLayer => "SetLayer"
  | changeLayer => "ChangeLayer"
  | playUntilDone => "PlayUntilDone"
  | play => "Play"
  | stopSounds => "StopSounds"
  | clearSoundEffects => "ClearSoundEffects"
  | setDragMode => "SetDragMode"
  | setX => "SetX"
  | setY => "SetY"
  | pointInDirection => "PointInDirection"
  | setSize => "SetSize"
  | setVolume => "SetVolume"

def all : List Opcode :=
  [.equals, .lessThan, .greaterThan, .and, .or, .not, .contains, .listContains, .mouseDown,
   .keyPressed, .touchingObject, .touchingColor, .colorTouchingColor, .xPosition, .yPosition,
   .direction, .size, .volume, .distanceTo, .timer, .mouseX, .mouseY, .current, .daysSince2000,
   .loudness, .answer, .username, .add, .subtract, .multiply, .divide, .pickRandom, .join,
   .letterOf, .lengthOf, .modulo, .round, .operation, .listIndexOf, .listLength, .itemOfList,
   .backdrop, .costume, .getAttribute, .whenFlagClicked, .whenKeyPressed, .whenThisSpriteClicked,
   .whenBackdropSwitchesTo, .whenGreaterThan, .whenBroadcastReceived, .whenStartAsClone, .ifThen,
   .forever, .repeatUntil, .setVariable, .clearList, .addToList, .insertIntoList, .deleteOfList,
   .replaceInList, .stop, .askAndWait, .broadcast, .broadcastAndWait, .createCloneOf,
   .deleteThisClone, .wait, .resetTimer, .waitUntil, .moveSteps, .goTo, .goToPosition, .glideTo,
   .glideToPosition, .pointTowards, .bounceOffEdge, .setRotationStyle, .sayForSeconds, .say,
   .thinkForSeconds, .think, .switchCostume, .nextCostume, .switchBackdrop, .nextBackdrop,
   .changeSoundEffect, .changeGraphicEffect, .setSoundEffect, .setGraphicEffect,
   .clearGraphicEffects, .showSprite, .hideSprite, .setLayer, .changeLayer, .playUntilDone, .play,
   .stopSounds, .clearSoundEffects, .setDragMode, .setX, .setY, .pointInDirection, .setSize,
   .setVolume]

def ofName? (s : String) : Option Opcode := all.find? fun op => op.name == s

/-- The blocks that stand where a condition is asked for. -/
def conditions : List Opcode :=
  [.equals, .lessThan, .greaterThan, .and, .or, .not, .contains, .listContains, .mouseDown,
   .keyPressed, .touchingObject, .touchingColor, .colorTouchingColor]

def isCondition (op : Opcode) : Bool := conditions.contains op

def numberReporters : List Opcode :=
  [.xPosition, .yPosition, .direction, .size, .volume, .distanceTo, .timer, .mouseX, .mouseY,
   .current, .daysSince2000, .loudness, .add, .subtract, .multiply, .divide, .pickRandom,
   .lengthOf, .modulo, .round, .operation, .listIndexOf, .listLength]

def stringReporters : List Opcode :=
  [.answer, .username, .join, .letterOf]

/-- The reporters of a value of any single kind. -/
def generalReporters : List Opcode :=
  [.itemOfList, .backdrop, .costume, .getAttribute]

def resultType (op : Opcode) : Option TypeSet :=
  if conditions.contains op then some .ofBoolean
  else if numberReporters.contains op then some .ofNumber
  else if stringReporters.contains op then some .ofString
  else if generalReporters.contains op then some .general
  else none

/-- How many arguments a block takes at most; control blocks hold whole scripts. -/
def argumentLimit : Opcode → Option Nat
  | ifThen | forever | repeatUntil => none
  | _ => some 8

end Opcode

end BlockScript
