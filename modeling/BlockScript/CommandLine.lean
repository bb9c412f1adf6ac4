import BlockScript.Console
import BlockScript.Text.CharClass

/-!
The command line: the path of a project, an optional name for the result, and flags. A
flag may be shortened as long as it stays clear which one is meant. Both names are
taken from the first group of plain words, so a flag may not stand between them.
-/
namespace BlockScript

structure Options where
  path : String
  filename : Option String
  level : Level
  colour : Bool
  openAfter : Bool
  deriving Repr

namespace CommandLine

inductive Flag
  | log | noColour | openAfter | help
  deriving DecidableEq, Repr

def flags : List (String × Flag) :=
  [("-h", .help), ("--help", .help), ("-log", .log), ("-nocolor", .noColour), ("-open", .openAfter)]

inductive Word
  | plain (text : String)
  | divider
  | flag (f : Flag) (value : Option String)
  | unknown
  deriving DecidableEq, Repr

/-- Whether a word is a negative number, which is no flag. -/
def isNegative (word : String) : Bool :=
  match word.toList with
  | '-' :: rest =>
    let fraction := rest.dropWhile Text.isDecimalDigit
    match fraction with
    | [] => !rest.isEmpty
    | '.' :: digits => !digits.isEmpty && digits.all Text.isDecimalDigit
    | _ => false
  | _ => false

def assigned? (word : String) : Option (Flag × String) :=
  let name := word.toList.takeWhile (· != '=')
  match word.toList.drop name.length with
  | [] => none
  | _ :: value => (flags.lookup (String.ofList name)).map fun f => (f, String.ofList value)

/-- A flag that a word shortens. Only the long form of a flag takes a value here. -/
def shortened? (word : String) : Option Flag :=
  let name :=
    if Text.beginsWith "--" word then String.ofList (word.toList.takeWhile (· != '=')) else word
  (flags.find? fun f => Text.beginsWith name f.1).map (·.2)

def classify (word : String) : Word :=
  if word == "--" then .divider
  else if !Text.beginsWith "-" word || word == "-" then .plain word
  else match flags.lookup word, assigned? word, shortened? word with
    | some f, _, _ => .flag f none
    | none, some (f, value), _ => .flag f (some value)
    | none, none, some f => .flag f none
    | none, none, none =>
      if isNegative word || word.toList.contains ' ' then .plain word else .unknown

def words : List String → List Word
  | [] => []
  | word :: rest =>
    match classify word with
    | .divider => .divider :: rest.map .plain
    | w => w :: words rest

def dropDivider : List Word → List Word
  | .divider :: rest => rest
  | ws => ws

/-- The names at the front of some words, if there are any. -/
def names? (ws : List Word) : Option (String × Option String × List Word) :=
  match dropDivider ws with
  | .plain path :: rest =>
    match dropDivider rest with
    | .plain filename :: rest => some (path, some filename, dropDivider rest)
    | rest => some (path, none, rest)
  | _ => none

/-- What was read of a command line so far. -/
structure Reading where
  names : Option (String × Option String)
  level : Level
  colour : Bool
  openAfter : Bool

/-- Reads words from the left. Each step uses up at least one of the words, and `fuel`
is at least their number. -/
def read (r : Reading) : Nat → List Word → Option Reading
  | _, [] => some r
  | 0, _ :: _ => none
  | fuel + 1, w :: ws =>
    match w with
    | .flag .noColour none => read { r with colour := false } fuel ws
    | .flag .openAfter none => read { r with openAfter := true } fuel ws
    | .flag .log (some value) => do read { r with level := ← Level.ofName? value } fuel ws
    | .flag .log none =>
      match ws with
      | .plain value :: rest => do read { r with level := ← Level.ofName? value } fuel rest
      | _ => none
    | .flag _ _ | .unknown => none
    | .plain _ | .divider =>
      match r.names, names? (w :: ws) with
      | none, some (path, filename, rest) =>
        read { r with names := some (path, filename) } fuel rest
      | _, _ => none

def parse (arguments : List String) : Option Options := do
  let ws := words arguments
  let r ← read ⟨none, .info, true, false⟩ ws.length ws
  let (path, filename) ← r.names
  some ⟨path, filename, r.level, r.colour, r.openAfter⟩

end CommandLine

end BlockScript
