import BlockScript.Fault
import BlockScript.Text.Lines

/-!
What the user sees: lines at four levels, with or without colour. A line is printed
if its level is at least that of the console.
-/
namespace BlockScript

/-- Codes that change how a terminal shows what follows. -/
def terminalCode (n : Nat) : String :=
  "\x1b[" ++ String.ofList (Nat.toDigits 10 n) ++ "m"

namespace Colour

def red : String := terminalCode 31

def green : String := terminalCode 32

def yellow : String := terminalCode 33

def blue : String := terminalCode 34

def reset : String := terminalCode 39

def bright : String := terminalCode 1

def plain : String := terminalCode 0

/-- Every code that is taken out of text shown without colour: the colours by the
alphabetical order of their names, and then the styles. -/
def all : List String :=
  [30, 34, 36, 32, 90, 94, 96, 92, 95, 91, 97, 93, 35, 31, 39, 37, 33, 1, 2, 22, 0].map terminalCode

def strip (text : String) : String := all.foldl Text.erase text

end Colour

inductive Level
  | debug | info | warning | error
  deriving DecidableEq, Repr

namespace Level

def all : List Level := [debug, info, warning, error]

def name : Level → String
  | debug => "debug"
  | info => "info"
  | warning => "warning"
  | error => "error"

def ofName? (s : String) : Option Level := all.find? fun l => l.name == s

def rank : Level → Nat
  | debug => 0
  | info => 1
  | warning => 2
  | error => 3

def label : Level → String
  | debug => Colour.green ++ "Debug:  "
  | info => Colour.blue ++ "Info:   "
  | warning => Colour.yellow ++ "Warning:"
  | error => Colour.red ++ "Error:  "

end Level

structure Console where
  /-- The least level that is shown; without one nothing can be logged. -/
  level : Option Level
  colour : Bool
  /-- The lines printed so far, last one first. -/
  printed : List String

namespace Console

def shown (c : Console) (text : String) : String := if c.colour then text else Colour.strip text

def print (c : Console) (line : String) : Console := { c with printed := line :: c.printed }

def line? (c : Console) (level : Level) (text : String) : Except Fault (Option String) :=
  match c.level with
  | none => .error .badValue
  | some least =>
    let line := level.label ++ Colour.reset ++ " " ++ text
    .ok (if least.rank ≤ level.rank then some (c.shown line) else none)

def output (c : Console) : String := String.join (c.printed.reverse.map (· ++ "\n"))

end Console

end BlockScript
