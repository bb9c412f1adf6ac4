import BlockScript.Console
import BlockScript.Problem
import BlockScript.Text.CharClass

/-!
Diagnostics: a problem with the place in a source text where it was found. The report
names the file, the line and the column, shows up to three lines that end with the
faulty one, and marks the column below it. Without a position the place is the last
character that is not blank.
-/
namespace BlockScript

structure Diagnostic where
  problem : Problem
  file : String
  source : String
  position : Option Int
  deriving Repr

namespace Diagnostic

open Text

def chars (d : Diagnostic) : List Char := d.source.toList

def place (d : Diagnostic) : Int :=
  d.position.getD ((trimBy isBlank d.chars).length - 1)

/-- The number of the line that is named. Without a position it is the last one. -/
def lineNumber (d : Diagnostic) : Nat :=
  match d.position with
  | some p => newlinesBefore d.chars p + 1
  | none => countNewlines d.chars + 1

/-- How many lines are shown at most. -/
def context : Nat := 3

/-- The lines that are shown; the last one is the faulty one. -/
def shownLines (d : Diagnostic) : List String :=
  let last := newlinesBefore d.chars d.place + 1
  let first := last - context
  (((splitLines d.chars).take last).drop first).map String.ofList

def highlightLast : List String → List String
  | [] => []
  | [line] => [Colour.yellow ++ line ++ Colour.reset]
  | line :: rest => line :: highlightLast rest

def heading (d : Diagnostic) : String :=
  "Error on line " ++ Problem.intText d.lineNumber ++ ", column " ++
    Problem.intText (column d.chars d.place) ++ ": "

def arrow (d : Diagnostic) : String :=
  String.ofList (List.replicate (column d.chars d.place - 1).toNat ' ') ++ "^"

def report (d : Diagnostic) : String :=
  let message := d.problem.message
  let separator := String.ofList (List.replicate (d.heading.length + message.length) '-')
  "There was a problem parsing " ++ Colour.bright ++ d.file ++ "\n\n" ++
    d.heading ++ Colour.red ++ message ++ Colour.reset ++ Colour.plain ++ "\n" ++
    separator ++ "\n" ++
    "\n".intercalate (highlightLast d.shownLines) ++ "\n" ++ d.arrow

end Diagnostic

inductive Failure
  | diagnosed (d : Diagnostic) (text : String)
  | exited (text : String)
  | unexplained
  | usage
  | fault (f : Fault)

end BlockScript
