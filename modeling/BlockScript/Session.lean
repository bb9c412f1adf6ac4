import BlockScript.Assoc
import BlockScript.Diagnostic
import BlockScript.Grammar.Setups

/-!
A session: the console, the source files opened so far, the position last looked at,
and how many lines each scanner has counted. Lines are counted on from one file to
the next.
-/
namespace BlockScript

structure SourceFile where
  content : String
  closed : Bool
  deriving Repr

structure Session where
  console : Console
  files : Assoc String SourceFile
  current : Option String
  position : Option Int
  scriptLine : Nat
  setupLine : Nat

namespace Session

def fresh (level : Option Level) (colour : Bool) : Session :=
  ⟨⟨level, colour, []⟩, [], none, none, 1, 1⟩

def register (s : Session) (name text : String) : Session :=
  { s with files := Assoc.put name ⟨text, false⟩ s.files, current := some name }

def content (s : Session) : Except Fault String :=
  match s.current.bind fun name => Assoc.get? name s.files with
  | some file => .ok file.content
  | none => .error .missingField

def close (s : Session) : Except Fault Session :=
  match s.current with
  | none => .error .missingField
  | some name =>
    match Assoc.get? name s.files with
    | none => .error .missingField
    | some file =>
      .ok { s with files := Assoc.put name { file with closed := true } s.files, current := none }

def diagnose (s : Session) (p : Problem) : Failure :=
  match s.current, s.content with
  | some file, .ok source =>
    let d : Diagnostic := ⟨p, file, source, s.position⟩
    .diagnosed d (s.console.shown d.report)
  | _, .error f => .fault f
  | none, _ => .fault .missingField

def line (s : Session) : Dialect → Nat
  | .script => s.scriptLine
  | .setup => s.setupLine

def setLine (s : Session) (d : Dialect) (n : Nat) : Session :=
  match d with
  | .script => { s with scriptLine := n }
  | .setup => { s with setupLine := n }

end Session

def quotedName (s : String) : String := "'" ++ s ++ "'"

def dialectName : Dialect → String
  | .script => "script"
  | .setup => "setup"

namespace Grammar.Rejection

def position (r : Rejection) : Dialect → Option Int
  | .script => r.scriptPosition
  | .setup => r.found.map fun t => (t.position : Int)

def problem (r : Rejection) : Dialect → Except Fault (Option Problem)
  | .script => .ok r.scriptProblem?
  | .setup => r.setupProblem?

end Grammar.Rejection

open Grammar in
/-- What is printed when a parser is at a loss: the line, the token found, the tokens
that could have come, in order, and the symbols read. -/
def unexplainedLines (d : Dialect) (r : Rejection) : List String :=
  let codeName (code : Nat) : String := (Terminal.all[code]?.map Terminal.name).getD "$end"
  let expected := (r.expected.map codeName).mergeSort fun a b => a ≤ b
  ["Uncaught " ++ dialectName d ++ " parsing error, please report in the repository",
    String.ofList (List.replicate 50 '-'),
    "Syntax error at line " ++ (r.found.map fun t => Problem.intText t.line).getD "EOF",
    "Token: " ++ (r.foundKind?.map Terminal.name).getD "EOF",
    "Expected: " ++ ", ".intercalate expected,
    "Symbol stack: [" ++ ", ".intercalate (r.symbols.map fun s => quotedName s.name) ++ "]"]

namespace Session

open Grammar

def printAll (s : Session) (lines : List String) : Session :=
  { s with console := lines.foldl Console.print s.console }

/-- Ends a parse that was rejected: with a problem, or by printing what is known. -/
def reject (s : Session) (d : Dialect) (r : Rejection) : Failure × Session :=
  let s := { s with position := r.position d }
  match r.problem d with
  | .error f => (.fault f, s)
  | .ok (some p) => (s.diagnose p, s)
  | .ok none => (.unexplained, s.printAll (unexplainedLines d r))

def unreadable (s : Session) : ScanError → Failure × Session
  | .fault f => (.fault f, s)
  | .problem p place =>
    let s := { s with position := some (place : Int) }
    (s.diagnose p, s)

def machine : Dialect → Machine Fragment
  | .script => scriptMachine
  | .setup => setupMachine

/-- What becomes of a parse when it has stopped. -/
def conclude (s : Session) (d : Dialect) : Stop Fragment → Except Failure Fragment × Session
  | .accepted v => (.ok v, s)
  | .fault f => (.error (.fault f), s)
  | .rejected r => let (failure, s) := s.reject d r; (.error failure, s)
  | .unreadable e => let (failure, s) := s.unreadable e; (.error failure, s)

def parseFragment (s : Session) (d : Dialect) : Except Failure Fragment × Session :=
  match s.content with
  | .error f => (.error (.fault f), s)
  | .ok source =>
    let (stop, line) := (machine d).parse (s.line d) (scan d (s.line d) source)
    (s.setLine d line).conclude d stop

def parseScript (s : Session) : Except Failure Script × Session :=
  match s.parseFragment .script with
  | (.ok (.script p), s) => (.ok p, s)
  | (.ok _, s) => (.error (.fault .typeMismatch), s)
  | (.error failure, s) => (.error failure, s)

def parseSetup (s : Session) : Except Failure Setup × Session :=
  match s.parseFragment .setup with
  | (.ok (.setup p), s) => (.ok p, s)
  | (.ok _, s) => (.error (.fault .typeMismatch), s)
  | (.error failure, s) => (.error failure, s)

def tokens (s : Session) (d : Dialect) : List Token × Option Failure :=
  match s.content with
  | .error f => ([], some (.fault f))
  | .ok source =>
    let result := scan d (s.line d) source
    (result.tokens, result.error.map fun e => (s.unreadable e).1)

end Session

end BlockScript
