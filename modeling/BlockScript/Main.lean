import BlockScript.Compile

/-!
The command line. The arguments are those of the compiler; the paths of the files that
belong to the project come on standard input, one a line, where a path with a slash at
its end is a folder. The log goes to standard output, and what ended a run early goes
to standard error.
-/
namespace BlockScript.CommandLine

partial def readLines (input : IO.FS.Stream) : IO (List String) := do
  let line ← input.getLine
  if line.isEmpty then return []
  return line.trimAsciiEnd.toString :: (← readLines input)

/-- The text of a file. Pictures and sounds are never read, so theirs is empty. -/
def fileText (path : String) : IO String := do
  if path.endsWith ".sbs" || path.endsWith ".sbc" then IO.FS.readFile path else return ""

def folderOf (paths : List String) : IO FileTree := do
  return .ofFiles (← paths.mapM fun path => return (path, ← fileText path))

/-- What is shown when a run ends early, and the exit code. -/
def ending : Failure → String × UInt32
  | .diagnosed _ text | .exited text => (text, 1)
  | .unexplained => ("", 0)
  | .usage => ("usage: blockscript [-h] [-log LEVEL] [-nocolor] [-open] path [filename]", 2)
  | .fault f => ("the compiler broke off: " ++ reprStr f, 1)

end BlockScript.CommandLine

open BlockScript in
def main (arguments : List String) : IO UInt32 := do
  let folder ← CommandLine.folderOf (← CommandLine.readLines (← IO.getStdin))
  let run := Run.compile (.root "" folder) arguments
  IO.print run.output
  match run.failure with
  | none => return 0
  | some failure =>
    let (text, code) := CommandLine.ending failure
    unless text.isEmpty do IO.eprintln text
    return code
