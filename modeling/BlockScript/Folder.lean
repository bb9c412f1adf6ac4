import BlockScript.Fault
import BlockScript.Text.Lines
import BlockScript.Text.Wildcard

/-!
Folders as trees, paths in them, and the search for files by pattern. A path is
followed name by name from a location; a location is a folder together with the folders
around it.
-/
namespace BlockScript

inductive FileTree
  | file (text : String)
  | folder (entries : List (String × FileTree))

namespace FileTree

instance : Inhabited FileTree := ⟨folder []⟩

def entries : FileTree → List (String × FileTree)
  | file _ => []
  | folder entries => entries

def isFolder : FileTree → Bool
  | file _ => false
  | folder _ => true

def child? (t : FileTree) (name : String) : Option FileTree := t.entries.lookup name

def setChild (t : FileTree) (name : String) (child : FileTree) : FileTree :=
  if (t.child? name).isSome then
    folder (t.entries.map fun e => if e.1 == name then (name, child) else e)
  else folder (t.entries ++ [(name, child)])

/-- Puts a file at a path, with all folders on the way. An empty name at the end stands
for the folder itself. -/
def insert (t : FileTree) (text : String) : List String → FileTree
  | [] => file text
  | [""] => folder t.entries
  | name :: rest => t.setChild name (((t.child? name).getD (folder [])).insert text rest)

def ofFiles (files : List (String × String)) : FileTree :=
  files.foldl (fun t f => t.insert f.2 (f.1.splitOn "/")) (folder [])

end FileTree

/-- A place in a tree: the file or folder there, with its name, and then those around
it. -/
structure Location where
  name : String
  tree : FileTree
  outer : List (String × FileTree)

namespace Location

def root (name : String) (tree : FileTree) : Location := ⟨name, tree, []⟩

def step (l : Location) (name : String) : Except Fault Location :=
  if !l.tree.isFolder then .error .notDirectory
  else if name == "" || name == "." then .ok l
  else if name == ".." then
    match l.outer with
    | [] => .error .noSuchFile
    | (n, t) :: rest => .ok ⟨n, t, rest⟩
  else match l.tree.child? name with
    | some t => .ok ⟨name, t, (l.name, l.tree) :: l.outer⟩
    | none => .error .noSuchFile

/-- Follows a path. There is nothing at an empty path or at one from the root of the
machine. -/
def follow (l : Location) (path : String) : Except Fault Location :=
  if path == "" || Text.beginsWith "/" path then .error .noSuchFile
  else (path.splitOn "/").foldlM step l

def find? (l : Location) (path : String) : Option Location := (l.follow path).toOption

def contains (l : Location) (path : String) : Bool := (l.find? path).isSome

def containsFolder (l : Location) (path : String) : Bool :=
  ((l.find? path).map fun place => place.tree.isFolder).getD false

def enter (l : Location) (path : String) : Except Fault Location := do
  let place ← l.follow path
  if place.tree.isFolder then return place else throw .notDirectory

/-- The text of the file that a path leads to. Every kind of line end is read as the
same character. -/
def read (l : Location) (path : String) : Except Fault String := do
  match (← l.follow path).tree with
  | .file text => return String.ofList (Text.plainLineEnds text.toList)
  | .folder _ => throw .isDirectory

def splitPath (path : String) : String × String :=
  let name := path.toList.reverse.takeWhile (· != '/')
  let before := path.toList.reverse.drop name.length
  let trimmed := before.dropWhile (· == '/')
  (String.ofList (if trimmed.isEmpty then before else trimmed).reverse, String.ofList name.reverse)

def joinPath (folder name : String) : String :=
  if folder == "" || folder.toList.getLast? == some '/' then folder ++ name
  else folder ++ "/" ++ name

/-- The names in a folder that fit a pattern. A name that begins with a dot is found
only by a pattern that does too. -/
def matching (l : Location) (folder pattern : String) (foldersOnly : Bool) : List String :=
  let place := if folder == "" then some l else l.find? folder
  let entries := (place.map fun p => p.tree.entries).getD []
  entries.filterMap fun (name, t) =>
    if (t.isFolder || !foldersOnly) && (Text.beginsWith "." pattern || !Text.beginsWith "." name) &&
        Text.fitsPattern pattern name then some name
    else none

/-- The name itself, if it is in a folder. -/
def named (l : Location) (folder name : String) : List String :=
  if name == "" then if l.containsFolder folder then [name] else []
  else if l.contains (joinPath folder name) then [name] else []

/-- The paths that fit a pattern, whose last `depth` names may be patterns. -/
def searchTo (l : Location) (foldersOnly : Bool) (pattern : String) : Nat → List String
  | 0 => []
  | depth + 1 =>
    let (folder, name) := splitPath pattern
    if !Text.hasWildcard pattern then
      if name == "" then if l.containsFolder folder then [pattern] else []
      else if l.contains pattern then [pattern] else []
    else if folder == "" then l.matching "" name foldersOnly
    else
      let folders :=
        if folder != pattern && Text.hasWildcard folder then l.searchTo true folder depth
        else [folder]
      folders.flatMap fun f =>
        let names := if Text.hasWildcard name then l.matching f name foldersOnly else l.named f name
        names.map (joinPath f)

/-- All paths that fit a pattern, in the order of their characters. -/
def search (l : Location) (pattern : String) : List String :=
  (l.searchTo false pattern (pattern.length + 1)).mergeSort fun a b => a ≤ b

end Location

end BlockScript
