import BlockScript.Fault

/-!
Names for files made from the titles of projects: characters that file systems refuse
are left out, and so are dots and blanks at the end.
-/
namespace BlockScript.Text

def forbiddenInNames : List Char := ['<', '>', ':', '"', '/', '\\', '|', '?', '*']

def isTrailing (c : Char) : Bool := c = '.' || c = ' '

/-- A name that a file can have. A title of which nothing is left has none. -/
def fileName (title : String) : Except Fault String :=
  let kept := title.toList.filter fun c => !forbiddenInNames.contains c
  let trimmed := (kept.reverse.dropWhile isTrailing).reverse
  if trimmed.isEmpty then .error .outOfRange else .ok (String.ofList trimmed)

end BlockScript.Text
