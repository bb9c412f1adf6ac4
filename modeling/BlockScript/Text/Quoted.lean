import BlockScript.Text.CharName

/-!
The text of a quoted string. A backslash starts an escape: one of the usual letters,
up to three octal figures, a fixed number of hexadecimal ones, or the name of a
character in braces; before any other character it stands for itself.
-/
namespace BlockScript.Text

/-- The length of a string from after its opening quote to its closing one, if it is
closed on its line. -/
def closingLength? (quote : Char) : List Char → Option Nat
  | [] => none
  | '\\' :: c :: rest => if c = '\n' then none else (closingLength? quote rest).map (· + 2)
  | c :: rest =>
    if c = quote then some 1
    else if c = '\n' || c = '\\' then none
    else (closingLength? quote rest).map (· + 1)

inductive Escape
  | outside
  | started
  /-- Hexadecimal figures still to come, and the value of those read. -/
  | hex (missing value : Nat)
  /-- Octal figures that may still come, and the value of those read. -/
  | octal (left value : Nat)
  /-- The brace before a name is still to come. -/
  | unnamed
  /-- The characters of a name, the last one first. -/
  | name (read : List Char)

def simpleEscape? : Char → Option Char
  | '\\' => some '\\'
  | '\'' => some '\''
  | '"' => some '"'
  | 'a' => some (Char.ofNat 7)
  | 'b' => some (Char.ofNat 8)
  | 'f' => some (Char.ofNat 12)
  | 'n' => some '\n'
  | 'r' => some '\r'
  | 't' => some '\t'
  | 'v' => some (Char.ofNat 11)
  | _ => none

/-- Neither of these can stand for itself in a string. -/
def isForbidden (c : Char) : Bool := c = '\r' || c = Char.ofNat 0

/-- The text that the characters between two quotes stand for, unless an escape among
them is malformed. A carriage return after a backslash is left out. -/
def unescapeFrom : Escape → List Char → Option (List Char)
  | .outside, [] => some []
  | .octal _ value, [] => some [Char.ofNat value]
  | .started, [] => none
  | .hex _ _, [] => none
  | .unnamed, [] => none
  | .name _, [] => none
  | .outside, c :: rest =>
    if c = '\\' then unescapeFrom .started rest
    else if isForbidden c then none
    else (unescapeFrom .outside rest).map (c :: ·)
  | .started, c :: rest =>
    match simpleEscape? c, octalValue? c with
    | some d, _ => (unescapeFrom .outside rest).map (d :: ·)
    | none, some v => unescapeFrom (.octal 2 v) rest
    | none, none =>
      match c with
      | 'x' => unescapeFrom (.hex 2 0) rest
      | 'u' => unescapeFrom (.hex 4 0) rest
      | 'U' => unescapeFrom (.hex 8 0) rest
      | 'N' => unescapeFrom .unnamed rest
      | '\r' => unescapeFrom .outside rest
      | _ =>
        if isForbidden c then none
        else (unescapeFrom .outside rest).map ('\\' :: c :: ·)
  | .hex missing value, c :: rest => do
    let v ← hexValue? c
    let total := 16 * value + v
    if 1 < missing then unescapeFrom (.hex (missing - 1) total) rest
    else if total < 0x110000 then (unescapeFrom .outside rest).map (Char.ofNat total :: ·)
    else none
  | .octal left value, c :: rest =>
    match octalValue? c with
    | some v =>
      if 1 < left then unescapeFrom (.octal (left - 1) (8 * value + v)) rest
      else (unescapeFrom .outside rest).map (Char.ofNat (8 * value + v) :: ·)
    | none =>
      if c = '\\' then (unescapeFrom .started rest).map (Char.ofNat value :: ·)
      else if isForbidden c then none
      else (unescapeFrom .outside rest).map (Char.ofNat value :: c :: ·)
  | .unnamed, c :: rest => if c = openBrace then unescapeFrom (.name []) rest else none
  | .name read, c :: rest =>
    if c = closeBrace then do
      let named ← charNamed? read.reverse
      (unescapeFrom .outside rest).map (named :: ·)
    else unescapeFrom (.name (c :: read)) rest

def unescape (body : List Char) : Option (List Char) := unescapeFrom .outside body

end BlockScript.Text
