import BlockScript.Fault
import BlockScript.Text.Layout
import BlockScript.Text.Quotation

/-!
Messages with places to fill in. A pair of braces is a place: an empty one takes the
next argument, a numbered one the argument of that number, and the two kinds do not
mix. After the number a place may pick a character in square brackets, after an
exclamation mark ask for quotes, and after a colon describe a layout, in which there may
be places again. A doubled brace stands for itself.
-/
namespace BlockScript.Text

/-- Where in a template a reader is; what was read of a place stands last character
first. -/
inductive Spot
  | outside
  | opened
  | closed
  | inName (name : List Char)
  /-- Between square brackets no mark has a meaning. -/
  | inBrackets (name : List Char)
  | atForm (name : List Char)
  | afterForm (name : List Char) (form : Char)
  /-- Inside a layout, with the number of places in it that are still open. -/
  | inLayout (name : List Char) (form : Option Char) (nested : Nat) (layout : List Char)

inductive Piece
  | char (c : Char)
  | place (name : List Char) (form : Option Char) (layout : List Char)
  | malformed

/-- The parts of a template, up to the first that makes no sense. -/
def piecesFrom : Spot → List Char → List Piece
  | .outside, [] => []
  | _, [] => [.malformed]
  | .outside, c :: rest =>
    if c = openBrace then piecesFrom .opened rest
    else if c = closeBrace then piecesFrom .closed rest
    else .char c :: piecesFrom .outside rest
  | .closed, c :: rest =>
    if c = closeBrace then .char c :: piecesFrom .outside rest else [.malformed]
  | .opened, c :: rest =>
    if c = openBrace then .char c :: piecesFrom .outside rest
    else if c = closeBrace then .place [] none [] :: piecesFrom .outside rest
    else if c = '[' then piecesFrom (.inBrackets [c]) rest
    else if c = '!' then piecesFrom (.atForm []) rest
    else if c = ':' then piecesFrom (.inLayout [] none 0 []) rest
    else piecesFrom (.inName [c]) rest
  | .inName name, c :: rest =>
    if c = openBrace then [.malformed]
    else if c = closeBrace then .place name.reverse none [] :: piecesFrom .outside rest
    else if c = '[' then piecesFrom (.inBrackets (c :: name)) rest
    else if c = '!' then piecesFrom (.atForm name) rest
    else if c = ':' then piecesFrom (.inLayout name none 0 []) rest
    else piecesFrom (.inName (c :: name)) rest
  | .inBrackets name, c :: rest =>
    if c = ']' then piecesFrom (.inName (c :: name)) rest
    else piecesFrom (.inBrackets (c :: name)) rest
  | .atForm name, c :: rest => piecesFrom (.afterForm name c) rest
  | .afterForm name form, c :: rest =>
    if c = closeBrace then .place name.reverse (some form) [] :: piecesFrom .outside rest
    else if c = ':' then piecesFrom (.inLayout name (some form) 0 []) rest
    else [.malformed]
  | .inLayout name form nested layout, c :: rest =>
    if c = openBrace then piecesFrom (.inLayout name form (nested + 1) (c :: layout)) rest
    else if c = closeBrace then
      match nested with
      | 0 => .place name.reverse form layout.reverse :: piecesFrom .outside rest
      | n + 1 => piecesFrom (.inLayout name form n (c :: layout)) rest
    else piecesFrom (.inLayout name form nested (c :: layout)) rest

inductive Numbering
  | undecided
  | automatic (next : Nat)
  | manual

/-- The number of the argument that a place asks for, and the numbering after it. -/
def choose (numbering : Numbering) (name : List Char) : Except Fault (Nat × Numbering) :=
  match takeNumber? name with
  | none => .error .badValue
  | some (some n, []) =>
    match numbering with
    | .automatic _ => .error .badValue
    | _ => .ok (n, .manual)
  | some (none, []) =>
    match numbering with
    | .undecided => .ok (0, .automatic 1)
    | .automatic n => .ok (n, .automatic (n + 1))
    | .manual => .error .badValue
  | some (_, _ :: _) => .error .missingField

/-- The item of a text that a bracket asks for. A word asks for a property, and texts
have none. -/
def pickItem (text : List Char) (item : List Char) : Except Fault (List Char) :=
  match takeNumber? item with
  | none => .error .badValue
  | some (some n, []) =>
    match text[n]? with
    | some c => .ok [c]
    | none => .error .outOfRange
  | some (none, []) => .error .badValue
  | some (_, _ :: _) => .error .typeMismatch

/-- Follows the brackets and points after the number of a place; `open?` holds what was
read of a bracket, last character first. -/
def follow (text : List Char) : Option (List Char) → List Char → Except Fault (List Char)
  | none, [] => .ok text
  | some _, [] => .error .badValue
  | none, c :: rest =>
    if c = '[' then follow text (some []) rest
    else if c = '.' then
      match rest with
      | [] => .error .badValue
      | d :: _ => .error (if d = '.' || d = '[' then .badValue else .noSuchProperty)
    else .error .badValue
  | some item, c :: rest =>
    if c = ']' then do follow (← pickItem text item.reverse) none rest
    else follow text (some (c :: item)) rest

/-- A text in the form that a letter asks for: as it is, in quotes, or in quotes with
plain characters only. -/
def inForm (form : Option Char) (text : List Char) : Except Fault (List Char) :=
  match form with
  | none | some 's' => .ok text
  | some 'r' => .ok (quote text)
  | some 'a' => .ok (escapeBeyondAscii (quote text))
  | some c => if c = Char.ofNat 0 then .ok text else .error .badValue

def fillPieces (expand : Numbering → List Char → Except Fault (List Char × Numbering))
    (arguments : List (List Char)) :
    Numbering → List Piece → Except Fault (List Char × Numbering)
  | numbering, [] => .ok ([], numbering)
  | _, .malformed :: _ => .error .badValue
  | numbering, .char c :: rest => do
    let (text, numbering) ← fillPieces expand arguments numbering rest
    return (c :: text, numbering)
  | numbering, .place name form layout :: rest => do
    let first := name.takeWhile fun c => c ≠ '.' && c ≠ '['
    let (n, numbering) ← choose numbering first
    let argument ← match arguments[n]? with
      | some a => .ok a
      | none => .error .outOfRange
    let picked ← follow argument none (name.drop first.length)
    let formed ← inForm form picked
    let (layout, numbering) ←
      if layout.contains openBrace then expand numbering layout else .ok (layout, numbering)
    let placed ← match Layout.read? layout with
      | some l => .ok (l.apply formed)
      | none => .error .badValue
    let (text, numbering) ← fillPieces expand arguments numbering rest
    return (placed ++ text, numbering)

/-- Fills a template in which layouts nest less deep than `levels`. -/
def fillWithin (arguments : List (List Char)) :
    Nat → Numbering → List Char → Except Fault (List Char × Numbering)
  | 0, _, _ => .error .badValue
  | levels + 1, numbering, template =>
    fillPieces (fillWithin arguments levels) arguments numbering (piecesFrom .outside template)

/-- A layout may have places, but their layouts may not. -/
def fillLevels : Nat := 2

def fill (template : String) (arguments : List String) : Except Fault String := do
  let (text, _) ←
    fillWithin (arguments.map String.toList) fillLevels .undecided template.toList
  return String.ofList text

end BlockScript.Text
