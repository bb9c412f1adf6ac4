/-!
Places in a text by line and column. A place is an offset from the start of the text;
a negative one counts from the end, and one beyond an end is moved to it when
characters are counted.
-/
namespace BlockScript.Text

def clampOffset (length : Nat) (place : Int) : Nat :=
  if place < 0 then (length + place).toNat else min place.toNat length

def countNewlines (cs : List Char) : Nat := cs.count '\n'

def newlinesBefore (cs : List Char) (place : Int) : Nat :=
  countNewlines (cs.take (clampOffset cs.length place))

def lineStart (cs : List Char) : Nat :=
  cs.length - (cs.reverse.takeWhile (· ≠ '\n')).length

/-- The offset of the last newline before a place, or -1. -/
def lastNewline (cs : List Char) (place : Int) : Int :=
  (lineStart (cs.take (clampOffset cs.length place)) : Int) - 1

def column (cs : List Char) (place : Int) : Int := place - lastNewline cs place

/-- The lines of a text; there is always at least one. -/
def splitLines : List Char → List (List Char)
  | [] => [[]]
  | c :: rest =>
    if c = '\n' then [] :: splitLines rest
    else match splitLines rest with
      | line :: more => (c :: line) :: more
      | [] => [[c]]

/-- A text without any occurrence of a part, read from the left; `skip` more
characters belong to the last occurrence. -/
def eraseFrom (part : List Char) (skip : Nat) : List Char → List Char
  | [] => []
  | c :: rest =>
    if skip ≠ 0 then eraseFrom part (skip - 1) rest
    else if !part.isEmpty && part.isPrefixOf (c :: rest) then
      eraseFrom part (part.length - 1) rest
    else c :: eraseFrom part 0 rest

def erase (text part : String) : String :=
  String.ofList (eraseFrom part.toList 0 text.toList)

/-- A text in which a carriage return, alone or before a line feed, is a line feed. -/
def plainLineEnds : List Char → List Char
  | [] => []
  | '\r' :: '\n' :: rest => '\n' :: plainLineEnds rest
  | '\r' :: rest => '\n' :: plainLineEnds rest
  | c :: rest => c :: plainLineEnds rest

def beginsWith (start text : String) : Bool := start.toList.isPrefixOf text.toList

end BlockScript.Text
