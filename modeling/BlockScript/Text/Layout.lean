import BlockScript.Text.CharClass

/-!
How a text fills a column. A description names, in this order and each only if it is
wanted, a filling character with a side, the width of the column, and the greatest number
of characters to keep; a letter `s` may end it.
-/
namespace BlockScript.Text

inductive Side
  | left
  | right
  | middle
  deriving DecidableEq, Repr

structure Layout where
  fill : Char
  side : Side
  width : Nat
  limit : Option Nat
  deriving DecidableEq, Repr

def greatestNumber : Nat := Nat.pow 2 63 - 1

/-- The digits at the front of a text as a number, and the text after them. A number that
is too great cannot be read. -/
def takeNumber? (cs : List Char) : Option (Option Nat × List Char) :=
  let digits := cs.takeWhile isDecimalDigit
  let value := digits.foldl (fun n c => 10 * n + (digitValue? c).getD 0) 0
  if greatestNumber < value then none
  else some (if digits.isEmpty then none else some value, cs.drop digits.length)

namespace Layout

def isSideMark (c : Char) : Bool := c = '<' || c = '>' || c = '^' || c = '='

/-- The filling character, the mark of a side, and the description after them. -/
def takeSide (cs : List Char) : Option Char × Option Char × List Char :=
  match cs with
  | [] => (none, none, [])
  | [c] => if isSideMark c then (none, some c, []) else (none, none, cs)
  | c :: d :: rest =>
    if isSideMark d then (some c, some d, rest)
    else if isSideMark c then (none, some c, d :: rest)
    else (none, none, cs)

/-- Texts stand at the left unless a mark says otherwise. An equals sign puts the filling
after the sign of a number, which a text has not. -/
def side? : Option Char → Option Side
  | none | some '<' => some .left
  | some '>' => some .right
  | some '^' => some .middle
  | _ => none

/-- The greatest length after a point, and the description after it. -/
def takeLimit? : List Char → Option (Option Nat × List Char)
  | '.' :: rest => do
    let (limit, rest) ← takeNumber? rest
    if limit.isSome then some (limit, rest) else none
  | rest => some (none, rest)

/-- Reads a description. A zero before the width is the filling character if no other is
given. -/
def read? (cs : List Char) : Option Layout := do
  let (fill, mark, rest) := takeSide cs
  let side ← side? mark
  let fill := fill.getD (if rest.head? = some '0' then '0' else ' ')
  let (width, rest) ← takeNumber? rest
  let (limit, rest) ← takeLimit? rest
  if rest = [] || rest = ['s'] then some ⟨fill, side, width.getD 0, limit⟩ else none

/-- How much filling goes before a text that is `missing` characters short. -/
def before (side : Side) (missing : Nat) : Nat :=
  match side with
  | .left => 0
  | .right => missing
  | .middle => missing / 2

def apply (l : Layout) (cs : List Char) : List Char :=
  let kept := match l.limit with
    | some n => cs.take n
    | none => cs
  let missing := l.width - kept.length
  let left := before l.side missing
  List.replicate left l.fill ++ kept ++ List.replicate (missing - left) l.fill

end Layout

end BlockScript.Text
