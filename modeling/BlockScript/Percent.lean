import BlockScript.Decimal.Fixed
import BlockScript.Display
import BlockScript.Number
import BlockScript.Text.Layout

/-!
Texts with a place for one value. A percent sign starts a place: marks for the sign, the
side and the filling, a width, a precision after a point, and a letter that says how to
show the value. Two percent signs stand for one. A value must be shown, unless it is a
list.
-/
namespace BlockScript.Percent

structure Marks where
  leftward : Bool
  plus : Bool
  space : Bool
  full : Bool
  zeros : Bool
  width : Nat
  precision : Option Nat

def Marks.none : Marks := ⟨false, false, false, false, false, 0, Option.none⟩

structure Shown where
  negative : Bool
  base : List Char
  digits : List Char

def pad (m : Marks) (cs : List Char) : List Char :=
  let blanks := List.replicate (m.width - cs.length) ' '
  if m.leftward then cs ++ blanks else blanks ++ cs

/-- A number in its column. Zeros go between the sign and the digits. -/
def place (m : Marks) (s : Shown) : List Char :=
  let sign := if s.negative then ['-'] else if m.plus then ['+'] else if m.space then [' '] else []
  let front := sign ++ s.base
  if m.zeros && !m.leftward then
    front ++ List.replicate (m.width - (front.length + s.digits.length)) '0' ++ s.digits
  else pad m (front ++ s.digits)

def placeText (m : Marks) (cs : List Char) : List Char :=
  pad m (match m.precision with
    | some n => cs.take n
    | Option.none => cs)

def withPrecision (m : Marks) (digits : List Char) : List Char :=
  List.replicate (m.precision.getD 0 - digits.length) '0' ++ digits

/-- A literal as a whole number; a broken one loses its fraction. -/
def wholeNumber : Value → Except Fault Int
  | .bool b => .ok (if b then 1 else 0)
  | .int n => .ok n
  | .float x =>
    match Decimal.truncated? x with
    | some n => .ok n
    | Option.none => .error (if x.isNaN then .badValue else .overflow)
  | _ => .error .typeMismatch

def exactInteger : Value → Except Fault Int
  | .bool b => .ok (if b then 1 else 0)
  | .int n => .ok n
  | _ => .error .typeMismatch

def floatOf : Value → Except Fault Float
  | .bool b => .ok (if b then 1.0 else 0.0)
  | .int n => Number.toFloat (.int n)
  | .float x => .ok x
  | _ => .error .typeMismatch

def decimal (m : Marks) (v : Value) : Except Fault (List Char) := do
  let n ← wholeNumber v
  let digits ← Value.integerText n.natAbs
  return place m ⟨n < 0, [], withPrecision m digits⟩

/-- A number in a base other than ten, marked with the letter of the base if the full form
is wanted. -/
def based (m : Marks) (base : Nat) (letter : Char) (v : Value) : Except Fault Shown := do
  let n ← exactInteger v
  return ⟨n < 0, if m.full then ['0', letter] else [],
    withPrecision m (Nat.toDigits base n.natAbs)⟩

def floating (m : Marks) (style : Decimal.Style) (v : Value) : Except Fault Shown := do
  let x ← floatOf v
  return ⟨Decimal.isNegative x, [], Decimal.writeFixed style m.full (m.precision.getD 6) x⟩

def Shown.upper (s : Shown) : Shown :=
  { s with base := s.base.map Char.toUpper, digits := s.digits.map Char.toUpper }

def character : Value → Except Fault Char
  | .str s =>
    match s.toList with
    | [c] => .ok c
    | _ => .error .typeMismatch
  | v => do
    let n ← exactInteger v
    if 0 ≤ n && n < 0x110000 then return Char.ofNat n.toNat else throw .overflow

def shown (m : Marks) (letter : Char) (v : Value) : Except Fault (List Char) :=
  match letter with
  | 's' => do return placeText m (← v.text)
  | 'r' => do return placeText m (← v.quoted)
  | 'a' => do return placeText m (Text.escapeBeyondAscii (← v.quoted))
  | 'd' | 'i' | 'u' => decimal m v
  | 'o' => do return place m (← based m 8 'o' v)
  | 'x' => do return place m (← based m 16 'x' v)
  | 'X' => do return place m (← based m 16 'x' v).upper
  | 'e' => do return place m (← floating m .scientific v)
  | 'E' => do return place m (← floating m .scientific v).upper
  | 'f' => do return place m (← floating m .positional v)
  | 'F' => do return place m (← floating m .positional v).upper
  | 'g' => do return place m (← floating m .shorter v)
  | 'G' => do return place m (← floating m .shorter v).upper
  | 'c' => do return pad m [← character v]
  | _ => .error .badValue

inductive Spot
  | outside
  | started
  /-- Inside the name of a part, with the number of brackets that are open. -/
  | inName (brackets : Nat)
  | atMarks (m : Marks)
  | inWidth (m : Marks)
  | afterWidth (m : Marks)
  | atPrecision (m : Marks)
  | inPrecision (m : Marks)
  | afterPrecision (m : Marks)
  | afterSize (m : Marks)

inductive Next
  | more (spot : Spot) (used : Bool)
  | done (text : List Char) (used : Bool)

def take (v : Value) (used : Bool) : Except Fault Value :=
  if used then .error .typeMismatch else .ok v

def atLetter (v : Value) (used : Bool) (m : Marks) (c : Char) : Except Fault Next := do
  return .done (← shown m c (← take v used)) true

/-- Three letters that only say how much room a number takes have no meaning here. -/
def atSize (v : Value) (used : Bool) (m : Marks) (c : Char) : Except Fault Next :=
  if c = 'h' || c = 'l' || c = 'L' then .ok (.more (.afterSize m) used)
  else atLetter v used m c

def afterWidth (v : Value) (used : Bool) (m : Marks) (c : Char) : Except Fault Next :=
  if c = '.' then .ok (.more (.atPrecision { m with precision := some 0 }) used)
  else atSize v used m c

/-- The value itself as a width. A negative one puts the text to the left. -/
def starWidth (v : Value) (used : Bool) (m : Marks) : Except Fault Next := do
  let n ← exactInteger (← take v used)
  if n < -(Text.greatestNumber + 1 : Int) || (Text.greatestNumber : Int) < n then throw .overflow
  return .more (.afterWidth { m with width := n.natAbs, leftward := m.leftward || n < 0 }) true

def greatestPrecision : Nat := Nat.pow 2 31 - 1

/-- The value itself as a precision. A negative one is zero. -/
def starPrecision (v : Value) (used : Bool) (m : Marks) : Except Fault Next := do
  let n ← exactInteger (← take v used)
  if n < -(greatestPrecision + 1 : Int) || (greatestPrecision : Int) < n then throw .overflow
  return .more (.afterPrecision { m with precision := some n.toNat }) true

def digitOf (c : Char) : Nat := c.toNat - '0'.toNat

def widen (m : Marks) (used : Bool) (c : Char) : Except Fault Next :=
  let width := 10 * m.width + digitOf c
  if Text.greatestNumber < width then .error .badValue
  else .ok (.more (.inWidth { m with width := width }) used)

def refine (m : Marks) (used : Bool) (c : Char) : Except Fault Next :=
  let precision := 10 * m.precision.getD 0 + digitOf c
  if greatestPrecision < precision then .error .badValue
  else .ok (.more (.inPrecision { m with precision := some precision }) used)

def atMarks (v : Value) (used : Bool) (m : Marks) (c : Char) : Except Fault Next :=
  let more (m : Marks) : Except Fault Next := .ok (.more (.atMarks m) used)
  if c = '-' then more { m with leftward := true }
  else if c = '+' then more { m with plus := true }
  else if c = ' ' then more { m with space := true }
  else if c = '#' then more { m with full := true }
  else if c = '0' then more { m with zeros := true }
  else if c = '*' then starWidth v used m
  else if c.isDigit then widen m used c
  else afterWidth v used m c

/-- Only a list has parts, and no part of a list has a name. -/
def inName (used : Bool) (brackets : Nat) (c : Char) : Except Fault Next :=
  if c = '(' then .ok (.more (.inName (brackets + 1)) used)
  else if c ≠ ')' then .ok (.more (.inName brackets) used)
  else match brackets with
    | 0 => .error .typeMismatch
    | n + 1 => .ok (.more (.inName n) used)

def isList : Value → Bool
  | .list _ => true
  | _ => false

def next (v : Value) (used : Bool) : Spot → Char → Except Fault Next
  | .outside, c => .ok (if c = '%' then .more .started used else .done [c] used)
  | .started, c =>
    if c = '%' then .ok (.done [c] used)
    else if c = '(' then if isList v then .ok (.more (.inName 0) used) else .error .typeMismatch
    else atMarks v used Marks.none c
  | .inName brackets, c => inName used brackets c
  | .atMarks m, c => atMarks v used m c
  | .inWidth m, c => if c.isDigit then widen m used c else afterWidth v used m c
  | .afterWidth m, c => afterWidth v used m c
  | .atPrecision m, c =>
    if c = '*' then starPrecision v used m
    else if c.isDigit then refine m used c
    else atSize v used m c
  | .inPrecision m, c => if c.isDigit then refine m used c else atSize v used m c
  | .afterPrecision m, c => atSize v used m c
  | .afterSize m, c => atLetter v used m c

def fillFrom (v : Value) : Spot → Bool → List Char → Except Fault (List Char)
  | .outside, used, [] => if used || isList v then .ok [] else .error .typeMismatch
  | _, _, [] => .error .badValue
  | spot, used, c :: rest => do
    match ← next v used spot c with
    | .more spot used => fillFrom v spot used rest
    | .done text used => return text ++ (← fillFrom v .outside used rest)

def fill (template : String) (v : Value) : Except Fault String := do
  return String.ofList (← fillFrom v .outside false template.toList)

end BlockScript.Percent
