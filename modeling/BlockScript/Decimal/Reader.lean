import BlockScript.Decimal.Binary
import BlockScript.Text.CharClass

/-!
Reading numbers from text: decimal numbers with an optional point and exponent, and
whole numbers in a base marked at the front. Digits of every script count, and a
single underscore may stand between two digits.
-/
namespace BlockScript.Decimal

open Text

def plainDigits (cs : List Char) : List Char :=
  cs.map fun c => match digitValue? c with
    | some v => Char.ofNat ('0'.toNat + v)
    | none => c

/-- Removes underscores, each of which must stand between two digits; `last` is the
character before the text. -/
def joinDigits (last : Char) : List Char → Option (List Char)
  | [] => if last == '_' then none else some []
  | c :: rest =>
    if c == '_' then if last.isDigit then joinDigits c rest else none
    else if last == '_' && !c.isDigit then none
    else (joinDigits c rest).map (c :: ·)

def natOfDigits (cs : List Char) : Nat :=
  cs.foldl (fun n c => 10 * n + (c.toNat - '0'.toNat)) 0

def ofDecimal (negative : Bool) (digits : Nat) (exponent : Int) : Float :=
  ofQuotient negative (digits * Nat.pow 10 exponent.toNat) (Nat.pow 10 (-exponent).toNat)

def takeSign : List Char → Bool × List Char
  | '-' :: rest => (true, rest)
  | '+' :: rest => (false, rest)
  | cs => (false, cs)

/-- The exponent at the end of a decimal number; an absent one is zero. -/
def readExponent? : List Char → Option Int
  | [] => some 0
  | c :: rest =>
    if lowerAscii c == 'e' then
      let (negative, figures) := takeSign rest
      if figures.isEmpty || !figures.all Char.isDigit then none
      else some (if negative then -(natOfDigits figures : Int) else natOfDigits figures)
    else none

/-- Exponents beyond this many places leave no finite number but zero, whatever the
digits. -/
def exponentBound (digits : Nat) : Nat := digits + 400

def readMagnitude? (negative : Bool) (cs : List Char) : Option Float :=
  let whole := cs.takeWhile Char.isDigit
  let rest := cs.dropWhile Char.isDigit
  let (fraction, tail) := match rest with
    | '.' :: more => (more.takeWhile Char.isDigit, more.dropWhile Char.isDigit)
    | _ => ([], rest)
  if whole.isEmpty && fraction.isEmpty then none
  else do
    let e ← readExponent? tail
    let digits := natOfDigits (whole ++ fraction)
    let bound : Int := exponentBound (whole.length + fraction.length)
    let e := max (-bound) (min bound e)
    some (ofDecimal negative digits (e - fraction.length))

/-- Reads a number with an optional sign, also an infinite one or the text `nan`. -/
def read? (text : List Char) : Option Float := do
  let cs ← joinDigits ' ' (plainDigits (trimBy isNumberPadding text))
  let (negative, body) := takeSign cs
  let word := String.ofList (body.map lowerAscii)
  if word == "inf" || word == "infinity" then some (infinity negative)
  else if word == "nan" then some notANumber
  else readMagnitude? negative body

def digitIn? (base : Nat) (c : Char) : Option Nat :=
  let v := if c.isDigit then c.toNat - '0'.toNat
    else if 'a' ≤ lowerAscii c && lowerAscii c ≤ 'z' then (lowerAscii c).toNat - 'a'.toNat + 10
    else base
  if v < base then some v else none

/-- Reads digits of a base; `separated` tells whether an underscore may come next. -/
def readDigits? (base : Nat) (separated : Bool) (value : Nat) : List Char → Option Nat
  | [] => if separated then some value else none
  | '_' :: rest => if separated then readDigits? base false value rest else none
  | c :: rest => do
    let d ← digitIn? base c
    readDigits? base true (base * value + d) rest

/-- Reads a whole number that starts with the two characters of its base. An
underscore may follow them. -/
def readBase? (base : Nat) (text : List Char) : Option Nat :=
  match plainDigits (trimBy isNumberPadding text) with
  | _ :: _ :: '_' :: rest => readDigits? base false 0 rest
  | _ :: _ :: rest => readDigits? base false 0 rest
  | _ => none

def readInt? (text : List Char) : Option Int :=
  let (negative, digits) := takeSign (plainDigits (trimBy isNumberPadding text))
  (readDigits? 10 false 0 digits).map fun n => if negative then -(n : Int) else n

end BlockScript.Decimal
