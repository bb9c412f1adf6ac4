import BlockScript.Decimal.Text

/-!
Floating-point numbers to a given number of places: positionally, with an exponent, or
whichever is the shorter of the two. The digits are those of the exact value, rounded to
the nearest, and a tie goes to the even digit.
-/
namespace BlockScript.Decimal

/-- The nearest whole number to `mantissa * 2 ^ exponent / 10 ^ k`. -/
def roundedAt (mantissa : Nat) (exponent k : Int) : Nat :=
  divNearest (mantissa * Nat.pow 2 exponent.toNat * Nat.pow 10 (-k).toNat)
    (Nat.pow 2 (-exponent).toNat * Nat.pow 10 k.toNat)

/-- The first figures of a number, and the power of ten that the first of them counts. -/
structure Figures where
  digits : List Char
  power : Int

/-- A number rounded to so many figures, of which there is at least one. -/
def Figures.of (mantissa : Nat) (exponent : Int) (count : Nat) : Figures :=
  if mantissa = 0 then ⟨List.replicate count '0', 0⟩
  else
    let power := floorLog10 (mantissa * Nat.pow 2 exponent.toNat) (Nat.pow 2 (-exponent).toNat)
    let n := roundedAt mantissa exponent (power - count + 1)
    if n = Nat.pow 10 count then ⟨Nat.toDigits 10 (n / 10), power + 1⟩
    else ⟨Nat.toDigits 10 n, power⟩

inductive Style
  | positional
  | scientific
  | shorter
  deriving DecidableEq, Repr

/-- The digits before and after the point. The point is left out with nothing after it,
unless it is to be kept. -/
def pointed (keepPoint : Bool) (whole fraction : List Char) : List Char :=
  if fraction.isEmpty && !keepPoint then whole else whole ++ '.' :: fraction

def withoutZeros (cs : List Char) : List Char := (cs.reverse.dropWhile (· = '0')).reverse

/-- So many places after the point. -/
def fixedPlaces (keepPoint : Bool) (places mantissa : Nat) (exponent : Int) : List Char :=
  let digits := Nat.toDigits 10 (roundedAt mantissa exponent (-places))
  let padded := List.replicate (places + 1 - digits.length) '0' ++ digits
  pointed keepPoint (padded.take (padded.length - places)) (padded.drop (padded.length - places))

def fixedExponent (keepPoint : Bool) (f : Figures) : List Char :=
  pointed keepPoint (f.digits.take 1) (f.digits.drop 1) ++ (exponentText f.power).toList

/-- So many figures. Without the full form, zeros at the end are left out. -/
def fixedFigures (full : Bool) (count mantissa : Nat) (exponent : Int) : List Char :=
  let f := Figures.of mantissa exponent count
  let trim (cs : List Char) : List Char := if full then cs else withoutZeros cs
  if -4 ≤ f.power ∧ f.power < count then
    if f.power < 0 then
      pointed full ['0'] (trim (List.replicate (-f.power - 1).toNat '0' ++ f.digits))
    else
      let whole := f.power.toNat + 1
      pointed full (f.digits.take whole) (trim (f.digits.drop whole))
  else fixedExponent full ⟨f.digits.take 1 ++ trim (f.digits.drop 1), f.power⟩

/-- A number without its sign. The full form keeps the point and the zeros that the style
could do without. -/
def writeFixed (style : Style) (full : Bool) (places : Nat) (x : Float) : List Char :=
  match parts x with
  | .nan => "nan".toList
  | .infinite _ => "inf".toList
  | .finite _ m q =>
    match style with
    | .positional => fixedPlaces full places m q
    | .scientific => fixedExponent full (Figures.of m q (places + 1))
    | .shorter => fixedFigures full (max 1 places) m q

def isNegative (x : Float) : Bool :=
  match parts x with
  | .nan => false
  | .infinite negative | .finite negative _ _ => negative

def truncated? (x : Float) : Option Int :=
  match parts x with
  | .finite negative m q =>
    let size : Int := m * Nat.pow 2 q.toNat / Nat.pow 2 (-q).toNat
    some (if negative then -size else size)
  | _ => none

end BlockScript.Decimal
