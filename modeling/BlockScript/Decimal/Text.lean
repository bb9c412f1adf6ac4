import BlockScript.Decimal.Shortest

/-!
Floating-point numbers as text. Writing uses the fewest digits that read back,
positionally from a ten-thousandth up to sixteen places before the point and with an
exponent of at least two figures elsewhere; a whole number keeps its `.0`.
-/
namespace BlockScript.Decimal

def zeros (n : Nat) : String := String.ofList (List.replicate n '0')

def digitText (n : Nat) : String := String.ofList (Nat.toDigits 10 n)

/-- The digits with the point after the first `places` of them. -/
def positional (text : String) (places : Int) : String :=
  if places ≤ 0 then "0." ++ zeros (-places).toNat ++ text
  else if (text.length : Int) ≤ places then text ++ zeros (places.toNat - text.length) ++ ".0"
  else String.ofList (text.toList.take places.toNat) ++ "." ++
    String.ofList (text.toList.drop places.toNat)

def exponentText (e : Int) : String :=
  let figures := digitText e.natAbs
  (if e < 0 then "e-" else "e+") ++ (if figures.length < 2 then "0" ++ figures else figures)

def scientific (text : String) (e : Int) : String :=
  match text.toList with
  | [] => ""
  | [c] => String.ofList [c] ++ exponentText e
  | c :: rest => String.ofList (c :: '.' :: rest) ++ exponentText e

def writeDigits (d : Digits) : String :=
  let text := digitText d.digits
  let places := (text.length : Int) + d.exponent
  if -4 < places ∧ places ≤ 16 then positional text places else scientific text (places - 1)

def write (x : Float) : String :=
  match parts x with
  | .nan => "nan"
  | .infinite negative => if negative then "-inf" else "inf"
  | .finite negative m q => (if negative then "-" else "") ++ writeDigits (shortest m q)

def writeInt (n : Int) : String :=
  if n < 0 then "-" ++ digitText n.natAbs else digitText n.natAbs

/-- Whole numbers with more figures than this are neither read nor written in base ten. -/
def figureLimit : Nat := 4300

def writeInt? (n : Int) : Option String :=
  if figureLimit < digitCount n.natAbs then none else some (writeInt n)

end BlockScript.Decimal
