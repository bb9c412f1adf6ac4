import BlockScript.Decimal.Binary

/-!
The fewest decimal digits that read back as a given floating-point number. For each
count of digits the two neighbours of the number on that decimal grid are tested
against the interval of reals that round to it; the first grid with a hit wins, and
of two hits the nearer one.
-/
namespace BlockScript.Decimal

/-- The number `digits * 10 ^ exponent`. -/
structure Digits where
  digits : Nat
  exponent : Int
  deriving DecidableEq, Repr

def digitCount (n : Nat) : Nat := (Nat.toDigits 10 n).length

/-- The greatest `e` with `10 ^ e ≤ num / den`, for positive arguments. -/
def floorLog10 (num den : Nat) : Int :=
  if den ≤ num then (digitCount (num / den) : Int) - 1
  else
    let width := digitCount (den / num)
    if den ≤ num * Nat.pow 10 (width - 1) then 1 - (width : Int) else -(width : Int)

/-- The reals that round to `mantissa * 2 ^ exponent`, in quarters of a unit of the
last place: the interval reaches half a unit up, and half a unit down or a quarter
where the numbers below are twice as dense. -/
structure Interval where
  low : Nat
  value : Nat
  high : Nat
  closed : Bool

def interval (mantissa : Nat) (exponent : Int) : Interval :=
  let dense := mantissa = Nat.pow 2 mantissaBits ∧ exponent > leastExponent
  { low := 4 * mantissa - (if dense then 1 else 2)
    value := 4 * mantissa
    high := 4 * mantissa + 2
    closed := mantissa % 2 = 0 }

/-- Whether `candidate * unit` lies in the interval scaled by `scale`. -/
def Interval.contains (i : Interval) (scale candidate unit : Nat) : Bool :=
  if i.closed then i.low * scale ≤ candidate * unit && candidate * unit ≤ i.high * scale
  else i.low * scale < candidate * unit && candidate * unit < i.high * scale

/-- The best point of the grid `10 ^ k` in the interval, if it has one. -/
def gridPoint? (i : Interval) (exponent k : Int) : Option Nat :=
  let scale := Nat.pow 2 (exponent - 2).toNat * Nat.pow 10 (-k).toNat
  let unit := Nat.pow 10 k.toNat * Nat.pow 2 (2 - exponent).toNat
  let below := i.value * scale / unit
  let above := below + 1
  let down := i.value * scale - below * unit
  let up := above * unit - i.value * scale
  match i.contains scale below unit, i.contains scale above unit with
  | true, true =>
    some (if down < up then below else if up < down then above
      else if below % 2 = 0 then below else above)
  | true, false => some below
  | false, true => some above
  | false, false => none

def dropZeros : Nat → Digits → Digits
  | 0, d => d
  | fuel + 1, d =>
    if d.digits ≠ 0 ∧ d.digits % 10 = 0 then dropZeros fuel ⟨d.digits / 10, d.exponent + 1⟩
    else d

def shortestFrom (i : Interval) (exponent leading : Int) (count : Nat) : Nat → Digits
  | 0 => ⟨i.value, exponent⟩
  | tries + 1 =>
    let k := leading - count + 1
    match gridPoint? i exponent k with
    | some d => dropZeros 20 ⟨d, k⟩
    | none => shortestFrom i exponent leading (count + 1) tries

/-- Seventeen digits always suffice. -/
def shortest (mantissa : Nat) (exponent : Int) : Digits :=
  if mantissa = 0 then ⟨0, 0⟩
  else
    let leading := floorLog10 (mantissa * Nat.pow 2 exponent.toNat) (Nat.pow 2 (-exponent).toNat)
    shortestFrom (interval mantissa exponent) exponent leading 1 17

end BlockScript.Decimal
