import BlockScript.Decimal.Binary
import BlockScript.Fault

/-!
Arithmetic on literal numbers. Integers are exact and of any size; as soon as a
floating-point number takes part the result is one too. Division always gives a
floating-point number, and the remainder has the sign of the divisor. A power may lie off
the real line.
-/
namespace BlockScript

inductive Number
  | int (n : Int)
  | float (x : Float)

namespace Number

open Decimal

/-- The nearest floating-point number; some integers are too large for any. -/
def toFloat : Number → Except Fault Float
  | float x => .ok x
  | int n => match ofInt? n with
    | some x => .ok x
    | none => .error .overflow

def combine (exact : Int → Int → Int) (rounded : Float → Float → Float) (a b : Number) :
    Except Fault Number :=
  match a, b with
  | int m, int n => .ok (int (exact m n))
  | _, _ => do return float (rounded (← a.toFloat) (← b.toFloat))

def add : Number → Number → Except Fault Number := combine (· + ·) (· + ·)

def sub : Number → Number → Except Fault Number := combine (· - ·) (· - ·)

def mul : Number → Number → Except Fault Number := combine (· * ·) (· * ·)

def neg : Number → Number
  | int n => int (-n)
  | float x => float (-x)

def abs : Number → Number
  | int n => int n.natAbs
  | float x => float x.abs

def div (a b : Number) : Except Fault Number :=
  match a, b with
  | int m, int n =>
    if n = 0 then .error .divisionByZero
    else
      let x := ofQuotient ((m < 0) != (n < 0)) m.natAbs n.natAbs
      if x.isInf then .error .overflow else .ok (float x)
  | _, _ => do
    let x ← a.toFloat
    let y ← b.toFloat
    if y == 0.0 then .error .divisionByZero else return float (x / y)

/-- The exact remainder of two finite numbers, with the sign of the first. -/
def truncatedRemainder (x y : Float) : Float :=
  match parts x, parts y with
  | .finite negative m p, .finite _ n q =>
    let least := min p q
    let r := (m * Nat.pow 2 (p - least).toNat) % (n * Nat.pow 2 (q - least).toNat)
    ofQuotient negative (r * Nat.pow 2 least.toNat) (Nat.pow 2 (-least).toNat)
  | .finite _ _ _, .infinite _ => x
  | _, _ => notANumber

def flooredRemainder (x y : Float) : Float :=
  let r := truncatedRemainder x y
  if r == 0.0 then ofMagnitude (y < 0.0) 0
  else if (y < 0.0) != (r < 0.0) then r + y
  else r

def mod (a b : Number) : Except Fault Number :=
  match a, b with
  | int m, int n => if n = 0 then .error .divisionByZero else .ok (int (Int.fmod m n))
  | _, _ => do
    let x ← a.toFloat
    let y ← b.toFloat
    if y == 0.0 then .error .divisionByZero else return float (flooredRemainder x y)

def isOddInteger (x : Float) : Bool :=
  match parts x with
  | .finite _ m q =>
    if q ≤ 0 then m % Nat.pow 2 ((-q).toNat + 1) == Nat.pow 2 (-q).toNat else false
  | _ => false

def isInteger (x : Float) : Bool := x.floor == x

inductive Power
  | real (n : Number)
  | complex (re im : Float)

/-- A broken power of a negative number: the power of its size, turned by the exponent's
share of a half turn. -/
def complexPow (x y : Float) : Except Fault Power :=
  let size := Float.pow x.abs y
  let angle := Float.atan2 0.0 x * y
  let re := size * angle.cos
  let im := size * angle.sin
  if re.isInf || im.isInf then .error .overflow else .ok (.complex re im)

/-- Powers of floating-point numbers, with the limits that powers tend to at zero, at
one and at the infinities. -/
def floatPow (x y : Float) : Except Fault Power :=
  let odd := isOddInteger y
  let real (z : Float) : Except Fault Power := .ok (.real (float z))
  if y == 0.0 then real 1.0
  else if x.isNaN then real x
  else if y.isNaN then real (if x == 1.0 then 1.0 else y)
  else if y.isInf then
    let size := x.abs
    real (if size == 1.0 then 1.0 else if (y > 0.0) == (size > 1.0) then y.abs else 0.0)
  else if x.isInf then
    real (if y > 0.0 then (if odd then x else x.abs)
      else if odd then ofMagnitude (x < 0.0) 0 else 0.0)
  else if x == 0.0 then
    if y < 0.0 then .error .divisionByZero else real (if odd then x else 0.0)
  else if x < 0.0 && !isInteger y then complexPow x y
  else
    let size := if x.abs == 1.0 then 1.0 else Float.pow x.abs y
    if size.isInf then .error .overflow else real (if x < 0.0 && odd then -size else size)

def pow (a b : Number) : Except Fault Power :=
  match a, b with
  | int m, int n =>
    if 0 ≤ n then .ok (.real (int (Int.pow m n.toNat)))
    else do floatPow (← toFloat (int m)) (← toFloat (int n))
  | _, _ => do floatPow (← a.toFloat) (← b.toFloat)

/-- The order of an integer and a finite number, exactly. -/
def compareParts (n : Int) (negative : Bool) (m : Nat) (q : Int) : Ordering :=
  let left := n * Nat.pow 2 (-q).toNat
  let size : Int := m * Nat.pow 2 q.toNat
  compare left (if negative then -size else size)

def compareFloat (x y : Float) : Option Ordering :=
  if x < y then some .lt else if y < x then some .gt else if x == y then some .eq else none

def order? : Number → Number → Option Ordering
  | int m, int n => some (compare m n)
  | float x, float y => compareFloat x y
  | int n, float x =>
    match parts x with
    | .finite negative m q => some (compareParts n negative m q)
    | .infinite negative => some (if negative then .gt else .lt)
    | .nan => none
  | float x, int n =>
    match parts x with
    | .finite negative m q => some (compareParts n negative m q).swap
    | .infinite negative => some (if negative then .lt else .gt)
    | .nan => none

def equal (a b : Number) : Bool := order? a b == some .eq

end Number

end BlockScript
