/-!
Binary floating-point numbers as exact quantities. A finite number is a sign, a
mantissa and a power of two; a quotient of natural numbers is rounded to the
nearest such number, a tie going to the even mantissa.
-/
namespace BlockScript.Decimal

inductive Parts
  | finite (negative : Bool) (mantissa : Nat) (exponent : Int)
  | infinite (negative : Bool)
  | nan
  deriving DecidableEq, Repr

def leastExponent : Int := -1074

def mantissaBits : Nat := 52

def Parts.ofBits (bits : Nat) : Parts :=
  let negative := bits / Nat.pow 2 63 % 2 == 1
  let field := bits / Nat.pow 2 mantissaBits % 2048
  let fraction := bits % Nat.pow 2 mantissaBits
  if field = 2047 then
    if fraction = 0 then .infinite negative else .nan
  else if field = 0 then .finite negative fraction leastExponent
  else .finite negative (Nat.pow 2 mantissaBits + fraction) (leastExponent + (field - 1 : Nat))

def parts (x : Float) : Parts := Parts.ofBits x.toBits.toNat

def infinityBits : Nat := 2047 * Nat.pow 2 mantissaBits

def ofMagnitude (negative : Bool) (bits : Nat) : Float :=
  Float.ofBits (UInt64.ofNat ((if negative then Nat.pow 2 63 else 0) + bits))

def infinity (negative : Bool) : Float := ofMagnitude negative infinityBits

def notANumber : Float := Float.ofBits 0x7ff8000000000000

/-- The greatest `e` with `2 ^ e ≤ num / den`, for positive arguments. -/
def floorLog2 (num den : Nat) : Int :=
  let e : Int := (Nat.log2 num : Int) - Nat.log2 den
  if num * Nat.pow 2 (-e).toNat < den * Nat.pow 2 e.toNat then e - 1 else e

/-- The nearest whole number to a quotient, a tie going to the even one. -/
def divNearest (num den : Nat) : Nat :=
  let q := num / den
  let r := num % den
  if 2 * r > den ∨ (2 * r = den ∧ q % 2 = 1) then q + 1 else q

/-- The magnitude bits of the number nearest to a quotient. A quotient too large
for any finite number becomes infinite. -/
def nearestBits (num den : Nat) : Nat :=
  if num = 0 then 0
  else
    let q := max (floorLog2 num den - mantissaBits) leastExponent
    let m := divNearest (num * Nat.pow 2 (-q).toNat) (den * Nat.pow 2 q.toNat)
    min ((q - leastExponent).toNat * Nat.pow 2 mantissaBits + m) infinityBits

def ofQuotient (negative : Bool) (num den : Nat) : Float :=
  ofMagnitude negative (nearestBits num den)

/-- The number nearest to an integer, unless it is too large for any. -/
def ofInt? (n : Int) : Option Float :=
  let bits := nearestBits n.natAbs 1
  if bits < infinityBits then some (ofMagnitude (n < 0) bits) else none

end BlockScript.Decimal
