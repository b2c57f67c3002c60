/-!
# Binary floating-point numbers

A `Double` is a 64-bit pattern: one sign bit, eleven exponent bits, fifty-two
fraction bits. A finite one stands for `significand * 2 ^ power`, and `ofRatio`
rounds an exact ratio to the nearest one, a tie going to the even significand.
All arithmetic is exact arithmetic on natural numbers.
-/

namespace LiteSql

/-- A 64-bit floating-point number, given by its bits. -/
structure Double where
  bits : UInt64
deriving DecidableEq

namespace Double

/-- Whether the sign bit is set. -/
def negative (d : Double) : Bool :=
  Nat.pow 2 63 ≤ d.bits.toNat

/-- The eleven exponent bits as a number. -/
def exponentField (d : Double) : Nat :=
  d.bits.toNat / Nat.pow 2 52 % Nat.pow 2 11

/-- The fifty-two fraction bits as a number. -/
def fractionField (d : Double) : Nat :=
  d.bits.toNat % Nat.pow 2 52

def isFinite (d : Double) : Bool :=
  d.exponentField ≠ 2047

def isNaN (d : Double) : Bool :=
  d.exponentField = 2047 ∧ d.fractionField ≠ 0

/-- The factor of the magnitude that is an integer below `2 ^ 53`. -/
def significand (d : Double) : Nat :=
  if d.exponentField = 0 then d.fractionField else Nat.pow 2 52 + d.fractionField

/-- The power of two of the magnitude. -/
def power (d : Double) : Int :=
  if d.exponentField = 0 then -1074 else d.exponentField - 1075

/-- The magnitude as an integer, when the number has no fractional part. -/
def whole? (d : Double) : Option Nat :=
  if 0 ≤ d.power then some (d.significand * Nat.pow 2 d.power.toNat)
  else if d.significand % Nat.pow 2 (-d.power).toNat = 0 then
    some (d.significand / Nat.pow 2 (-d.power).toNat)
  else none

/-- The bits of positive infinity. -/
def infinityBits : Nat := 2047 * Nat.pow 2 52

/-- The number with the given sign whose other bits are those of `magnitude`,
which stops at infinity. -/
def ofMagnitude (negative : Bool) (magnitude : Nat) : Double :=
  ⟨UInt64.ofNat (min magnitude infinityBits + if negative then Nat.pow 2 63 else 0)⟩

/-- The quotient rounded to the nearest integer, a tie going to the even one. -/
def roundedQuotient (a b : Nat) : Nat :=
  if 2 * (a % b) < b ∨ (2 * (a % b) = b ∧ a / b % 2 = 0) then a / b else a / b + 1

/-- The greatest `e` with `2 ^ e ≤ a / b`. -/
def floorLog2 (a b : Nat) : Int :=
  let e : Int := a.log2 - b.log2
  if a * Nat.pow 2 (-e).toNat < b * Nat.pow 2 e.toNat then e - 1 else e

/-- The double nearest to `a / b`, with the given sign. -/
def ofRatio (negative : Bool) (a b : Nat) : Double :=
  if a = 0 then ofMagnitude negative 0
  else
    let q : Int := max (-1074) (floorLog2 a b - 52)
    let m := roundedQuotient (a * Nat.pow 2 (-q).toNat) (b * Nat.pow 2 q.toNat)
    ofMagnitude negative ((q + 1074).toNat * Nat.pow 2 52 + m)

/-- The double nearest to an integer. -/
def ofInt (n : Int) : Double :=
  ofRatio (n < 0) n.natAbs 1

/-- The double nearest to `coefficient * 10 ^ exponent`. A value with more than
310 digits before the point is beyond every double, and one whose first digit
is more than 330 places after the point is below every half of one, so no large
power is formed. -/
def ofScientific (negative : Bool) (coefficient : Nat) (exponent : Int) : Double :=
  let leading : Int := (Nat.toDigits 10 coefficient).length + exponent
  if coefficient = 0 ∨ leading < -330 then ofMagnitude negative 0
  else if 310 < leading then ofMagnitude negative infinityBits
  else ofRatio negative (coefficient * Nat.pow 10 exponent.toNat) (Nat.pow 10 (-exponent).toNat)

end Double

end LiteSql
