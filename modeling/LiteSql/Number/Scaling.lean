import LiteSql.Number.Double
import LiteSql.Text.Digits

/-!
# Doubles from leading digits

A numeral of any length is read in bounded work: its leading digits, as many as fit 64
bits, become a double, and that is multiplied or divided by a power of ten. Each of these
steps is rounded, so the result may be a unit away from the double nearest to the numeral.
-/

namespace LiteSql

namespace Double

/-- The magnitude is `numerator / denominator`. -/
def numerator (d : Double) : Nat :=
  d.significand * Nat.pow 2 d.power.toNat

def denominator (d : Double) : Nat :=
  Nat.pow 2 (-d.power).toNat

/-- The rounded product with a positive number. -/
def times (d factor : Double) : Double :=
  ofRatio d.negative (d.numerator * factor.numerator) (d.denominator * factor.denominator)

/-- The rounded quotient by a positive number. -/
def dividedBy (d divisor : Double) : Double :=
  ofRatio d.negative (d.numerator * divisor.denominator) (d.denominator * divisor.numerator)

/-- The double nearest to a power of ten. -/
def powerOfTen (k : Nat) : Double :=
  ofRatio false (Nat.pow 10 k) 1

/-- The greatest power of ten that is a double. -/
def topPower : Nat := 308

/-- A number below `2 ^ 64` scaled by a power of ten; `none` if it is beyond all doubles.
Below the least power of ten the number is divided twice, and below the square of that
power nothing is left of it. -/
def scaled? (negative : Bool) (n : Nat) (exponent : Int) : Option Double :=
  let d := ofRatio negative n 1
  let k := exponent.natAbs
  if n = 0 then some d
  else if 0 ≤ exponent then
    if k ≤ topPower ∧ (d.times (powerOfTen k)).isFinite then some (d.times (powerOfTen k))
    else none
  else if k ≤ topPower then some (d.dividedBy (powerOfTen k))
  else if k ≤ 2 * topPower then
    some ((d.dividedBy (powerOfTen topPower)).dividedBy (powerOfTen (k - topPower)))
  else some (ofMagnitude negative 0)

/-- Appends digits to a number while it stays below `2 ^ 64`; gives the digits left over. -/
def appendDigits (n : Nat) : Text → Nat × Text
  | [] => (n, [])
  | c :: rest =>
    let next := 10 * n + Text.digitValue c
    if next < Nat.pow 2 64 then appendDigits next rest
    else (n, c :: rest)

/-- The double of a numeral with digits before and after the point and an exponent. Digits
before the point that are left over count as zeros, and digits after it not at all. -/
def ofNumeral? (negative : Bool) (whole fraction : Text) (exponent : Int) : Option Double :=
  let (n, skipped) := appendDigits 0 whole
  let (n, ignored) := appendDigits n fraction
  scaled? negative n (exponent + skipped.length - (fraction.length - ignored.length : Nat))

end Double

end LiteSql
