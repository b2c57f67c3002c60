import LiteSql.Number.Double
import LiteSql.Text.Digits

/-!
# Shortest decimal texts of doubles

The reals that round to a given double form an interval. `shortest` looks for a
point of that interval on coarser and coarser decimal grids first, so the point
that it finds has the fewest digits; of two points on one grid it takes the
nearer one. The layouts before it write such a point with or without an exponent.
-/

namespace LiteSql

/-- The number `coefficient * 10 ^ exponent`. -/
structure Scientific where
  coefficient : Nat
  exponent : Int
deriving DecidableEq

namespace Scientific

/-- All digits, without an exponent. -/
def positional (x : Scientific) : Text :=
  let ds := Text.digits x.coefficient
  if 0 ≤ x.exponent then ds ++ List.replicate x.exponent.toNat '0'
  else
    let places := (-x.exponent).toNat
    if places < ds.length then
      ds.take (ds.length - places) ++ '.' :: ds.drop (ds.length - places)
    else "0.".toList ++ List.replicate (places - ds.length) '0' ++ ds

/-- One digit before the point, and an exponent. `plus` is written before an exponent
that is not negative. -/
def exponential (plus : Text) (x : Scientific) : Text :=
  let ds := Text.digits x.coefficient
  let tail := ds.drop 1
  let exponent := x.exponent + tail.length
  ds.take 1 ++ (if tail.isEmpty then [] else '.' :: tail) ++
    'e' :: (if 0 ≤ exponent then plus else []) ++ Text.signed exponent

end Scientific

/-- Which of two points is taken when both are equally near. -/
inductive Tie
  /-- The greater one. -/
  | up
  /-- The one whose last digit is even. -/
  | even
deriving DecidableEq

namespace Double

/-- Four times the distance from the magnitude down to the end of the interval of
reals that round to it, in units of `2 ^ power`. Below a power of two the doubles
lie twice as close. -/
def lowerGap (d : Double) : Nat :=
  if d.fractionField = 0 ∧ 1 < d.exponentField then 1 else 2

/-- The point of the grid of multiples of `10 ^ s` that rounds to the magnitude
of `d`, if there is one. -/
def gridPoint? (tie : Tie) (d : Double) (s : Int) : Option Scientific :=
  let up := Nat.pow 2 (d.power - 2).toNat * Nat.pow 10 (-s).toNat
  let step := Nat.pow 2 (2 - d.power).toNat * Nat.pow 10 s.toNat
  let value := 4 * d.significand * up
  let low := (4 * d.significand - d.lowerGap) * up
  let high := (4 * d.significand + 2) * up
  let closed := d.significand % 2 = 0
  let below := value / step
  let lowHit := low < below * step ∨ (closed ∧ low = below * step)
  let highHit := (below + 1) * step < high ∨ (closed ∧ (below + 1) * step = high)
  if lowHit ∧ highHit then
    if 2 * (value % step) < step ∨
        (tie = .even ∧ 2 * (value % step) = step ∧ below % 2 = 0) then some ⟨below, s⟩
    else some ⟨below + 1, s⟩
  else if lowHit then some ⟨below, s⟩
  else if highHit then some ⟨below + 1, s⟩
  else none

/-- The magnitude with all its digits. -/
def exact (d : Double) : Scientific :=
  if 0 ≤ d.power then ⟨d.significand * Nat.pow 2 d.power.toNat, 0⟩
  else ⟨d.significand * Nat.pow 5 (-d.power).toNat, d.power⟩

/-- The first hit on the grids `10 ^ s`, `10 ^ (s - 1)`, and so on. -/
def firstHit (tie : Tie) (d : Double) : Nat → Int → Scientific
  | 0, _ => d.exact
  | n + 1, s =>
    match gridPoint? tie d s with
    | some x => x
    | none => firstHit tie d n (s - 1)

/-- A power of ten above the magnitude of `d`. -/
def decimalCeiling (d : Double) : Int :=
  if 0 ≤ d.power then (Text.digits (d.significand * Nat.pow 2 d.power.toNat)).length
  else
    let a := d.significand
    let b := Nat.pow 2 (-d.power).toNat
    if b ≤ a then (Text.digits (a / b)).length
    else 2 - (Text.digits (b / a)).length

/-- The decimal with the fewest digits that rounds to the magnitude of the finite
number `d`. Seventeen digits are always enough. -/
def shortest (tie : Tie) (d : Double) : Scientific :=
  if d.significand = 0 then ⟨0, 0⟩ else firstHit tie d 20 d.decimalCeiling

/-- A minus sign before the text of a negative number. -/
def withSign (d : Double) (s : Text) : Text :=
  if d.negative then '-' :: s else s

/-- The number as text without an exponent; a tie goes up. -/
def text (d : Double) : Text :=
  if d.isNaN then "NaN".toList
  else if d.isFinite then d.withSign (d.shortest .up).positional
  else d.withSign "inf".toList

end Double

end LiteSql
