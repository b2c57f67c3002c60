import LiteSql.Text.Digits

/-!
# Decimals

A `Decimal` is a sign, a coefficient below `2 ^ 96` and a scale of at most 28
places. Its text keeps trailing zeros, so `1.50` and `1.5` are different decimals.
`ofText?` reads plain texts such as `-1.50` and texts with an exponent such as
`12.5e-2`.

A plain text may have more fraction digits than fit. The first that does not fit
decides the rounding, a five going away from zero. A division by a power of ten
rounds in the same way once 28 places are not enough. A zero that is read has no
sign; one that is left over by that division keeps the sign of what was divided.
-/

namespace LiteSql

/-- A signed decimal with a fixed number of fraction digits. -/
structure Decimal where
  negative : Bool
  coefficient : Nat
  scale : Nat
  coefficient_lt : coefficient < Nat.pow 2 96
  scale_le : scale ≤ 28
deriving DecidableEq

namespace Decimal

/-- The decimal with the given parts, if they are in range. -/
def withSign? (negative : Bool) (coefficient scale : Nat) : Option Decimal :=
  if h : coefficient < Nat.pow 2 96 ∧ scale ≤ 28 then
    some ⟨negative, coefficient, scale, h.1, h.2⟩
  else none

/-- The decimal with the given parts, if they are in range. A zero loses its sign. -/
def ofParts? (negative : Bool) (coefficient scale : Nat) : Option Decimal :=
  withSign? (negative && coefficient != 0) coefficient scale

/-- The decimal of an integer, if it is in range. -/
def ofInt? (n : Int) : Option Decimal :=
  ofParts? (n < 0) n.natAbs 0

/-- The decimal as text, with all its fraction digits. -/
def text (d : Decimal) : Text :=
  let ds := Text.padded (d.scale + 1) d.coefficient
  let places := ds.length - d.scale
  (if d.negative then ['-'] else []) ++ ds.take places ++
    if d.scale = 0 then [] else '.' :: ds.drop places

/-- One more in the last place. A coefficient that leaves its range by that gives up
one more digit. -/
def nextUp? (negative : Bool) (coefficient scale : Nat) : Option Decimal :=
  if coefficient + 1 < Nat.pow 2 96 then ofParts? negative (coefficient + 1) scale
  else if scale = 0 then none
  else ofParts? negative ((coefficient + 5) / 10) (scale - 1)

/-- Coefficients from here on are wide: with one more digit they may leave 64 bits. The
bound lies 255 below the last one that never does. -/
def wideFrom : Nat :=
  (Nat.pow 2 64 - 1) / 10 - 255

/-- The character that decides the rounding of a coefficient, out of those that follow
its last digit. Separators are passed over if the coefficient was wide before that
digit; else the very next character decides. -/
def deciding? (coefficient : Nat) (rest : Text) : Option Char :=
  if wideFrom ≤ coefficient / 10 then rest.find? Char.isDigit else rest.head?

/-- Ends reading before fraction digits that no longer fit. The deciding one rounds up
from five on, and a separator never does; the others are only checked. -/
def roundedAt? (negative : Bool) (coefficient scale : Nat) (rest : Text) : Option Decimal :=
  if rest.all (fun c => c.isDigit || c == '_') then
    match deciding? coefficient rest with
    | some c =>
      if c.isDigit ∧ 5 ≤ Text.digitValue c then nextUp? negative coefficient scale
      else ofParts? negative coefficient scale
    | none => ofParts? negative coefficient scale
  else none

/-- Reads the digits after the sign. `seen` says whether a digit has been read and
`point` whether the point has. -/
def readPlain? (negative : Bool) : (seen point : Bool) → (coefficient scale : Nat) →
    Text → Option Decimal
  | seen, _, coefficient, scale, [] =>
    if seen then ofParts? negative coefficient scale else none
  | seen, point, coefficient, scale, c :: rest =>
    if point && scale == 28 then roundedAt? negative coefficient scale (c :: rest)
    else if c.isDigit then
      let next := 10 * coefficient + Text.digitValue c
      if next < Nat.pow 2 96 then
        readPlain? negative true point next (if point then scale + 1 else 0) rest
      else if point then roundedAt? negative coefficient scale (c :: rest)
      else none
    else if c = '.' ∧ !point then readPlain? negative seen true coefficient scale rest
    else if c = '_' ∧ seen then readPlain? negative seen point coefficient scale rest
    else none

/-- Reads a text without an exponent. -/
def ofPlain? : Text → Option Decimal
  | '-' :: s => readPlain? true false false 0 0 s
  | '+' :: s => readPlain? false false false 0 0 s
  | s => readPlain? false false false 0 0 s

/-- An unsigned exponent: digits with an optional plus sign, below `2 ^ 32`. -/
def readExponent? (s : Text) : Option Nat :=
  let ds := match s with
    | '+' :: r => r
    | _ => s
  if ds ≠ [] ∧ ds.all Char.isDigit ∧ Text.ofDigits ds < Nat.pow 2 32 then some (Text.ofDigits ds)
  else none

/-- Multiplies by a power of ten of at most 28. The scale gives way first; a whole
number of more than 96 bits is out of range. -/
def scaledUp? (d : Decimal) (exponent : Nat) : Option Decimal :=
  if 28 < exponent then none
  else if exponent ≤ d.scale then ofParts? d.negative d.coefficient (d.scale - exponent)
  else ofParts? d.negative (d.coefficient * Nat.pow 10 (exponent - d.scale)) 0

/-- The quotient by `10 ^ places`, a half going up. -/
def roundedQuotient (coefficient places : Nat) : Nat :=
  (2 * coefficient + Nat.pow 10 places) / (2 * Nat.pow 10 places)

/-- Divides by a power of ten of at most 28. The scale is raised as far as it goes, and
the coefficient is rounded for the rest. -/
def scaledDown? (d : Decimal) (exponent : Nat) : Option Decimal :=
  if 28 < exponent then none
  else if d.scale + exponent ≤ 28 then withSign? d.negative d.coefficient (d.scale + exponent)
  else withSign? d.negative (roundedQuotient d.coefficient (d.scale + exponent - 28)) 28

/-- Reads a text with an exponent after the first `e` or `E`. -/
def ofExponential? (s : Text) : Option Decimal :=
  let isMark := fun c => c == 'e' || c == 'E'
  match s.dropWhile (!isMark ·) with
  | [] => none
  | _ :: tail => do
    let base ← ofPlain? (s.takeWhile (!isMark ·))
    match tail with
    | '-' :: r => base.scaledDown? (← readExponent? r)
    | r => base.scaledUp? (← readExponent? r)

/-- Reads a decimal, as plain text first and then as a text with an exponent. -/
def ofText? (s : Text) : Option Decimal :=
  match ofPlain? s with
  | some d => some d
  | none => ofExponential? s

end Decimal

end LiteSql
