import LiteSql.Text.Quoted

/-!
# Decimal digits

Numbers are written with the ten decimal digits and without leading zeros;
`digits` writes, `ofDigits` gives the value of a run of digits.
-/

namespace LiteSql.Text

/-- The decimal digits of `n`, without leading zeros. -/
def digits (n : Nat) : Text :=
  Nat.toDigits 10 n

/-- The value of one decimal digit. -/
def digitValue (c : Char) : Nat :=
  c.toNat - '0'.toNat

/-- The value of a run of decimal digits; the empty run is zero. -/
def ofDigits (s : Text) : Nat :=
  s.foldl (fun n c => 10 * n + digitValue c) 0

/-- The digits of `n`, filled with zeros on the left up to `width`. -/
def padded (width n : Nat) : Text :=
  List.replicate (width - (digits n).length) '0' ++ digits n

/-- An integer with a minus sign when it is negative. -/
def signed (n : Int) : Text :=
  if n < 0 then '-' :: digits n.natAbs else digits n.natAbs

/-- The longest run of digits at the front, and what follows it. -/
def spanDigits (s : Text) : Text × Text :=
  (s.takeWhile Char.isDigit, s.dropWhile Char.isDigit)

/-- One hexadecimal digit, `0` to `9` and `A` to `F`. -/
def hexDigit (n : Nat) : Char :=
  if n < 10 then Char.ofNat ('0'.toNat + n) else Char.ofNat ('A'.toNat + (n - 10))

/-- The value of a hexadecimal digit of either case. -/
def hexValue? (c : Char) : Option Nat :=
  if c.isDigit then some (c.toNat - '0'.toNat)
  else if 'a' ≤ c ∧ c ≤ 'f' then some (c.toNat - 'a'.toNat + 10)
  else if 'A' ≤ c ∧ c ≤ 'F' then some (c.toNat - 'A'.toNat + 10)
  else none

end LiteSql.Text
