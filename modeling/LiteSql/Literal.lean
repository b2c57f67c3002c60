import LiteSql.Value

/-!
# SQL literals

How a value is spelled inside SQL text. SQLite has no literal for booleans, for
infinities or for a number that is none: booleans become `1` and `0`, infinities a
number that overflows, and the last one `NULL`. A float literal always has a point
or an exponent, so it is never read as an integer.
-/

namespace LiteSql

/-- A string literal: single quotes, an inner one written twice. -/
def stringLiteral (s : Text) : Text :=
  Text.quoted '\'' s

/-- The two hexadecimal digits of a byte. -/
def hexByte (b : UInt8) : Text :=
  [Text.hexDigit (b.toNat / 16), Text.hexDigit (b.toNat % 16)]

/-- A byte string literal such as `X'0AFF'`. -/
def blobLiteral (bytes : List UInt8) : Text :=
  'X' :: '\'' :: (bytes.flatMap hexByte ++ ['\''])

/-- A float literal. Whole numbers below `10 ^ 16` have all their digits and one
zero after the point, larger ones an exponent; all others have no exponent. -/
def floatLiteral (d : Double) : Text :=
  if d.isNaN then "NULL".toList
  else if d.isFinite then
    d.withSign <| match d.whole? with
      | some n =>
        if n < Nat.pow 10 16 then Text.digits n ++ ".0".toList else (d.shortest .up).exponential []
      | none => (d.shortest .up).positional
  else d.withSign "9e999".toList

/-- A value as an inline literal. -/
def Value.literal : Value → Text
  | .null => "NULL".toList
  | .bool b => if b then ['1'] else ['0']
  | .int n => Text.signed n.toInt
  | .float d => floatLiteral d
  | .decimal d => d.text
  | .string s => stringLiteral s.toList
  | .binary bytes => blobLiteral bytes
  | .date d => stringLiteral d.text
  | .time t => stringLiteral t.text
  | .dateTime dt => stringLiteral dt.text

end LiteSql
