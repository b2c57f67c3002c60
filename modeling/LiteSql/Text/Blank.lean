import LiteSql.Text.Quoted

/-!
# Blank characters

The characters with the property `White_Space`. Dates and times may have them
between their numbers.
-/

namespace LiteSql.Text

/-- Whether the character has the property `White_Space`. -/
def isBlank (c : Char) : Bool :=
  let n := c.toNat
  (9 ≤ n && n ≤ 13) || n == 0x20 || n == 0x85 || n == 0xA0 || n == 0x1680 ||
    (0x2000 ≤ n && n ≤ 0x200A) || n == 0x2028 || n == 0x2029 || n == 0x202F ||
    n == 0x205F || n == 0x3000

/-- The text without its leading blanks. -/
def skipBlank (s : Text) : Text :=
  s.dropWhile isBlank

end LiteSql.Text
