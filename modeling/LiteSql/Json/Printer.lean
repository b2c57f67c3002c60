import LiteSql.Json.Basic

/-!
# Writing JSON text

Strings escape quotes, backslashes and control characters only. A number with a
fraction is written with its shortest digits: without an exponent while at most four
zeros follow the point or sixteen digits stand before it, and then always with a point.
An exponent always has a sign. Of two such numbers that are equally near, the even one
is written. `compact` writes no white space, `pretty`
indents by two spaces.
-/

namespace LiteSql

/-- A double as a JSON number; what is not finite has no number and becomes `null`. -/
def Double.jsonText (d : Double) : Text :=
  if d.isFinite then
    let x := d.shortest .even
    let point : Int := (Text.digits x.coefficient).length + x.exponent
    d.withSign <|
      if -5 < point ∧ point ≤ 16 then
        if 0 ≤ x.exponent then x.positional ++ ".0".toList else x.positional
      else x.exponential ['+']
  else "null".toList

namespace Json

/-- A character inside a string. -/
def escapeChar (c : Char) : Text :=
  if c = '"' then "\\\"".toList
  else if c = '\\' then "\\\\".toList
  else if c = '\n' then "\\n".toList
  else if c = '\t' then "\\t".toList
  else if c = '\r' then "\\r".toList
  else if c.toNat = 8 then "\\b".toList
  else if c.toNat = 12 then "\\f".toList
  else if c.toNat < 0x20 then
    "\\u00".toList ++ [(Text.hexDigit (c.toNat / 16)).toLower, (Text.hexDigit (c.toNat % 16)).toLower]
  else [c]

/-- A string in quotes. -/
def stringText (s : String) : Text :=
  '"' :: (s.toList.flatMap escapeChar ++ ['"'])

mutual

/-- The value on one line, without white space. -/
def compact : Json → Text
  | .null => "null".toList
  | .bool b => if b then "true".toList else "false".toList
  | .int n => Text.signed n
  | .float d => d.jsonText
  | .string s => stringText s
  | .array items => '[' :: (compactItems items ++ [']'])
  | .object fields => '\x7b' :: (compactFields fields ++ ['\x7d'])
  | .unreadable => "null".toList

def compactItems : List Json → Text
  | [] => []
  | [j] => j.compact
  | j :: items => j.compact ++ ',' :: compactItems items

def compactFields : List (String × Json) → Text
  | [] => []
  | [(key, j)] => stringText key ++ ':' :: j.compact
  | (key, j) :: fields => stringText key ++ ':' :: (j.compact ++ ',' :: compactFields fields)

end

/-- A line break and the indentation of a level. -/
def newLine (level : Nat) : Text :=
  '\n' :: List.replicate (2 * level) ' '

mutual

/-- The value with one item or field a line, `level` levels deep. -/
def prettyAt (level : Nat) : Json → Text
  | .array [] => "[]".toList
  | .array items => '[' :: (prettyItems (level + 1) items ++ newLine level ++ [']'])
  | .object [] => "\x7b\x7d".toList
  | .object fields => '\x7b' :: (prettyFields (level + 1) fields ++ newLine level ++ ['\x7d'])
  | .null => "null".toList
  | .bool b => if b then "true".toList else "false".toList
  | .int n => Text.signed n
  | .float d => d.jsonText
  | .string s => stringText s
  | .unreadable => "null".toList

def prettyItems (level : Nat) : List Json → Text
  | [] => []
  | [j] => newLine level ++ j.prettyAt level
  | j :: items => newLine level ++ j.prettyAt level ++ ',' :: prettyItems level items

def prettyFields (level : Nat) : List (String × Json) → Text
  | [] => []
  | [(key, j)] => newLine level ++ stringText key ++ ": ".toList ++ j.prettyAt level
  | (key, j) :: fields =>
    newLine level ++ stringText key ++ ": ".toList ++ j.prettyAt level ++
      ',' :: prettyFields level fields

end

/-- The value with one item or field a line. -/
def pretty (j : Json) : Text :=
  j.prettyAt 0

end Json

end LiteSql
