import LiteSql.Error
import LiteSql.Text.UpperCase

/-!
# Column types

Types that casts and column definitions share, and the SQL names they have in each
place. Arrays have no SQL name.
-/

namespace LiteSql

/-- The type of a column or of a cast. -/
inductive ColumnType
  | id
  | binaryId
  | serial
  | integer
  | bigInt
  | float
  | decimal
  | boolean
  | string
  | text
  | binary
  | uuid
  | map
  | date
  | time
  | dateTime
  | array (item : ColumnType)
  | custom (name : String)
deriving DecidableEq

namespace ColumnType

def isArray : ColumnType → Bool
  | .array _ => true
  | _ => false

/-- The type text of a column definition. Precision and scale count for decimals
only, and a scale without a precision is not written. Other types go by their name
in capital letters. -/
def definition (precision scale : Option UInt32) : ColumnType → Except Error Text
  | .id | .integer | .bigInt => .ok "INTEGER".toList
  | .serial => .ok "INTEGER PRIMARY KEY AUTOINCREMENT".toList
  | .binaryId | .string | .text | .uuid | .map => .ok "TEXT".toList
  | .float => .ok "FLOAT".toList
  | .binary => .ok "BLOB".toList
  | .decimal =>
    match precision with
    | some p =>
      .ok ("DECIMAL(".toList ++ Text.digits p.toNat ++ ',' ::
        (Text.digits ((scale.map UInt32.toNat).getD 0) ++ [')']))
    | none => .ok "NUMERIC".toList
  | .boolean => .ok "BOOLEAN".toList
  | .date => .ok "DATE".toList
  | .time => .ok "TIME".toList
  | .dateTime => .ok "DATETIME".toList
  | .array _ => .error (.unsupported .arrayType)
  | .custom name => .ok (Text.upperCase name.toList)

/-- The type text of a cast target. -/
def castTarget : ColumnType → Except Error Text
  | .serial => .ok "INTEGER".toList
  | .float => .ok "NUMERIC".toList
  | type => type.definition none none

end ColumnType

end LiteSql
