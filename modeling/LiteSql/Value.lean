import LiteSql.Number.Shortest
import LiteSql.Number.Decimal
import LiteSql.Calendar.DateTime

/-!
# Values

What a statement can hold as an inline literal or bind to a placeholder.
`describe` is the text shown to a reader of a parameter list; the SQL spelling is
in the module on literals.
-/

namespace LiteSql

/-- A literal or bound value. -/
inductive Value
  | null
  | bool (b : Bool)
  | int (n : Int64)
  | float (d : Double)
  | decimal (d : Decimal)
  | string (s : String)
  | binary (bytes : List UInt8)
  | date (d : Calendar.Date)
  | time (t : Calendar.Time)
  | dateTime (dt : Calendar.DateTime)
deriving DecidableEq

/-- The text between single marks, as it is. -/
def Text.marked (s : Text) : Text :=
  '\'' :: (s ++ ['\''])

/-- The value as shown in a parameter list. Strings are not escaped and byte
strings show their length only. -/
def Value.describe : Value → Text
  | .null => "NULL".toList
  | .bool b => if b then "true".toList else "false".toList
  | .int n => Text.signed n.toInt
  | .float d => d.text
  | .decimal d => d.text
  | .string s => Text.marked s.toList
  | .binary bytes => '<' :: (Text.digits bytes.length ++ " bytes>".toList)
  | .date d => Text.marked d.text
  | .time t => Text.marked t.text
  | .dateTime dt => Text.marked dt.text

end LiteSql
