import LiteSql.Json.Form
import LiteSql.Value

/-!
# JSON form of values

A value is a variant named for its kind. Dates, times and decimals are stored as text;
decimals are also read from numbers.
-/

namespace LiteSql

/-- A text read by `read`. -/
def Json.text? {α : Type} (read : Text → Option α) : Json → Option α
  | .string s => read s.toList
  | _ => none

/-- Reads a decimal from an integer, from the text of a double, or from text. -/
def Decimal.ofJson? : Json → Option Decimal
  | .int n => Decimal.ofInt? n
  | .float d => Decimal.ofPlain? d.text
  | .string s => Decimal.ofText? s.toList
  | _ => none

namespace Value

def ofJson? (j : Json) : Option Value := do
  match ← j.variant? with
  | ("null", none) | ("null", some .null) => return .null
  | ("bool", some v) => return .bool (← v.bool?)
  | ("int", some v) => return .int (← v.int64?)
  | ("float", some v) => return .float (← v.double?)
  | ("decimal", some v) => return .decimal (← Decimal.ofJson? v)
  | ("string", some v) => return .string (← v.string?)
  | ("binary", some v) => return .binary (← v.list? Json.uint8?)
  | ("date", some v) => return .date (← v.text? Calendar.Date.ofText?)
  | ("time", some v) => return .time (← v.text? Calendar.Time.ofText?)
  | ("date_time", some v) => return .dateTime (← v.text? Calendar.DateTime.ofText?)
  | _ => none

/-- A double that is not finite has no JSON number and is stored as `null`. -/
def toJson : Value → Json
  | .null => .string "null"
  | .bool b => .variant "bool" (.bool b)
  | .int n => .variant "int" (.int n.toInt)
  | .float d => .variant "float" (if d.isFinite then .float d else .null)
  | .decimal d => .variant "decimal" (.string (String.ofList d.text))
  | .string s => .variant "string" (.string s)
  | .binary bytes => .variant "binary" (.array (bytes.map fun b => .int b.toNat))
  | .date d => .variant "date" (.string (String.ofList d.text))
  | .time t => .variant "time" (.string (String.ofList t.text))
  | .dateTime dt => .variant "date_time" (.string (String.ofList (dt.textWith 'T')))

end Value

end LiteSql
