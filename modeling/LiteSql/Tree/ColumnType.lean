import LiteSql.ColumnType
import LiteSql.Json.Form

/-!
# JSON form of column types

A type is a variant; only arrays and custom types have content.
-/

namespace LiteSql.ColumnType

/-- The type without content that has the given name. -/
def ofName? : String → Option ColumnType
  | "id" => some .id
  | "binary_id" => some .binaryId
  | "serial" => some .serial
  | "integer" => some .integer
  | "big_int" => some .bigInt
  | "float" => some .float
  | "decimal" => some .decimal
  | "boolean" => some .boolean
  | "string" => some .string
  | "text" => some .text
  | "binary" => some .binary
  | "uuid" => some .uuid
  | "map" => some .map
  | "date" => some .date
  | "time" => some .time
  | "date_time" => some .dateTime
  | _ => none

/-- Reads a type that is at most `n` variants deep. -/
def ofJsonUpTo? : Nat → Json → Option ColumnType
  | 0, j => do ofName? (← j.plainVariant?)
  | n + 1, j => do
    match ← j.variant? with
    | ("array", some v) => return .array (← ofJsonUpTo? n v)
    | ("custom", some v) => return .custom (← v.string?)
    | _ => ofName? (← j.plainVariant?)

def ofJson? (j : Json) : Option ColumnType :=
  ofJsonUpTo? j.depth j

def toJson : ColumnType → Json
  | .id => .string "id"
  | .binaryId => .string "binary_id"
  | .serial => .string "serial"
  | .integer => .string "integer"
  | .bigInt => .string "big_int"
  | .float => .string "float"
  | .decimal => .string "decimal"
  | .boolean => .string "boolean"
  | .string => .string "string"
  | .text => .string "text"
  | .binary => .string "binary"
  | .uuid => .string "uuid"
  | .map => .string "map"
  | .date => .string "date"
  | .time => .string "time"
  | .dateTime => .string "date_time"
  | .array item => .variant "array" item.toJson
  | .custom name => .variant "custom" (.string name)

end LiteSql.ColumnType
