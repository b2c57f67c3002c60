import LiteSql.Json.Form
import LiteSql.Returning

/-!
# JSON form of hints
-/

namespace LiteSql

namespace Operation

def ofName? : String → Option Operation
  | "INSERT" => some .insert
  | "UPDATE" => some .update
  | "DELETE" => some .delete
  | _ => none

def ofJson? (j : Json) : Option Operation := do
  ofName? (← j.plainVariant?)

def toJson (operation : Operation) : Json :=
  .string operation.keyword

end Operation

namespace ReturningHint

def ofJson? (j : Json) : Option ReturningHint := do
  match ← j.record? ["operation", "prefix", "table", "columns"] with
  | [operation, schema, table, columns] =>
    return {
      operation := ← Json.required? Operation.ofJson? operation
      table := ⟨← Json.optional? Json.string? schema, ← Json.required? Json.string? table⟩
      columns := ← Json.required? (Json.list? Json.string?) columns }
  | _ => none

def toJson (h : ReturningHint) : Json :=
  .object [("operation", h.operation.toJson), ("prefix", Json.ofOption .string h.table.schema),
    ("table", .string h.table.name), ("columns", Json.ofStrings h.columns)]

end ReturningHint

end LiteSql
