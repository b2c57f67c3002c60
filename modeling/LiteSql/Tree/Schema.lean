import LiteSql.Schema
import LiteSql.Tree.ColumnType
import LiteSql.Tree.Value

/-!
# JSON form of schema changes

Tables, references and indexes are records, and a change is a variant.
-/

namespace LiteSql

namespace Table

def ofJson? (j : Json) : Option Table := do
  match ← j.record? ["name", "prefix", "options"] with
  | [name, schema, options] =>
    return ⟨⟨← Json.optional? Json.string? schema, ← Json.required? Json.string? name⟩,
      ← Json.optional? Json.string? options⟩
  | _ => none

def toJson (t : Table) : Json :=
  .object [("name", .string t.name.name), ("prefix", Json.ofOption .string t.name.schema),
    ("options", Json.ofOption .string t.options)]

end Table

namespace ColumnDefault

def ofJson? (j : Json) : Option ColumnDefault := do
  match ← j.variant? with
  | ("value", some v) => return .value (← Value.ofJson? v)
  | ("raw", some v) => return .raw (← v.string?)
  | _ => none

def toJson : ColumnDefault → Json
  | .value v => .variant "value" v.toJson
  | .raw sql => .variant "raw" (.string sql)

end ColumnDefault

namespace ColumnOptions

def ofJson? (j : Json) : Option ColumnOptions := do
  match ← j.record? ["default", "null", "size", "precision", "scale", "primary_key"] with
  | [default, nullable, size, precision, scale, primaryKey] =>
    return {
      default? := ← Json.optional? ColumnDefault.ofJson? default
      nullable := ← Json.optional? Json.bool? nullable
      size := ← Json.optional? Json.uint32? size
      precision := ← Json.optional? Json.uint32? precision
      scale := ← Json.optional? Json.uint32? scale
      primaryKey := ← Json.withDefault? false Json.bool? primaryKey }
  | _ => none

def toJson (o : ColumnOptions) : Json :=
  .object [
    ("default", Json.ofOption ColumnDefault.toJson o.default?),
    ("null", Json.ofOption .bool o.nullable),
    ("size", Json.ofOption (fun n => .int n.toNat) o.size),
    ("precision", Json.ofOption (fun n => .int n.toNat) o.precision),
    ("scale", Json.ofOption (fun n => .int n.toNat) o.scale),
    ("primary_key", .bool o.primaryKey)]

end ColumnOptions

namespace OnDelete

def ofName? : String → Option OnDelete
  | "nothing" => some .nothing
  | "cascade" => some .cascade
  | "set_null" => some .setNull
  | _ => none

def ofJson? (j : Json) : Option OnDelete := do
  ofName? (← j.plainVariant?)

def toJson : OnDelete → Json
  | .nothing => .string "nothing"
  | .cascade => .string "cascade"
  | .setNull => .string "set_null"

end OnDelete

namespace Reference

def ofJson? (j : Json) : Option Reference := do
  match ← j.record? ["table", "column", "name", "on_delete", "prefix", "column_type"] with
  | [table, column, constraint, onDelete, schema, type] =>
    return {
      table := ← Json.required? Json.string? table
      column := ← Json.withDefault? "id" Json.string? column
      constraint := ← Json.optional? Json.string? constraint
      onDelete := ← Json.withDefault? .nothing OnDelete.ofJson? onDelete
      schema := ← Json.optional? Json.string? schema
      type := ← Json.withDefault? .id ColumnType.ofJson? type }
  | _ => none

def toJson (r : Reference) : Json :=
  .object [
    ("table", .string r.table),
    ("column", .string r.column),
    ("name", Json.ofOption .string r.constraint),
    ("on_delete", r.onDelete.toJson),
    ("prefix", Json.ofOption .string r.schema),
    ("column_type", r.type.toJson)]

end Reference

namespace ColumnSpec

def ofJson? (j : Json) : Option ColumnSpec := do
  match ← j.variant? with
  | ("type", some v) => return .type (← ColumnType.ofJson? v)
  | ("references", some v) => return .references (← Reference.ofJson? v)
  | _ => none

def toJson : ColumnSpec → Json
  | .type t => .variant "type" t.toJson
  | .references r => .variant "references" r.toJson

end ColumnSpec

namespace ColumnChange

/-- Reads the parts of a directive that defines a column. -/
def ofParts? (j : Json) : Option (String × ColumnSpec × ColumnOptions) := do
  match ← j.record? ["name", "spec", "options"] with
  | [name, spec, options] =>
    return (← Json.required? Json.string? name, ← Json.required? ColumnSpec.ofJson? spec,
      ← Json.withDefault? {} ColumnOptions.ofJson? options)
  | _ => none

def ofJson? (j : Json) : Option ColumnChange := do
  match ← j.variant? with
  | ("add", some v) =>
    let (name, spec, options) ← ofParts? v
    return .add name spec options
  | ("modify", some v) =>
    let (name, spec, options) ← ofParts? v
    return .modify name spec options
  | ("remove", some v) =>
    match ← v.record? ["name"] with
    | [name] => return .remove (← Json.required? Json.string? name)
    | _ => none
  | ("rename", some v) =>
    match ← v.record? ["from", "to"] with
    | [old, new] =>
      return .rename (← Json.required? Json.string? old) (← Json.required? Json.string? new)
    | _ => none
  | _ => none

def partsToJson (name : String) (spec : ColumnSpec) (options : ColumnOptions) : Json :=
  .object [("name", .string name), ("spec", spec.toJson), ("options", options.toJson)]

def toJson : ColumnChange → Json
  | .add name spec options => .variant "add" (partsToJson name spec options)
  | .modify name spec options => .variant "modify" (partsToJson name spec options)
  | .remove name => .variant "remove" (.object [("name", .string name)])
  | .rename old new => .variant "rename" (.object [("from", .string old), ("to", .string new)])

end ColumnChange

namespace IndexColumn

def ofJson? (j : Json) : Option IndexColumn := do
  match ← j.variant? with
  | ("name", some v) => return .name (← v.string?)
  | ("raw", some v) => return .raw (← v.string?)
  | _ => none

def toJson : IndexColumn → Json
  | .name column => .variant "name" (.string column)
  | .raw sql => .variant "raw" (.string sql)

end IndexColumn

namespace Index

def ofJson? (j : Json) : Option Index := do
  match ← j.record? ["name", "table", "prefix", "columns", "unique", "where"] with
  | [name, table, schema, columns, unique, predicate] =>
    return {
      name := ← Json.required? Json.string? name
      table := ⟨← Json.optional? Json.string? schema, ← Json.required? Json.string? table⟩
      columns := ← Json.withDefault? [] (Json.list? IndexColumn.ofJson?) columns
      unique := ← Json.withDefault? false Json.bool? unique
      predicate := ← Json.optional? Json.string? predicate }
  | _ => none

def toJson (i : Index) : Json :=
  .object [
    ("name", .string i.name),
    ("table", .string i.table.name),
    ("prefix", Json.ofOption .string i.table.schema),
    ("columns", .array (i.columns.map IndexColumn.toJson)),
    ("unique", .bool i.unique),
    ("where", Json.ofOption .string i.predicate)]

end Index

namespace SchemaChange

def ofJson? (j : Json) : Option SchemaChange := do
  match ← j.variant? with
  | ("create_table", some v) =>
    match ← v.record? ["table", "columns", "if_not_exists"] with
    | [table, columns, flag] =>
      return .createTable (← Json.required? Table.ofJson? table)
        (← Json.required? (Json.list? ColumnChange.ofJson?) columns)
        (← Json.withDefault? false Json.bool? flag)
    | _ => none
  | ("alter_table", some v) =>
    match ← v.record? ["table", "changes"] with
    | [table, changes] =>
      return .alterTable (← Json.required? Table.ofJson? table)
        (← Json.required? (Json.list? ColumnChange.ofJson?) changes)
    | _ => none
  | ("drop_table", some v) =>
    match ← v.record? ["table", "if_exists"] with
    | [table, flag] =>
      return .dropTable (← Json.required? Table.ofJson? table)
        (← Json.withDefault? false Json.bool? flag)
    | _ => none
  | ("rename_table", some v) =>
    match ← v.record? ["from", "to"] with
    | [old, new] =>
      return .renameTable (← Json.required? Table.ofJson? old) (← Json.required? Table.ofJson? new)
    | _ => none
  | ("create_index", some v) =>
    match ← v.record? ["index", "if_not_exists"] with
    | [index, flag] =>
      return .createIndex (← Json.required? Index.ofJson? index)
        (← Json.withDefault? false Json.bool? flag)
    | _ => none
  | ("drop_index", some v) =>
    match ← v.record? ["index", "if_exists"] with
    | [index, flag] =>
      return .dropIndex (← Json.required? Index.ofJson? index)
        (← Json.withDefault? false Json.bool? flag)
    | _ => none
  | ("raw", some v) => return .raw (← v.string?)
  | _ => none

def toJson : SchemaChange → Json
  | .createTable table columns flag =>
    .variant "create_table" (.object [("table", table.toJson),
      ("columns", .array (columns.map ColumnChange.toJson)), ("if_not_exists", .bool flag)])
  | .alterTable table changes =>
    .variant "alter_table" (.object [("table", table.toJson),
      ("changes", .array (changes.map ColumnChange.toJson))])
  | .dropTable table flag =>
    .variant "drop_table" (.object [("table", table.toJson), ("if_exists", .bool flag)])
  | .renameTable old new =>
    .variant "rename_table" (.object [("from", old.toJson), ("to", new.toJson)])
  | .createIndex index flag =>
    .variant "create_index" (.object [("index", index.toJson), ("if_not_exists", .bool flag)])
  | .dropIndex index flag =>
    .variant "drop_index" (.object [("index", index.toJson), ("if_exists", .bool flag)])
  | .raw sql => .variant "raw" (.string sql)

end SchemaChange

end LiteSql
