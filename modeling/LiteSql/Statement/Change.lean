import LiteSql.Literal
import LiteSql.Schema
import LiteSql.Statement.Params

/-!
# Schema statements

The text of a schema change. SQLite can create tables and add columns to them, but it
cannot change, rename or drop a column, nor add a column that is a primary key. A table
has at most one primary key: a counting column by itself, one column that says so, or
several columns in a constraint at the end.
-/

namespace LiteSql

/-- The default of a column, after its keyword. -/
def ColumnDefault.text : ColumnDefault → Text
  | .value v => " DEFAULT ".toList ++ v.literal
  | .raw sql => " DEFAULT ".toList ++ Text.parenthesized sql.toList

/-- The default and the null constraint of a column. -/
def ColumnOptions.text (o : ColumnOptions) : Text :=
  (match o.default? with
    | some d => d.text
    | none => []) ++
  if o.nullable = some false then " NOT NULL".toList else []

def OnDelete.text : OnDelete → Text
  | .nothing => []
  | .cascade => " ON DELETE CASCADE".toList
  | .setNull => " ON DELETE SET NULL".toList

/-- The name of the constraint of a foreign key; one is made up from table and column if
none is given. -/
def Reference.constraintName (r : Reference) (table : Table) (column : String) : String :=
  r.constraint.getD (table.name.name ++ "_" ++ column ++ "_fkey")

/-- The table that a foreign key of a column of `table` points at. -/
def Reference.target (r : Reference) (table : Table) : QualifiedName :=
  ⟨r.schema.or table.name.schema, r.table⟩

/-- The constraint of a foreign key. -/
def Reference.text (r : Reference) (table : Table) (column : String) : Text :=
  " CONSTRAINT ".toList ++ quoteIdentifier (r.constraintName table column) ++
    " REFERENCES ".toList ++ (r.target table).quote ++
    Text.parenthesized (quoteIdentifier r.column) ++ r.onDelete.text

/-- A column whose type makes it the primary key. -/
def ColumnSpec.isSerial : ColumnSpec → Bool
  | .type .serial => true
  | _ => false

/-- The type of a column. A column that refers to a counting column is an integer. -/
def ColumnSpec.columnType : ColumnSpec → ColumnType
  | .type t => t
  | .references r =>
    match r.type with
    | .serial => .integer
    | t => t

/-- The definition of a column. `inlineKey` says whether a column that is the primary key
is marked here. -/
def columnDefinition (table : Table) (inlineKey : Bool) (name : String) (spec : ColumnSpec)
    (options : ColumnOptions) : Except Error Text := do
  let type ← spec.columnType.definition options.precision options.scale
  let key := if inlineKey && options.primaryKey && !spec.isSerial then
      " PRIMARY KEY".toList
    else []
  let reference := match spec with
    | .references r => r.text table name
    | .type _ => []
  return quoteIdentifier name ++ ' ' :: (type ++ options.text ++ key ++ reference)

/-- The error of a directive that adds no column. -/
def ColumnChange.refusal? : ColumnChange → Option Unsupported
  | .add .. => none
  | .modify .. => some .alterColumn
  | .rename .. => some .renameColumn
  | .remove .. => some .dropColumn

/-- The columns that are a primary key by their options. -/
def primaryKeyColumns : List ColumnChange → List String
  | [] => []
  | .add name spec options :: rest =>
    if !spec.isSerial && options.primaryKey then name :: primaryKeyColumns rest
    else primaryKeyColumns rest
  | _ :: rest => primaryKeyColumns rest

/-- Whether some column is a primary key by its type. -/
def ColumnChange.isSerial : ColumnChange → Bool
  | .add _ spec _ => spec.isSerial
  | _ => false

/-- The definitions of all columns of a new table. -/
def columnDefinitions (table : Table) (inlineKey : Bool) :
    List ColumnChange → Except Error (List Text)
  | [] => .ok []
  | .add name spec options :: rest => do
    let first ← columnDefinition table inlineKey name spec options
    let others ← columnDefinitions table inlineKey rest
    return first :: others
  | _ :: rest => columnDefinitions table inlineKey rest

/-- The constraint of a primary key of several columns. -/
def keyConstraint : List String → List Text
  | first :: second :: rest =>
    ["PRIMARY KEY ".toList ++
      Text.parenthesized (quoteIdentifiers ", " (first :: second :: rest))]
  | _ => []

/-- A statement that creates a table. -/
def createTable (table : Table) (columns : List ColumnChange) (ifNotExists : Bool) :
    Except Error Text := do
  if columns.isEmpty then .error (.invalid .createWithoutColumn)
  match columns.findSome? ColumnChange.refusal? with
  | some reason => .error (.unsupported reason)
  | none =>
    let keys := primaryKeyColumns columns
    if columns.any ColumnChange.isSerial && !keys.isEmpty then
      .error (.unsupported .combinedPrimaryKey)
    let definitions ← columnDefinitions table (keys.length == 1) columns
    let options := match table.options with
      | some text => ' ' :: text.toList
      | none => []
    return "CREATE TABLE ".toList ++ (if ifNotExists then "IF NOT EXISTS ".toList else []) ++
      table.name.quote ++ ' ' ::
        (Text.parenthesized (Text.joined ", " (definitions ++ keyConstraint keys)) ++ options)

/-- A statement that makes one change to a table. -/
def alterColumn (table : Table) : ColumnChange → Except Error Text
  | .add name spec options => do
    if options.primaryKey || spec.isSerial then .error (.unsupported (.addedPrimaryKey name))
    let definition ← columnDefinition table false name spec options
    return "ALTER TABLE ".toList ++ table.name.quote ++ " ADD COLUMN ".toList ++ definition
  | .modify .. => .error (.unsupported .alterColumn)
  | .rename .. => .error (.unsupported .renameColumn)
  | .remove .. => .error (.unsupported .dropColumn)

/-- The statements of a list of changes to a table. -/
def alterColumns (table : Table) : List ColumnChange → Except Error (List Text)
  | [] => .ok []
  | change :: rest => do
    let first ← alterColumn table change
    let others ← alterColumns table rest
    return first :: others

/-- One statement per change to a table, with semicolons between them. -/
def alterTable (table : Table) (changes : List ColumnChange) : Except Error Text := do
  if changes.isEmpty then .error (.invalid .alterWithoutChange)
  let statements ← alterColumns table changes
  return Text.joined "; " statements

def IndexColumn.text : IndexColumn → Text
  | .name column => quoteIdentifier column
  | .raw sql => sql.toList

/-- A statement that creates an index. -/
def createIndex (index : Index) (ifNotExists : Bool) : Except Error Text := do
  if index.columns.isEmpty then .error (.invalid (.indexWithoutColumn index.name))
  let predicate := match index.predicate with
    | some sql => " WHERE ".toList ++ sql.toList
    | none => []
  return "CREATE ".toList ++ (if index.unique then "UNIQUE ".toList else []) ++
    "INDEX ".toList ++ (if ifNotExists then "IF NOT EXISTS ".toList else []) ++
    quoteIdentifier index.name ++ " ON ".toList ++ index.table.quote ++ ' ' ::
      (Text.parenthesized (Text.joined ", " (index.columns.map IndexColumn.text)) ++ predicate)

/-- `IF EXISTS ` when a missing object is no error. -/
def ifExistsText (ifExists : Bool) : Text :=
  if ifExists then "IF EXISTS ".toList else []

/-- The text of a schema change. -/
def SchemaChange.text : SchemaChange → Except Error Text
  | .createTable table columns ifNotExists => LiteSql.createTable table columns ifNotExists
  | .alterTable table changes => LiteSql.alterTable table changes
  | .dropTable table ifExists =>
    .ok ("DROP TABLE ".toList ++ ifExistsText ifExists ++ table.name.quote)
  | .renameTable old new =>
    .ok ("ALTER TABLE ".toList ++ old.name.quote ++ " RENAME TO ".toList ++ new.name.quote)
  | .createIndex index ifNotExists => LiteSql.createIndex index ifNotExists
  | .dropIndex index ifExists =>
    .ok ("DROP INDEX ".toList ++ ifExistsText ifExists ++ quoteIdentifier index.name)
  | .raw sql => .ok sql.toList

/-- Compiles a schema change. Nothing is bound in it. -/
def SchemaChange.compile (change : SchemaChange) : Except Error Compiled := do
  let sql ← change.text
  return ⟨String.ofList sql, []⟩

end LiteSql
