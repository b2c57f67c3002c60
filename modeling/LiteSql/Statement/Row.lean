import LiteSql.Returning
import LiteSql.Statement.Params

/-!
# Statements on one row

INSERT, UPDATE and DELETE of a row that is given by the values of columns. The values
are bound in the order in which their columns are written, those of the fields first.
A list of columns to return becomes a comment at the end of the statement.
-/

namespace LiteSql

/-- A column and the value that it gets or has. -/
abbrev ColumnValue := String × Value

/-- Writes `"column" = ?n` and binds the value of the column. -/
def emitEquation (column : ColumnValue) : Emit Text := do
  let mark ← Emit.bindValue column.2
  return quoteIdentifier column.1 ++ " = ".toList ++ mark

/-- The comment that asks for columns of the changed row, if any are asked for. -/
def returningClause (operation : Operation) (table : QualifiedName) : List String → Text
  | [] => []
  | columns =>
    " ;--RETURNING ON ".toList ++ operation.keyword.toList ++ ' ' ::
      (table.quote ++ ',' :: quoteIdentifiers "," columns)

/-- The names of the columns. -/
def columnNames (row : List ColumnValue) : List String :=
  row.map Prod.fst

/-- The values of the columns. -/
def columnValues (row : List ColumnValue) : List Value :=
  row.map Prod.snd

/-- The columns of a new row and their placeholders. Without fields the row has the
defaults of its columns. -/
def emitNewRow : List ColumnValue → Emit Text
  | [] => return " DEFAULT VALUES".toList
  | fields => do
    let marks ← Emit.bindValues (columnValues fields)
    return ' ' :: (Text.parenthesized (quoteIdentifiers ", " (columnNames fields)) ++
      " VALUES ".toList ++ Text.parenthesized (Text.joined ", " marks))

def emitInsert (table : QualifiedName) (fields : List ColumnValue) (returning : List String) :
    Emit Text := do
  let row ← emitNewRow fields
  return "INSERT INTO ".toList ++ table.quote ++ row ++ returningClause .insert table returning

/-- The values of the fields are numbered before those of the filters. -/
def emitUpdate (table : QualifiedName) (fields filters : List ColumnValue)
    (returning : List String) : Emit Text := do
  Emit.refuseIf fields.isEmpty (.invalid .updateWithoutField)
  Emit.refuseIf filters.isEmpty (.invalid .updateWithoutFilter)
  let assignments ← Emit.forEach emitEquation fields
  let conditions ← Emit.forEach emitEquation filters
  return "UPDATE ".toList ++ table.quote ++ " SET ".toList ++ Text.joined ", " assignments ++
    " WHERE ".toList ++ Text.joined " AND " conditions ++ returningClause .update table returning

def emitDelete (table : QualifiedName) (filters : List ColumnValue) (returning : List String) :
    Emit Text := do
  Emit.refuseIf filters.isEmpty (.invalid .deleteWithoutFilter)
  let conditions ← Emit.forEach emitEquation filters
  return "DELETE FROM ".toList ++ table.quote ++ " WHERE ".toList ++
    Text.joined " AND " conditions ++ returningClause .delete table returning

/-- An INSERT of one row. -/
def compileInsert (table : QualifiedName) (fields : List ColumnValue) (returning : List String) :
    Except Error Compiled :=
  (emitInsert table fields returning).compile

/-- An UPDATE of the row that the filters identify. -/
def compileUpdate (table : QualifiedName) (fields filters : List ColumnValue)
    (returning : List String) : Except Error Compiled :=
  (emitUpdate table fields filters returning).compile

/-- A DELETE of the row that the filters identify. -/
def compileDelete (table : QualifiedName) (filters : List ColumnValue)
    (returning : List String) : Except Error Compiled :=
  (emitDelete table filters returning).compile

end LiteSql
