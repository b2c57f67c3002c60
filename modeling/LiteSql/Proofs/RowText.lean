import LiteSql.Proofs.Outline
import LiteSql.Statement.Row

/-!
# Texts of statements on one row

What a builder of a statement on one row does, said once for the three of them. A statement
is refused exactly if a list that it needs is empty, and the reason depends on nothing
else. If it is not refused, its text is `RowStatement.front`, which is made from names
alone, followed by the clause for the columns to return, and its parameters are the
values of the columns in the order in which they are written.

The builders number the placeholders while they bind the values. The texts here have the
numbers in closed form, so that `equations` and `insertBody` are functions of names.
-/

namespace LiteSql

/-- The texts `"column" = ?n`, numbered from `next` on. -/
def equations (next : Nat) : List String → List Text
  | [] => []
  | column :: columns =>
    (quoteIdentifier column ++ " = ".toList ++ placeholder next) :: equations (next + 1) columns

/-- The columns of a new row and their placeholders, numbered from `next` on. -/
def insertBody (next : Nat) : List String → Text
  | [] => " DEFAULT VALUES".toList
  | columns =>
    ' ' :: (Text.parenthesized (quoteIdentifiers ", " columns) ++ " VALUES ".toList ++
      Text.parenthesized (Text.joined ", " ((List.range' next columns.length).map placeholder)))

theorem insertBody_of_ne_nil {columns : List String} (h : columns ≠ []) (next : Nat) :
    insertBody next columns =
      ' ' :: (Text.parenthesized (quoteIdentifiers ", " columns) ++ " VALUES ".toList ++
        Text.parenthesized (Text.joined ", "
          ((List.range' next columns.length).map placeholder))) := by
  cases columns with
  | nil => exact absurd rfl h
  | cons column columns => rfl

namespace Emit

theorem gives_bindValue (v : Value) : (bindValue v).Gives (fun i => placeholder (i + 1)) [v] :=
  fun _ => rfl

theorem gives_bindValues (vs : List Value) :
    (bindValues vs).Gives (fun i => (List.range' (i + 1) vs.length).map placeholder) vs := by
  induction vs with
  | nil => exact Gives.pure []
  | cons v vs ih => exact (gives_bindValue v).map₂ ih List.cons

theorem gives_equations (row : List ColumnValue) :
    (forEach emitEquation row).Gives (fun i => equations (i + 1) (columnNames row))
      (columnValues row) := by
  induction row with
  | nil => exact Gives.pure []
  | cons column row ih =>
      have hfirst := (gives_bindValue column.2).map fun mark =>
        quoteIdentifier column.1 ++ " = ".toList ++ mark
      exact hfirst.map₂ ih List.cons

theorem gives_newRow (fields : List ColumnValue) :
    (emitNewRow fields).Gives (fun i => insertBody (i + 1) (columnNames fields))
      (columnValues fields) := by
  cases fields with
  | nil => exact Gives.pure _
  | cons column fields =>
      have hrow := (gives_bindValues (columnValues (column :: fields))).map fun marks =>
        ' ' :: (Text.parenthesized (quoteIdentifiers ", " (columnNames (column :: fields))) ++
          " VALUES ".toList ++ Text.parenthesized (Text.joined ", " marks))
      have hlength : (columnValues (column :: fields)).length =
          (columnNames (column :: fields)).length := by
        simp [columnNames, columnValues]
      rw [hlength] at hrow
      exact hrow

theorem Gives.compile {step : Emit Text} {text : Nat → Text} {vs : List Value}
    (h : step.Gives text vs) : step.compile = .ok ⟨String.ofList (text 0), vs⟩ := by
  rw [Emit.compile, h {}]
  rfl

theorem compile_refuseIf (condition : Bool) (e : Error) (next : Emit Text) :
    (do refuseIf condition e; next).compile =
      if condition then .error e else next.compile := by
  cases condition with
  | true => rfl
  | false => rfl

end Emit

/-- A statement on one row, without the columns to return. -/
inductive RowStatement
  | insert (table : QualifiedName) (fields : List ColumnValue)
  | update (table : QualifiedName) (fields filters : List ColumnValue)
  | delete (table : QualifiedName) (filters : List ColumnValue)

namespace RowStatement

def compile : RowStatement → List String → Except Error Compiled
  | insert table fields => compileInsert table fields
  | update table fields filters => compileUpdate table fields filters
  | delete table filters => compileDelete table filters

def operation : RowStatement → Operation
  | insert _ _ => .insert
  | update _ _ _ => .update
  | delete _ _ => .delete

def table : RowStatement → QualifiedName
  | insert table _ => table
  | update table _ _ => table
  | delete table _ => table

/-- The columns that the statement writes, in order. -/
def columns : RowStatement → List String
  | insert _ fields => columnNames fields
  | update _ fields filters => columnNames fields ++ columnNames filters
  | delete _ filters => columnNames filters

/-- The values of these columns. -/
def values : RowStatement → List Value
  | insert _ fields => columnValues fields
  | update _ fields filters => columnValues fields ++ columnValues filters
  | delete _ filters => columnValues filters

/-- Why the statement is refused. -/
def refusal? : RowStatement → Option Error
  | insert _ _ => none
  | update _ fields filters =>
    if fields.isEmpty then some (.invalid .updateWithoutField)
    else if filters.isEmpty then some (.invalid .updateWithoutFilter)
    else none
  | delete _ filters => if filters.isEmpty then some (.invalid .deleteWithoutFilter) else none

theorem refusal?_update_eq_none_iff {table : QualifiedName} {fields filters : List ColumnValue} :
    (update table fields filters).refusal? = none ↔ fields ≠ [] ∧ filters ≠ [] := by
  cases fields with
  | nil => simp [refusal?]
  | cons field fields => cases filters <;> simp [refusal?]

theorem refusal?_delete_eq_none_iff {table : QualifiedName} {filters : List ColumnValue} :
    (delete table filters).refusal? = none ↔ filters ≠ [] := by
  cases filters <;> simp [refusal?]

theorem refusal?_update_eq_some_iff {table : QualifiedName} {fields filters : List ColumnValue}
    {e : Error} :
    (update table fields filters).refusal? = some e ↔
      fields = [] ∧ e = .invalid .updateWithoutField ∨
        fields ≠ [] ∧ filters = [] ∧ e = .invalid .updateWithoutFilter := by
  cases fields with
  | nil => simp [refusal?, eq_comm]
  | cons field fields => cases filters <;> simp [refusal?, eq_comm]

theorem refusal?_delete_eq_some_iff {table : QualifiedName} {filters : List ColumnValue}
    {e : Error} :
    (delete table filters).refusal? = some e ↔
      filters = [] ∧ e = .invalid .deleteWithoutFilter := by
  cases filters <;> simp [refusal?, eq_comm]

/-- The text before the clause for the columns to return. -/
def front : RowStatement → Text
  | insert table fields =>
    "INSERT INTO ".toList ++ table.quote ++ insertBody 1 (columnNames fields)
  | update table fields filters =>
    "UPDATE ".toList ++ table.quote ++ " SET ".toList ++
      Text.joined ", " (equations 1 (columnNames fields)) ++ " WHERE ".toList ++
      Text.joined " AND " (equations (fields.length + 1) (columnNames filters))
  | delete table filters =>
    "DELETE FROM ".toList ++ table.quote ++ " WHERE ".toList ++
      Text.joined " AND " (equations 1 (columnNames filters))

theorem front_insert (table : QualifiedName) (fields : List ColumnValue) :
    (insert table fields).front =
      "INSERT INTO ".toList ++ table.quote ++ insertBody 1 (columnNames fields) := rfl

theorem front_update (table : QualifiedName) (fields filters : List ColumnValue) :
    (update table fields filters).front =
      "UPDATE ".toList ++ table.quote ++ " SET ".toList ++
        Text.joined ", " (equations 1 (columnNames fields)) ++ " WHERE ".toList ++
        Text.joined " AND " (equations (fields.length + 1) (columnNames filters)) := rfl

theorem front_delete (table : QualifiedName) (filters : List ColumnValue) :
    (delete table filters).front =
      "DELETE FROM ".toList ++ table.quote ++ " WHERE ".toList ++
        Text.joined " AND " (equations 1 (columnNames filters)) := rfl

/-- The whole statement. -/
def compiled (st : RowStatement) (returning : List String) : Compiled :=
  ⟨String.ofList (st.front ++ returningClause st.operation st.table returning), st.values⟩

theorem compiled_nil (st : RowStatement) :
    st.compiled [] = ⟨String.ofList st.front, st.values⟩ := by
  rw [compiled, returningClause, List.append_nil]

/-- A statement compiles unless it is refused, and then as said here. -/
theorem compile_eq (st : RowStatement) (returning : List String) :
    st.compile returning = st.refusal?.elim (.ok (st.compiled returning)) .error := by
  cases st with
  | insert table fields => exact ((Emit.gives_newRow fields).map _).compile
  | update table fields filters =>
      have hwritten := ((Emit.gives_equations fields).map₂ (Emit.gives_equations filters)
        fun assignments conditions => "UPDATE ".toList ++ table.quote ++ " SET ".toList ++
          Text.joined ", " assignments ++ " WHERE ".toList ++ Text.joined " AND " conditions ++
          returningClause .update table returning).compile
      have hlength : 0 + (columnValues fields).length = fields.length := by simp [columnValues]
      rw [hlength] at hwritten
      rw [compile, compileUpdate, emitUpdate, Emit.compile_refuseIf, Emit.compile_refuseIf,
        refusal?]
      split
      · rfl
      · split
        · rfl
        · exact hwritten
  | delete table filters =>
      have hwritten := ((Emit.gives_equations filters).map
        fun conditions => "DELETE FROM ".toList ++ table.quote ++ " WHERE ".toList ++
          Text.joined " AND " conditions ++ returningClause .delete table returning).compile
      rw [compile, compileDelete, emitDelete, Emit.compile_refuseIf, refusal?]
      split
      · rfl
      · exact hwritten

theorem compile_eq_ok_iff {st : RowStatement} {returning : List String} {c : Compiled} :
    st.compile returning = .ok c ↔ st.refusal? = none ∧ c = st.compiled returning := by
  rw [compile_eq]
  cases st.refusal? with
  | none => simp [eq_comm]
  | some e => simp

theorem compile_eq_error_iff {st : RowStatement} {returning : List String} {e : Error} :
    st.compile returning = .error e ↔ st.refusal? = some e := by
  rw [compile_eq]
  cases st.refusal? with
  | none => simp
  | some e' => simp

end RowStatement

end LiteSql
