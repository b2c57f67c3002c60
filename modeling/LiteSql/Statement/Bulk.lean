import LiteSql.Statement.Select

/-!
# Bulk UPDATE and DELETE statements

A bulk statement changes every row of one table that the filters of a query admit. It
has no place for the other parts of a query, so a query that has one of them is
refused rather than run without it.
-/

namespace LiteSql

/-- The first part of a query that a bulk statement has no place for. -/
def Query.strayClause? (q : Query) : Option Clause :=
  if q.projection.isSome then some .projection
  else if q.distinct.isSome then some .distinct
  else if !q.groups.isEmpty then some .groupBy
  else if !q.groupFilters.isEmpty then some .having
  else if !q.ordering.isEmpty then some .orderBy
  else if q.limit.isSome then some .limit
  else if q.offset.isSome then some .offset
  else none

/-- Whether the query has the shape of a bulk statement. -/
def Query.checkBulk (q : Query) (operation : Operation) : Except Error Unit :=
  if !q.joins.isEmpty then .error (.unsupported (.joinsIn operation))
  else if q.lock.isSome then .error (.unsupported .lock)
  else
    match q.source with
    | .fragment _ => .error (.invalid (.bulkWithoutTable operation))
    | .table _ _ =>
      match q.strayClause? with
      | some clause => .error (.invalid (.bulkWith operation clause))
      | none => .ok ()

/-- Writes one assignment. -/
def Assignment.emit (sources : List NamedSource) : Assignment → Emit Text
  | .set field value => do
    let sql ← value.emit sources
    return quoteIdentifier field ++ " = ".toList ++ sql
  | .increment field value => do
    let sql ← value.emitOperand sources
    return quoteIdentifier field ++ " = ".toList ++ quoteIdentifier field ++ " + ".toList ++ sql
  | .push _ _ | .pull _ _ => throw (.unsupported .arrayOperation)

/-- The name of the table that a bulk statement changes. -/
def bulkTarget (sources : List NamedSource) : Emit Text := do
  let primary ← Emit.ofExcept (sourceAt sources 0)
  return primary.handle

/-- Writes a query as an UPDATE of all rows that its filters admit. -/
def Query.emitUpdateAll (q : Query) : Emit Text := do
  Emit.ofExcept (q.checkBulk .update)
  Emit.refuseIf q.assignments.isEmpty (.invalid .bulkWithoutAssignment)
  let sources := q.namedSources .bulk
  let target ← bulkTarget sources
  let assignments ← Emit.forEach (Assignment.emit sources) q.assignments
  let filters ← filterClause "WHERE" sources q.filters
  return "UPDATE ".toList ++ target ++ " SET ".toList ++ Text.joined ", " assignments ++ filters

/-- Writes a query as a DELETE of all rows that its filters admit. -/
def Query.emitDeleteAll (q : Query) : Emit Text := do
  Emit.ofExcept (q.checkBulk .delete)
  Emit.refuseIf (!q.assignments.isEmpty) (.invalid .bulkDeleteWithAssignment)
  let sources := q.namedSources .bulk
  let target ← bulkTarget sources
  let filters ← filterClause "WHERE" sources q.filters
  return "DELETE FROM ".toList ++ target ++ filters

/-- Compiles a query to a bulk UPDATE. -/
def Query.compileUpdateAll (q : Query) : Except Error Compiled :=
  q.emitUpdateAll.compile

/-- Compiles a query to a bulk DELETE. -/
def Query.compileDeleteAll (q : Query) : Except Error Compiled :=
  q.emitDeleteAll.compile

end LiteSql
