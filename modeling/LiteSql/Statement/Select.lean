import LiteSql.Statement.Expr

/-!
# SELECT statements

A SELECT is the list of its clauses, written from left to right; placeholders are
numbered in the same order. A lock and a distinct list of expressions are refused
before anything is written.
-/

namespace LiteSql

/-- ` WHERE (a) AND (b)`, or nothing without filters. -/
def filterClause (keyword : String) (sources : List NamedSource) : List Expr → Emit Text
  | [] => pure []
  | filters => do
    let texts ← emitEach sources filters
    return ' ' :: (keyword.toList ++ ' ' :: Text.joined " AND " (texts.map Text.parenthesized))

/-- `DISTINCT ` when duplicate rows are dropped. -/
def distinctText : Option Distinct → Except Error Text
  | none => .ok []
  | some (.flag on?) => .ok (if on? then "DISTINCT ".toList else [])
  | some (.exprs []) => .ok []
  | some (.exprs _) => .error (.unsupported .distinctColumns)

/-- A source with its handle: `"posts" AS p0`, or a fragment in parentheses. -/
def NamedSource.emit (sources : List NamedSource) (s : NamedSource) : Emit Text :=
  match s.source with
  | .table name _ =>
    pure (s.table.getD (quoteIdentifier name) ++ " AS ".toList ++ s.handle)
  | .fragment body => do
    let sql ← body.emit sources
    return Text.parenthesized sql ++ " AS ".toList ++ s.handle

/-- The condition of a join that follows an association. -/
def Association.condition (a : Association) (joined owner : NamedSource) : Text :=
  match a.cardinality with
  | .belongsTo => joined.column a.key ++ " = ".toList ++ owner.column a.foreignKey
  | .hasOne | .hasMany => joined.column a.foreignKey ++ " = ".toList ++ owner.column a.key

/-- The keyword of a join with a condition. -/
def JoinKind.keyword : JoinKind → Except Error String
  | .inner => .ok "INNER JOIN"
  | .left => .ok "LEFT OUTER JOIN"
  | .right | .full => .error (.unsupported .outerJoin)

/-- Writes the join whose source is at `position`. -/
def Join.emit (sources : List NamedSource) (position : Nat) (join : Join) : Emit Text := do
  let joined ← Emit.ofExcept (sourceAt sources position)
  match join with
  | .conditional kind _ condition => do
    let keyword ← Emit.ofExcept kind.keyword
    let source ← joined.emit sources
    let on? ← condition.emit sources
    return ' ' :: (keyword.toList ++ ' ' :: (source ++ " ON ".toList ++ on?))
  | .cross _ => do
    let source ← joined.emit sources
    return " CROSS JOIN ".toList ++ source
  | .associated _ association => do
    Emit.refuseIf (position ≤ association.owner.toNat)
      (.invalid (.ownerNotJoined association.owner.toNat position))
    let owner ← Emit.ofExcept (sourceAt sources association.owner.toNat)
    let source ← joined.emit sources
    return " INNER JOIN ".toList ++ source ++ " ON ".toList ++ association.condition joined owner

/-- Writes the joins whose sources start at `position`. -/
def emitJoins (sources : List NamedSource) : Nat → List Join → Emit Text
  | _, [] => pure []
  | position, join :: joins => do
    let first ← join.emit sources position
    let rest ← emitJoins sources (position + 1) joins
    return first ++ rest

/-- The selected columns; without a projection, the row of the primary source. -/
def projectionClause (sources : List NamedSource) : Option (List Expr) → Emit Text
  | none => (Expr.row 0).emit sources
  | some [] => throw (.invalid .emptyProjection)
  | some exprs => emitList sources exprs

/-- ` FROM` and the primary source. -/
def sourceClause (sources : List NamedSource) : Emit Text := do
  let primary ← Emit.ofExcept (sourceAt sources 0)
  let source ← primary.emit sources
  return " FROM ".toList ++ source

/-- A keyword and a list of expressions, or nothing without expressions. -/
def listClause (keyword : String) (sources : List NamedSource) : List Expr → Emit Text
  | [] => pure []
  | exprs => do
    let list ← emitList sources exprs
    return ' ' :: (keyword.toList ++ ' ' :: list)

/-- Writes one entry of an ordering. -/
def OrderTerm.emit (sources : List NamedSource) (term : OrderTerm) : Emit Text := do
  let sql ← term.expr.emit sources
  return match term.direction with
    | .ascending => sql
    | .descending => sql ++ " DESC".toList

/-- ` ORDER BY` and the ordering, or nothing. -/
def orderClause (sources : List NamedSource) : List OrderTerm → Emit Text
  | [] => pure []
  | terms => do
    let texts ← Emit.forEach (OrderTerm.emit sources) terms
    return " ORDER BY ".toList ++ Text.joined ", " texts

/-- A keyword and an expression, or nothing. -/
def optionalClause (keyword : String) (sources : List NamedSource) : Option Expr → Emit Text
  | none => pure []
  | some expr => do
    let sql ← expr.emit sources
    return ' ' :: (keyword.toList ++ ' ' :: sql)

/-- The clauses of a SELECT after its keyword, in order. -/
def Query.selectClauses (q : Query) (sources : List NamedSource) : List (Emit Text) :=
  [projectionClause sources q.projection,
    sourceClause sources,
    emitJoins sources 1 q.joins,
    filterClause "WHERE" sources q.filters,
    listClause "GROUP BY" sources q.groups,
    filterClause "HAVING" sources q.groupFilters,
    orderClause sources q.ordering,
    optionalClause "LIMIT" sources q.limit,
    optionalClause "OFFSET" sources q.offset]

/-- Writes a query as a SELECT. -/
def Query.emitSelect (q : Query) : Emit Text := do
  Emit.refuseIf q.lock.isSome (.unsupported .lock)
  let distinct ← Emit.ofExcept (distinctText q.distinct)
  let clauses ← Emit.concat (q.selectClauses (q.namedSources .select))
  return "SELECT ".toList ++ distinct ++ clauses

/-- Compiles a query to a SELECT. -/
def Query.compileSelect (q : Query) : Except Error Compiled :=
  q.emitSelect.compile

end LiteSql
