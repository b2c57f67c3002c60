import LiteSql.Expr
import LiteSql.Name

/-!
# Queries

A query is compiled to a SELECT, or to an UPDATE or DELETE over all rows that its
filters admit. `Query.ofSource` starts one and the functions after it add one part
each.
-/

namespace LiteSql

/-- What a query reads from. -/
inductive Source
  /-- A table, with the fields of its schema if they are known. -/
  | table (name : String) (fields : Option (List String))
  /-- Raw SQL as a subquery. -/
  | fragment (body : Fragment)

/-- The qualifier of a join with a condition. -/
inductive JoinKind
  | inner
  | left
  | right
  | full
deriving DecidableEq

/-- Which side of an association holds the foreign key. -/
inductive Cardinality
  /-- The owner holds it. -/
  | belongsTo
  /-- The joined side holds it, for at most one row. -/
  | hasOne
  /-- The joined side holds it. -/
  | hasMany
deriving DecidableEq

/-- A relation between the source being joined and an owner joined before it. -/
structure Association where
  cardinality : Cardinality
  owner : UInt64
  foreignKey : String
  key : String := "id"
deriving DecidableEq

namespace Association

/-- The owner holds the foreign key. -/
def belongsTo (owner : UInt64) (foreignKey : String) : Association :=
  { cardinality := .belongsTo, owner, foreignKey }

/-- One row of the joined source holds the foreign key. -/
def hasOne (owner : UInt64) (foreignKey : String) : Association :=
  { cardinality := .hasOne, owner, foreignKey }

/-- Rows of the joined source hold the foreign key. -/
def hasMany (owner : UInt64) (foreignKey : String) : Association :=
  { cardinality := .hasMany, owner, foreignKey }

/-- Changes the column that the foreign key refers to. -/
def referringTo (a : Association) (key : String) : Association := { a with key }

end Association

/-- A further source of a query. -/
inductive Join
  | conditional (kind : JoinKind) (source : Source) (condition : Expr)
  | cross (source : Source)
  | associated (source : Source) (association : Association)

def Join.source : Join → Source
  | .conditional _ source _ => source
  | .cross source => source
  | .associated source _ => source

inductive SortOrder
  | ascending
  | descending
deriving DecidableEq

/-- One entry of an ordering. -/
structure OrderTerm where
  expr : Expr
  direction : SortOrder := .ascending

/-- Whether duplicate rows are dropped. -/
inductive Distinct
  | flag (on? : Bool)
  | exprs (items : List Expr)

/-- A change of one field in a bulk update. -/
inductive Assignment
  | set (field : String) (value : Expr)
  | increment (field : String) (value : Expr)
  /-- Appends to an array. -/
  | push (field : String) (value : Expr)
  /-- Removes from an array. -/
  | pull (field : String) (value : Expr)

/-- A query. -/
structure Query where
  /-- Qualifies every table of the query. -/
  schema : Option String := none
  source : Source
  joins : List Join := []
  /-- `none` selects the whole row of the primary source. -/
  projection : Option (List Expr) := none
  distinct : Option Distinct := none
  /-- All of them have to hold. -/
  filters : List Expr := []
  assignments : List Assignment := []
  groups : List Expr := []
  groupFilters : List Expr := []
  ordering : List OrderTerm := []
  limit : Option Expr := none
  offset : Option Expr := none
  lock : Option String := none

namespace Query

/-- The query for all rows of a source. -/
def ofSource (source : Source) : Query := { source }

/-- The query for all rows of a table without a known schema. -/
def ofTable (name : String) : Query := ofSource (.table name none)

/-- The sources in order, the primary one first. -/
def sources (q : Query) : List Source := q.source :: q.joins.map Join.source

def sourceCount (q : Query) : Nat := 1 + q.joins.length

def inSchema (q : Query) (schema : String) : Query := { q with schema := some schema }

def select (q : Query) (exprs : List Expr) : Query := { q with projection := some exprs }

def distinctRows (q : Query) (flag : Bool) : Query := { q with distinct := some (.flag flag) }

def distinctOn (q : Query) (exprs : List Expr) : Query := { q with distinct := some (.exprs exprs) }

def filter (q : Query) (expr : Expr) : Query := { q with filters := q.filters ++ [expr] }

def addJoin (q : Query) (join : Join) : Query := { q with joins := q.joins ++ [join] }

def join (q : Query) (kind : JoinKind) (source : Source) (condition : Expr) : Query :=
  q.addJoin (.conditional kind source condition)

def innerJoin (q : Query) (source : Source) (condition : Expr) : Query :=
  q.join .inner source condition

def leftJoin (q : Query) (source : Source) (condition : Expr) : Query :=
  q.join .left source condition

def crossJoin (q : Query) (source : Source) : Query := q.addJoin (.cross source)

def associate (q : Query) (source : Source) (association : Association) : Query :=
  q.addJoin (.associated source association)

def assign (q : Query) (assignment : Assignment) : Query :=
  { q with assignments := q.assignments ++ [assignment] }

def set (q : Query) (field : String) (value : Expr) : Query := q.assign (.set field value)

def increment (q : Query) (field : String) (value : Expr) : Query :=
  q.assign (.increment field value)

def groupBy (q : Query) (expr : Expr) : Query := { q with groups := q.groups ++ [expr] }

def having (q : Query) (expr : Expr) : Query := { q with groupFilters := q.groupFilters ++ [expr] }

def orderBy (q : Query) (expr : Expr) (direction : SortOrder) : Query :=
  { q with ordering := q.ordering ++ [⟨expr, direction⟩] }

def limitTo (q : Query) (expr : Expr) : Query := { q with limit := some expr }

def startAt (q : Query) (expr : Expr) : Query := { q with offset := some expr }

def lockWith (q : Query) (mode : String) : Query := { q with lock := some mode }

end Query

end LiteSql
