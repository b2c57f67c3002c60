import LiteSql.Query
import LiteSql.Tree.Expr

/-!
# JSON form of queries

A query is a record of thirteen fields of which only the source is required. Written
out, it has all of them.
-/

namespace LiteSql

namespace Source

def ofJson? (j : Json) : Option Source := do
  match ← j.variant? with
  | ("table", some v) =>
    match ← v.record? ["name", "fields"] with
    | [name, fields] =>
      return .table (← Json.required? Json.string? name)
        (← Json.optional? (Json.list? Json.string?) fields)
    | _ => none
  | ("fragment", some v) => return .fragment (← Fragment.ofJson? v)
  | _ => none

def toJson : Source → Json
  | .table name fields =>
    .variant "table" (.object [("name", .string name), ("fields", Json.ofOption Json.ofStrings fields)])
  | .fragment body => .variant "fragment" body.toJson

end Source

namespace JoinKind

def ofName? : String → Option JoinKind
  | "inner" => some .inner
  | "left" => some .left
  | "right" => some .right
  | "full" => some .full
  | _ => none

def ofJson? (j : Json) : Option JoinKind := do
  ofName? (← j.plainVariant?)

def toJson : JoinKind → Json
  | .inner => .string "inner"
  | .left => .string "left"
  | .right => .string "right"
  | .full => .string "full"

end JoinKind

namespace Cardinality

def ofName? : String → Option Cardinality
  | "belongs_to" => some .belongsTo
  | "has_one" => some .hasOne
  | "has_many" => some .hasMany
  | _ => none

def ofJson? (j : Json) : Option Cardinality := do
  ofName? (← j.plainVariant?)

def toJson : Cardinality → Json
  | .belongsTo => .string "belongs_to"
  | .hasOne => .string "has_one"
  | .hasMany => .string "has_many"

end Cardinality

namespace Association

def ofJson? (j : Json) : Option Association := do
  match ← j.record? ["cardinality", "owner", "foreign_key", "key"] with
  | [cardinality, owner, foreignKey, key] =>
    return ⟨← Json.required? Cardinality.ofJson? cardinality,
      ← Json.required? Json.uint64? owner,
      ← Json.required? Json.string? foreignKey,
      ← Json.withDefault? "id" Json.string? key⟩
  | _ => none

def toJson (a : Association) : Json :=
  .object [("cardinality", a.cardinality.toJson), ("owner", .int a.owner.toNat),
    ("foreign_key", .string a.foreignKey), ("key", .string a.key)]

end Association

namespace Join

def ofJson? (j : Json) : Option Join := do
  match ← j.variant? with
  | ("on", some v) =>
    match ← v.record? ["kind", "source", "on"] with
    | [kind, source, condition] =>
      return .conditional (← Json.required? JoinKind.ofJson? kind)
        (← Json.required? Source.ofJson? source) (← Json.required? Expr.ofJson? condition)
    | _ => none
  | ("cross", some v) =>
    match ← v.record? ["source"] with
    | [source] => return .cross (← Json.required? Source.ofJson? source)
    | _ => none
  | ("assoc", some v) =>
    match ← v.record? ["source", "assoc"] with
    | [source, association] =>
      return .associated (← Json.required? Source.ofJson? source)
        (← Json.required? Association.ofJson? association)
    | _ => none
  | _ => none

def toJson : Join → Json
  | .conditional kind source condition =>
    .variant "on" (.object [("kind", kind.toJson), ("source", source.toJson),
      ("on", condition.toJson)])
  | .cross source => .variant "cross" (.object [("source", source.toJson)])
  | .associated source association =>
    .variant "assoc" (.object [("source", source.toJson), ("assoc", association.toJson)])

end Join

namespace SortOrder

def ofName? : String → Option SortOrder
  | "asc" => some .ascending
  | "desc" => some .descending
  | _ => none

def ofJson? (j : Json) : Option SortOrder := do
  ofName? (← j.plainVariant?)

def toJson : SortOrder → Json
  | .ascending => .string "asc"
  | .descending => .string "desc"

end SortOrder

namespace OrderTerm

def ofJson? (j : Json) : Option OrderTerm := do
  match ← j.record? ["expr", "direction"] with
  | [expr, direction] =>
    return ⟨← Json.required? Expr.ofJson? expr,
      ← Json.withDefault? .ascending SortOrder.ofJson? direction⟩
  | _ => none

def toJson (term : OrderTerm) : Json :=
  .object [("expr", term.expr.toJson), ("direction", term.direction.toJson)]

end OrderTerm

namespace Distinct

def ofJson? (j : Json) : Option Distinct := do
  match ← j.variant? with
  | ("flag", some v) => return .flag (← v.bool?)
  | ("exprs", some v) => return .exprs (← v.list? Expr.ofJson?)
  | _ => none

def toJson : Distinct → Json
  | .flag on? => .variant "flag" (.bool on?)
  | .exprs items => .variant "exprs" (.array (exprsToJson items))

end Distinct

namespace Assignment

/-- Reads the field and the value of an assignment. -/
def ofParts? (j : Json) : Option (String × Expr) := do
  match ← j.record? ["field", "value"] with
  | [field, value] =>
    return (← Json.required? Json.string? field, ← Json.required? Expr.ofJson? value)
  | _ => none

def ofJson? (j : Json) : Option Assignment := do
  match ← j.variant? with
  | ("set", some v) => return let (field, value) := ← ofParts? v; .set field value
  | ("inc", some v) => return let (field, value) := ← ofParts? v; .increment field value
  | ("push", some v) => return let (field, value) := ← ofParts? v; .push field value
  | ("pull", some v) => return let (field, value) := ← ofParts? v; .pull field value
  | _ => none

def partsToJson (field : String) (value : Expr) : Json :=
  .object [("field", .string field), ("value", value.toJson)]

def toJson : Assignment → Json
  | .set field value => .variant "set" (partsToJson field value)
  | .increment field value => .variant "inc" (partsToJson field value)
  | .push field value => .variant "push" (partsToJson field value)
  | .pull field value => .variant "pull" (partsToJson field value)

end Assignment

namespace Query

def ofJson? (j : Json) : Option Query := do
  match ← j.record? ["prefix", "from", "joins", "select", "distinct", "wheres", "updates",
      "group_by", "havings", "order_by", "limit", "offset", "lock"] with
  | [schema, source, joins, projection, distinct, filters, assignments, groups, groupFilters,
      ordering, limit, offset, lock] =>
    return {
      schema := ← Json.optional? Json.string? schema
      source := ← Json.required? Source.ofJson? source
      joins := ← Json.withDefault? [] (Json.list? Join.ofJson?) joins
      projection := ← Json.optional? (Json.list? Expr.ofJson?) projection
      distinct := ← Json.optional? Distinct.ofJson? distinct
      filters := ← Json.withDefault? [] (Json.list? Expr.ofJson?) filters
      assignments := ← Json.withDefault? [] (Json.list? Assignment.ofJson?) assignments
      groups := ← Json.withDefault? [] (Json.list? Expr.ofJson?) groups
      groupFilters := ← Json.withDefault? [] (Json.list? Expr.ofJson?) groupFilters
      ordering := ← Json.withDefault? [] (Json.list? OrderTerm.ofJson?) ordering
      limit := ← Json.optional? Expr.ofJson? limit
      offset := ← Json.optional? Expr.ofJson? offset
      lock := ← Json.optional? Json.string? lock }
  | _ => none

def toJson (q : Query) : Json :=
  .object [
    ("prefix", Json.ofOption .string q.schema),
    ("from", q.source.toJson),
    ("joins", .array (q.joins.map Join.toJson)),
    ("select", Json.ofOption (fun exprs => .array (exprsToJson exprs)) q.projection),
    ("distinct", Json.ofOption Distinct.toJson q.distinct),
    ("wheres", .array (exprsToJson q.filters)),
    ("updates", .array (q.assignments.map Assignment.toJson)),
    ("group_by", .array (exprsToJson q.groups)),
    ("havings", .array (exprsToJson q.groupFilters)),
    ("order_by", .array (q.ordering.map OrderTerm.toJson)),
    ("limit", Json.ofOption Expr.toJson q.limit),
    ("offset", Json.ofOption Expr.toJson q.offset),
    ("lock", Json.ofOption .string q.lock)]

end Query

end LiteSql
