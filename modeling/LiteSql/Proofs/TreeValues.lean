import LiteSql.Proofs.Nodes
import LiteSql.Schema

/-!
# Values of a tree

`values` lists the values in a tree, bound or written out, in the order in which they
are stored. `mapValues f` changes each of them by `f` and nothing else, so a tree stays
as it is exactly if all of its values do.
-/

namespace LiteSql

mutual

def Expr.values : Expr → List Value
  | .field _ _ => []
  | .row _ => []
  | .literal value => [value]
  | .param value => [value]
  | .binary _ left right => left.values ++ right.values
  | .not inner => inner.values
  | .isNull inner => inner.values
  | .cast inner _ => inner.values
  | .isIn left right => left.values ++ right.values
  | .fragment body => body.values
  | .call _ args _ => valuesOfEach args

def InList.values : InList → List Value
  | .exprs items => valuesOfEach items
  | .params values => values
  | .fragment body => body.values

def Fragment.values : Fragment → List Value
  | .template _ args => valuesOfEach args
  | .keyword args => valuesOfArguments args

def valuesOfEach : List Expr → List Value
  | [] => []
  | e :: es => e.values ++ valuesOfEach es

def valuesOfArguments : List (String × Expr) → List Value
  | [] => []
  | (_, e) :: rest => e.values ++ valuesOfArguments rest

end

def Source.values : Source → List Value
  | .table _ _ => []
  | .fragment body => body.values

def Join.values : Join → List Value
  | .conditional _ source condition => source.values ++ condition.values
  | .cross source => source.values
  | .associated source _ => source.values

def OrderTerm.values (term : OrderTerm) : List Value :=
  term.expr.values

def Distinct.values : Distinct → List Value
  | .flag _ => []
  | .exprs items => valuesOfEach items

def Assignment.values : Assignment → List Value
  | .set _ value | .increment _ value | .push _ value | .pull _ value => value.values

def Query.values (q : Query) : List Value :=
  q.source.values ++ (q.joins.flatMap Join.values ++ (q.projection.toList.flatMap valuesOfEach ++
    (q.distinct.toList.flatMap Distinct.values ++ (valuesOfEach q.filters ++
      (q.assignments.flatMap Assignment.values ++ (valuesOfEach q.groups ++
        (valuesOfEach q.groupFilters ++ (q.ordering.flatMap OrderTerm.values ++
          (q.limit.toList.flatMap Expr.values ++ q.offset.toList.flatMap Expr.values)))))))))

def ColumnDefault.values : ColumnDefault → List Value
  | .value v => [v]
  | .raw _ => []

def ColumnOptions.values (o : ColumnOptions) : List Value :=
  o.default?.toList.flatMap ColumnDefault.values

def ColumnChange.values : ColumnChange → List Value
  | .add _ _ options | .modify _ _ options => options.values
  | .remove _ | .rename _ _ => []

def SchemaChange.values : SchemaChange → List Value
  | .createTable _ columns _ => columns.flatMap ColumnChange.values
  | .alterTable _ changes => changes.flatMap ColumnChange.values
  | _ => []

section MapValues

variable (f : Value → Value)

mutual

def Expr.mapValues : Expr → Expr
  | .field source column => .field source column
  | .row source => .row source
  | .literal value => .literal (f value)
  | .param value => .param (f value)
  | .binary op left right => .binary op left.mapValues right.mapValues
  | .not inner => .not inner.mapValues
  | .isNull inner => .isNull inner.mapValues
  | .cast inner target => .cast inner.mapValues target
  | .isIn left right => .isIn left.mapValues right.mapValues
  | .fragment body => .fragment body.mapValues
  | .call name args distinct => .call name (mapValuesEach args) distinct

def InList.mapValues : InList → InList
  | .exprs items => .exprs (mapValuesEach items)
  | .params values => .params (values.map f)
  | .fragment body => .fragment body.mapValues

def Fragment.mapValues : Fragment → Fragment
  | .template sql args => .template sql (mapValuesEach args)
  | .keyword args => .keyword (mapValuesArguments args)

def mapValuesEach : List Expr → List Expr
  | [] => []
  | e :: es => e.mapValues :: mapValuesEach es

def mapValuesArguments : List (String × Expr) → List (String × Expr)
  | [] => []
  | (name, e) :: rest => (name, e.mapValues) :: mapValuesArguments rest

end

def Query.mapValues (q : Query) : Query :=
  q.mapTrees (Expr.mapValues f) (Fragment.mapValues f)

def ColumnDefault.mapValues : ColumnDefault → ColumnDefault
  | .value v => .value (f v)
  | .raw sql => .raw sql

def ColumnOptions.mapValues (o : ColumnOptions) : ColumnOptions :=
  { o with default? := o.default?.map (ColumnDefault.mapValues f) }

def ColumnChange.mapValues : ColumnChange → ColumnChange
  | .add name spec options => .add name spec (options.mapValues f)
  | .modify name spec options => .modify name spec (options.mapValues f)
  | .remove name => .remove name
  | .rename old new => .rename old new

def SchemaChange.mapValues : SchemaChange → SchemaChange
  | .createTable table columns flag =>
    .createTable table (columns.map (ColumnChange.mapValues f)) flag
  | .alterTable table changes => .alterTable table (changes.map (ColumnChange.mapValues f))
  | change => change

theorem mapValuesEach_eq_map (es : List Expr) :
    mapValuesEach f es = es.map (Expr.mapValues f) := by
  induction es with
  | nil => rfl
  | cons e es ih => rw [mapValuesEach, ih, List.map_cons]

theorem map_eq_self_iff {α : Type} (m : α → α) (as : List α) :
    as.map m = as ↔ ∀ a ∈ as, m a = a := by
  simpa using @List.map_inj_left _ _ as m id

mutual

theorem Expr.mapValues_eq_self_iff : ∀ e : Expr, e.mapValues f = e ↔ ∀ v ∈ e.values, f v = v
  | .field _ _ | .row _ | .literal _ | .param _ => by simp [Expr.mapValues, Expr.values]
  | .binary _ left right => by
      simp [Expr.mapValues, Expr.values, left.mapValues_eq_self_iff, right.mapValues_eq_self_iff,
        or_imp, forall_and]
  | .not inner | .isNull inner | .cast inner _ => by
      simp [Expr.mapValues, Expr.values, inner.mapValues_eq_self_iff]
  | .isIn left right => by
      simp [Expr.mapValues, Expr.values, left.mapValues_eq_self_iff, right.mapValues_eq_self_iff,
        or_imp, forall_and]
  | .fragment body => by simp [Expr.mapValues, Expr.values, body.mapValues_eq_self_iff]
  | .call _ args _ => by simp [Expr.mapValues, Expr.values, mapValuesEach_eq_self_iff args]

theorem InList.mapValues_eq_self_iff : ∀ l : InList, l.mapValues f = l ↔ ∀ v ∈ l.values, f v = v
  | .exprs items => by simp [InList.mapValues, InList.values, mapValuesEach_eq_self_iff items]
  | .params values => by simp [InList.mapValues, InList.values, map_eq_self_iff]
  | .fragment body => by simp [InList.mapValues, InList.values, body.mapValues_eq_self_iff]

theorem Fragment.mapValues_eq_self_iff :
    ∀ b : Fragment, b.mapValues f = b ↔ ∀ v ∈ b.values, f v = v
  | .template _ args => by
      simp [Fragment.mapValues, Fragment.values, mapValuesEach_eq_self_iff args]
  | .keyword args => by
      simp [Fragment.mapValues, Fragment.values, mapValuesArguments_eq_self_iff args]

theorem mapValuesEach_eq_self_iff :
    ∀ es : List Expr, mapValuesEach f es = es ↔ ∀ v ∈ valuesOfEach es, f v = v
  | [] => by simp [mapValuesEach, valuesOfEach]
  | e :: es => by
      simp [mapValuesEach, valuesOfEach, e.mapValues_eq_self_iff, mapValuesEach_eq_self_iff es,
        or_imp, forall_and]

theorem mapValuesArguments_eq_self_iff : ∀ args : List (String × Expr),
    mapValuesArguments f args = args ↔ ∀ v ∈ valuesOfArguments args, f v = v
  | [] => by simp [mapValuesArguments, valuesOfArguments]
  | (_, e) :: rest => by
      simp [mapValuesArguments, valuesOfArguments, e.mapValues_eq_self_iff,
        mapValuesArguments_eq_self_iff rest, or_imp, forall_and]

end

section Containers

variable {f} {α : Type} {m : α → α} {values : α → List Value}

theorem map_eq_self_iff_values (h : ∀ a, m a = a ↔ ∀ v ∈ values a, f v = v) (as : List α) :
    as.map m = as ↔ ∀ v ∈ as.flatMap values, f v = v := by
  simp only [map_eq_self_iff, h, List.mem_flatMap, forall_exists_index, and_imp]
  exact ⟨fun hall v a ha hv => hall a ha v hv, fun hall a ha v hv => hall v a ha hv⟩

theorem optionMap_eq_self_iff_values (h : ∀ a, m a = a ↔ ∀ v ∈ values a, f v = v) (o : Option α) :
    o.map m = o ↔ ∀ v ∈ o.toList.flatMap values, f v = v := by
  cases o with
  | none => simp
  | some a => simp [h]

end Containers

theorem Source.mapTrees_eq_self_iff (source : Source) :
    source.mapTrees (Fragment.mapValues f) = source ↔ ∀ v ∈ source.values, f v = v := by
  cases source with
  | table _ _ => simp [Source.mapTrees, Source.values]
  | fragment body => simp [Source.mapTrees, Source.values, body.mapValues_eq_self_iff]

theorem Join.mapTrees_eq_self_iff (join : Join) :
    join.mapTrees (Expr.mapValues f) (Fragment.mapValues f) = join ↔
      ∀ v ∈ join.values, f v = v := by
  cases join with
  | conditional _ source condition =>
      simp [Join.mapTrees, Join.values, source.mapTrees_eq_self_iff,
        condition.mapValues_eq_self_iff, or_imp, forall_and]
  | cross source => simp [Join.mapTrees, Join.values, source.mapTrees_eq_self_iff]
  | associated source _ => simp [Join.mapTrees, Join.values, source.mapTrees_eq_self_iff]

theorem OrderTerm.mapTrees_eq_self_iff (term : OrderTerm) :
    term.mapTrees (Expr.mapValues f) = term ↔ ∀ v ∈ term.values, f v = v := by
  obtain ⟨expr, direction⟩ := term
  simp [OrderTerm.mapTrees, OrderTerm.values, expr.mapValues_eq_self_iff]

theorem exprs_map_eq_self_iff (es : List Expr) :
    es.map (Expr.mapValues f) = es ↔ ∀ v ∈ valuesOfEach es, f v = v := by
  rw [← mapValuesEach_eq_map, mapValuesEach_eq_self_iff]

theorem Distinct.mapTrees_eq_self_iff (distinct : Distinct) :
    distinct.mapTrees (Expr.mapValues f) = distinct ↔ ∀ v ∈ distinct.values, f v = v := by
  cases distinct with
  | flag _ => simp [Distinct.mapTrees, Distinct.values]
  | exprs items => simp [Distinct.mapTrees, Distinct.values, exprs_map_eq_self_iff]

theorem Assignment.mapTrees_eq_self_iff (assignment : Assignment) :
    assignment.mapTrees (Expr.mapValues f) = assignment ↔ ∀ v ∈ assignment.values, f v = v := by
  cases assignment <;>
    simp [Assignment.mapTrees, Assignment.values, Expr.mapValues_eq_self_iff]

theorem Query.mapValues_eq_self_iff (q : Query) :
    q.mapValues f = q ↔ ∀ v ∈ q.values, f v = v := by
  obtain ⟨schema, source, joins, projection, distinct, filters, assignments, groups, groupFilters,
    ordering, limit, offset, lock⟩ := q
  simp only [Query.mapValues, Query.mapTrees, Query.values, Query.mk.injEq, List.mem_append, or_imp,
    forall_and, true_and, and_true, source.mapTrees_eq_self_iff, exprs_map_eq_self_iff,
    map_eq_self_iff_values (Join.mapTrees_eq_self_iff f),
    map_eq_self_iff_values (Assignment.mapTrees_eq_self_iff f),
    map_eq_self_iff_values (OrderTerm.mapTrees_eq_self_iff f),
    optionMap_eq_self_iff_values (exprs_map_eq_self_iff f),
    optionMap_eq_self_iff_values (Distinct.mapTrees_eq_self_iff f),
    optionMap_eq_self_iff_values (Expr.mapValues_eq_self_iff f)]

theorem ColumnDefault.mapValues_eq_self_iff (d : ColumnDefault) :
    d.mapValues f = d ↔ ∀ v ∈ d.values, f v = v := by
  cases d <;> simp [ColumnDefault.mapValues, ColumnDefault.values]

theorem ColumnOptions.mapValues_eq_self_iff (o : ColumnOptions) :
    o.mapValues f = o ↔ ∀ v ∈ o.values, f v = v := by
  obtain ⟨default?, nullable, size, precision, scale, primaryKey⟩ := o
  simp only [ColumnOptions.mapValues, ColumnOptions.values, ColumnOptions.mk.injEq, and_true,
    optionMap_eq_self_iff_values (ColumnDefault.mapValues_eq_self_iff f)]

theorem ColumnChange.mapValues_eq_self_iff (change : ColumnChange) :
    change.mapValues f = change ↔ ∀ v ∈ change.values, f v = v := by
  cases change <;>
    simp [ColumnChange.mapValues, ColumnChange.values, ColumnOptions.mapValues_eq_self_iff]

theorem SchemaChange.mapValues_eq_self_iff (change : SchemaChange) :
    change.mapValues f = change ↔ ∀ v ∈ change.values, f v = v := by
  cases change with
  | createTable _ columns _ =>
      simp only [SchemaChange.mapValues, SchemaChange.values, SchemaChange.createTable.injEq,
        true_and, and_true, map_eq_self_iff_values (ColumnChange.mapValues_eq_self_iff f)]
  | alterTable _ changes =>
      simp only [SchemaChange.mapValues, SchemaChange.values, SchemaChange.alterTable.injEq,
        true_and, map_eq_self_iff_values (ColumnChange.mapValues_eq_self_iff f)]
  | _ => simp [SchemaChange.mapValues, SchemaChange.values]

end MapValues

end LiteSql
