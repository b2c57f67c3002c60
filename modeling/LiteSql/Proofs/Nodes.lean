import LiteSql.Query

/-!
# Nodes of a tree

The nodes of a tree are its expressions and its fragments, at every depth and from
left to right. A condition on a whole tree is a condition on each of its nodes.
`Query.selectNodes` are the nodes that a SELECT is written from, with the row of
the primary source in the place of a missing projection; `Query.nodes` are all
that occur.

`Query.mapTrees f g` replaces every expression `e` of a query by `f e`, and every
fragment `b` that is a source by `g b`.
-/

namespace LiteSql

inductive Node
  | expr (e : Expr)
  | fragment (body : Fragment)

mutual

def Expr.nodes : Expr → List Node
  | .field source column => [.expr (.field source column)]
  | .row source => [.expr (.row source)]
  | .literal value => [.expr (.literal value)]
  | .param value => [.expr (.param value)]
  | .binary op left right => .expr (.binary op left right) :: (left.nodes ++ right.nodes)
  | .not inner => .expr (.not inner) :: inner.nodes
  | .isNull inner => .expr (.isNull inner) :: inner.nodes
  | .cast inner target => .expr (.cast inner target) :: inner.nodes
  | .isIn left right => .expr (.isIn left right) :: (left.nodes ++ right.nodes)
  | .fragment body => .expr (.fragment body) :: body.nodes
  | .call name args distinct => .expr (.call name args distinct) :: nodesOfEach args

def InList.nodes : InList → List Node
  | .exprs items => nodesOfEach items
  | .params _ => []
  | .fragment body => body.nodes

def Fragment.nodes : Fragment → List Node
  | .template sql args => .fragment (.template sql args) :: nodesOfEach args
  | .keyword args => .fragment (.keyword args) :: nodesOfArguments args

def nodesOfEach : List Expr → List Node
  | [] => []
  | e :: es => e.nodes ++ nodesOfEach es

def nodesOfArguments : List (String × Expr) → List Node
  | [] => []
  | (_, e) :: rest => e.nodes ++ nodesOfArguments rest

end

def Source.nodes : Source → List Node
  | .table _ _ => []
  | .fragment body => body.nodes

def Join.nodes : Join → List Node
  | .conditional _ source condition => source.nodes ++ condition.nodes
  | .cross source => source.nodes
  | .associated source _ => source.nodes

def Distinct.nodes : Distinct → List Node
  | .flag _ => []
  | .exprs items => nodesOfEach items

def Assignment.nodes : Assignment → List Node
  | .set _ value | .increment _ value | .push _ value | .pull _ value => value.nodes

def OrderTerm.nodes (term : OrderTerm) : List Node :=
  term.expr.nodes

namespace Query

/-- The nodes of the clauses after the projection. -/
def clauseNodes (q : Query) : List Node :=
  q.source.nodes ++ q.joins.flatMap Join.nodes ++ nodesOfEach q.filters ++
    nodesOfEach q.groups ++ nodesOfEach q.groupFilters ++ q.ordering.flatMap OrderTerm.nodes ++
    nodesOfEach q.limit.toList ++ nodesOfEach q.offset.toList

def selectNodes (q : Query) : List Node :=
  nodesOfEach (q.projection.getD [.row 0]) ++ q.clauseNodes

def nodes (q : Query) : List Node :=
  nodesOfEach (q.projection.getD []) ++ (q.distinct.map Distinct.nodes).getD [] ++
    q.assignments.flatMap Assignment.nodes ++ q.clauseNodes

end Query

section MapTrees

variable (f : Expr → Expr) (g : Fragment → Fragment)

def Source.mapTrees : Source → Source
  | .table name fields => .table name fields
  | .fragment body => .fragment (g body)

def Join.mapTrees : Join → Join
  | .conditional kind source condition => .conditional kind (source.mapTrees g) (f condition)
  | .cross source => .cross (source.mapTrees g)
  | .associated source association => .associated (source.mapTrees g) association

def OrderTerm.mapTrees (term : OrderTerm) : OrderTerm :=
  ⟨f term.expr, term.direction⟩

def Distinct.mapTrees : Distinct → Distinct
  | .flag on? => .flag on?
  | .exprs items => .exprs (items.map f)

def Assignment.mapTrees : Assignment → Assignment
  | .set field value => .set field (f value)
  | .increment field value => .increment field (f value)
  | .push field value => .push field (f value)
  | .pull field value => .pull field (f value)

def Query.mapTrees (q : Query) : Query where
  schema := q.schema
  source := q.source.mapTrees g
  joins := q.joins.map (Join.mapTrees f g)
  projection := q.projection.map (List.map f)
  distinct := q.distinct.map (Distinct.mapTrees f)
  filters := q.filters.map f
  assignments := q.assignments.map (Assignment.mapTrees f)
  groups := q.groups.map f
  groupFilters := q.groupFilters.map f
  ordering := q.ordering.map (OrderTerm.mapTrees f)
  limit := q.limit.map f
  offset := q.offset.map f
  lock := q.lock

end MapTrees

end LiteSql
