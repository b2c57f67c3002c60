import LiteSql.Proofs.Binding
import LiteSql.Proofs.BulkShape
import Mathlib.Data.List.Perm.Basic

/-!
# Bound values that reach a statement

`Query.boundValues` collects the values of all parameters that occur in a query: in
each of its parts and at every depth, whatever a statement does with the part. A bulk
statement binds all of them, since a query is refused if it has a part that the
statement has no place for. A SELECT binds all of them but those in assignments: it
neither writes nor refuses assignments.
-/

namespace LiteSql

/-- The values that a membership test binds in the place of items. -/
def InList.directValues : InList → List Value
  | .params values => values
  | .exprs _ | .fragment _ => []

/-- The values that a node binds itself, apart from its parts. -/
def Node.boundValues : Node → List Value
  | .expr (.param value) => [value]
  | .expr (.isIn _ right) => right.directValues
  | _ => []

/-- The values of all parameters that occur in a query. -/
def Query.boundValues (q : Query) : List Value :=
  q.nodes.flatMap Node.boundValues

mutual

theorem Expr.flatMap_nodes_perm :
    ∀ e : Expr, (e.nodes.flatMap Node.boundValues).Perm e.boundValues
  | .field source column => .refl _
  | .row source => .refl _
  | .literal value => .refl _
  | .param value => .refl _
  | .binary op left right => by
      rw [Expr.nodes, Expr.boundValues, List.flatMap_cons, List.flatMap_append]
      exact left.flatMap_nodes_perm.append right.flatMap_nodes_perm
  | .not inner => inner.flatMap_nodes_perm
  | .isNull inner => inner.flatMap_nodes_perm
  | .cast inner target => inner.flatMap_nodes_perm
  | .isIn left right => by
      -- The test comes before its parts, so its own values come before those on the left.
      rw [Expr.nodes, Expr.boundValues, List.flatMap_cons, List.flatMap_append]
      refine (List.perm_append_comm_assoc _ _ _).trans ?_
      exact left.flatMap_nodes_perm.append right.flatMap_nodes_perm
  | .fragment body => body.flatMap_nodes_perm
  | .call name args distinct => flatMap_nodesOfEach_perm args

theorem InList.flatMap_nodes_perm :
    ∀ l : InList, (l.directValues ++ l.nodes.flatMap Node.boundValues).Perm l.boundValues
  | .exprs items => flatMap_nodesOfEach_perm items
  | .params values => by
      rw [InList.nodes, InList.boundValues, List.flatMap_nil, List.append_nil]
      exact .refl _
  | .fragment body => body.flatMap_nodes_perm

theorem Fragment.flatMap_nodes_perm :
    ∀ f : Fragment, (f.nodes.flatMap Node.boundValues).Perm f.boundValues
  | .template _ args => flatMap_nodesOfEach_perm args
  | .keyword args => flatMap_nodesOfArguments_perm args

theorem flatMap_nodesOfEach_perm :
    ∀ es : List Expr, ((nodesOfEach es).flatMap Node.boundValues).Perm (boundInEach es)
  | [] => .refl _
  | e :: es => by
      rw [nodesOfEach, boundInEach, List.flatMap_append]
      exact e.flatMap_nodes_perm.append (flatMap_nodesOfEach_perm es)

theorem flatMap_nodesOfArguments_perm :
    ∀ args : List (String × Expr),
      ((nodesOfArguments args).flatMap Node.boundValues).Perm (boundInArguments args)
  | [] => .refl _
  | (name, e) :: rest => by
      rw [nodesOfArguments, boundInArguments, List.flatMap_append]
      exact e.flatMap_nodes_perm.append (flatMap_nodesOfArguments_perm rest)

end

theorem Source.flatMap_nodes_perm (source : Source) :
    (source.nodes.flatMap Node.boundValues).Perm source.boundValues := by
  cases source with
  | table name fields => exact .refl _
  | fragment body => exact body.flatMap_nodes_perm

theorem Join.flatMap_nodes_perm (join : Join) :
    (join.nodes.flatMap Node.boundValues).Perm join.boundValues := by
  cases join with
  | conditional kind source condition =>
      rw [Join.nodes, Join.boundValues, List.flatMap_append]
      exact source.flatMap_nodes_perm.append condition.flatMap_nodes_perm
  | cross source => exact source.flatMap_nodes_perm
  | associated source association => exact source.flatMap_nodes_perm

def Distinct.boundValues : Distinct → List Value
  | .flag _ => []
  | .exprs items => boundInEach items

theorem Distinct.flatMap_nodes_perm (distinct : Distinct) :
    (distinct.nodes.flatMap Node.boundValues).Perm distinct.boundValues := by
  cases distinct with
  | flag on? => exact .refl _
  | exprs items => exact flatMap_nodesOfEach_perm items

theorem Assignment.flatMap_nodes_perm (a : Assignment) :
    (a.nodes.flatMap Node.boundValues).Perm a.boundValues := by
  cases a <;> exact Expr.flatMap_nodes_perm _

/-- The nodes of a list of parts bind what the parts bind. -/
theorem flatMap_flatMap_perm {α : Type} {nodes : α → List Node} {values : α → List Value}
    (h : ∀ a, ((nodes a).flatMap Node.boundValues).Perm (values a)) (as : List α) :
    ((as.flatMap nodes).flatMap Node.boundValues).Perm (as.flatMap values) := by
  rw [List.flatMap_assoc]
  exact List.Perm.flatMap_left as fun a _ => h a

theorem flatMap_optional_perm (e : Option Expr) :
    ((nodesOfEach e.toList).flatMap Node.boundValues).Perm
      ((e.map Expr.boundValues).getD []) := by
  cases e with
  | none => exact .refl _
  | some e =>
      rw [Option.toList_some, nodesOfEach, nodesOfEach, List.append_nil]
      exact e.flatMap_nodes_perm

/-- Every parameter of a query stands in a clause of a SELECT, in a distinct list or in
an assignment. -/
theorem Query.boundValues_perm (q : Query) :
    q.boundValues.Perm (q.selectValues ++ ((q.distinct.map Distinct.boundValues).getD [] ++
      q.assignments.flatMap Assignment.boundValues)) := by
  have hprojection := flatMap_nodesOfEach_perm (q.projection.getD [])
  have hdistinct : (((q.distinct.map Distinct.nodes).getD []).flatMap Node.boundValues).Perm
      ((q.distinct.map Distinct.boundValues).getD []) := by
    cases q.distinct with
    | none => exact .refl _
    | some distinct => exact distinct.flatMap_nodes_perm
  have hassignments := flatMap_flatMap_perm Assignment.flatMap_nodes_perm q.assignments
  have hclauses := q.source.flatMap_nodes_perm
    |>.append (flatMap_flatMap_perm Join.flatMap_nodes_perm q.joins)
    |>.append (flatMap_nodesOfEach_perm q.filters)
    |>.append (flatMap_nodesOfEach_perm q.groups)
    |>.append (flatMap_nodesOfEach_perm q.groupFilters)
    |>.append (flatMap_flatMap_perm (fun t : OrderTerm => t.expr.flatMap_nodes_perm) q.ordering)
    |>.append (flatMap_optional_perm q.limit)
    |>.append (flatMap_optional_perm q.offset)
  have hall := ((hprojection.append hdistinct).append hassignments).append hclauses
  simp only [← List.flatMap_append] at hall
  refine hall.trans ?_
  -- The clauses after the projection come last among the nodes.
  simp only [selectValues, List.flatten_cons, List.flatten_nil, List.append_nil, List.append_assoc]
  refine List.Perm.append_left _ ?_
  rw [← List.append_assoc]
  refine List.perm_append_comm.trans ?_
  simp only [List.append_assoc]
  exact .refl _

/-- A query that is written as a SELECT has no values in a distinct list. -/
theorem Query.FitsSelect.distinctValues {q : Query} (h : q.FitsSelect) :
    (q.distinct.map Distinct.boundValues).getD [] = [] := by
  cases hdistinct : q.distinct with
  | none => rfl
  | some distinct =>
      cases distinct with
      | flag on? => rfl
      | exprs items =>
          rw [h.distinct items hdistinct]
          rfl

/-- Apart from its assignments a query with the shape of a bulk statement binds values
in its filters only. -/
theorem Query.FitsBulk.boundValues_perm {q : Query} (h : q.FitsBulk) :
    q.boundValues.Perm
      (boundInEach q.filters ++ q.assignments.flatMap Assignment.boundValues) := by
  obtain ⟨name, fields, hsource⟩ := h.source
  have hall := q.boundValues_perm
  simpa [selectValues, h.joins, hsource, h.projection, h.distinct, h.groups, h.groupFilters,
    h.ordering, h.limit, h.offset, Source.boundValues, boundInEach] using hall

theorem Query.params_compileSelect {q : Query} {c : Compiled} (hc : q.compileSelect = .ok c) :
    (c.params ++ q.assignments.flatMap Assignment.boundValues).Perm q.boundValues := by
  have hfits : q.FitsSelect :=
    q.selectViolations_eq_nil_iff.mp (q.emitSelect_reports.compile.exists_ok_iff.mp ⟨c, hc⟩)
  have hall := q.boundValues_perm
  rw [hfits.distinctValues, List.nil_append] at hall
  obtain ⟨o, -, -, rfl⟩ := q.emitSelect_binds.writes_of_compile hc
  exact hall.symm

theorem Query.params_compileUpdateAll {q : Query} {c : Compiled}
    (hc : q.compileUpdateAll = .ok c) : c.params.Perm q.boundValues := by
  have hfits : q.FitsUpdateAll :=
    q.updateViolations_eq_nil_iff.mp (q.emitUpdateAll_reports.compile.exists_ok_iff.mp ⟨c, hc⟩)
  obtain ⟨o, -, -, rfl⟩ := q.emitUpdateAll_binds.writes_of_compile hc
  exact List.perm_append_comm.trans hfits.toFitsBulk.boundValues_perm.symm

theorem Query.params_compileDeleteAll {q : Query} {c : Compiled}
    (hc : q.compileDeleteAll = .ok c) : c.params.Perm q.boundValues := by
  have hfits : q.FitsDeleteAll :=
    q.deleteViolations_eq_nil_iff.mp (q.emitDeleteAll_reports.compile.exists_ok_iff.mp ⟨c, hc⟩)
  have hall := hfits.toFitsBulk.boundValues_perm
  rw [hfits.assignments, List.flatMap_nil, List.append_nil] at hall
  obtain ⟨o, -, -, rfl⟩ := q.emitDeleteAll_binds.writes_of_compile hc
  exact hall.symm

/-- A SELECT binds every value of its query but those in assignments. So it has as many
parameters as there are values if and only if no assignment has one. A bulk statement
binds every value of its query. -/
theorem compiled_binds_all_iff (q : Query) (c : Compiled) :
    (q.compileSelect = .ok c →
      (c.params ++ q.assignments.flatMap Assignment.boundValues).Perm q.boundValues ∧
      (c.params.length = q.boundValues.length ↔ ∀ a ∈ q.assignments, a.boundValues = [])) ∧
    (q.compileUpdateAll = .ok c →
      c.params.Perm q.boundValues ∧ c.params.length = q.boundValues.length) ∧
    (q.compileDeleteAll = .ok c →
      c.params.Perm q.boundValues ∧ c.params.length = q.boundValues.length) := by
  refine ⟨fun hc => ?_, fun hc => ?_, fun hc => ?_⟩
  · have hperm := q.params_compileSelect hc
    refine ⟨hperm, ?_⟩
    rw [← hperm.length_eq, List.length_append, Nat.left_eq_add, List.length_eq_zero_iff,
      List.flatMap_eq_nil_iff]
  · have hperm := q.params_compileUpdateAll hc
    exact ⟨hperm, hperm.length_eq⟩
  · have hperm := q.params_compileDeleteAll hc
    exact ⟨hperm, hperm.length_eq⟩

theorem compiled_binds_all_in_samples :
    (∃ c, Query.bindingThroughout.compileSelect = .ok c ∧
      c.params.length = Query.bindingThroughout.boundValues.length) ∧
    (∃ c, (Query.bindingFilter.set "x" (.param (.int 8))).compileUpdateAll = .ok c ∧
      c.params.Perm (Query.bindingFilter.set "x" (.param (.int 8))).boundValues) ∧
    (∃ c, Query.bindingFilter.compileDeleteAll = .ok c ∧
      c.params.Perm Query.bindingFilter.boundValues) := by
  have hnone : ∀ a ∈ Query.bindingThroughout.assignments, a.boundValues = [] := by
    simp [Query.bindingThroughout]
  exact ⟨⟨_, rfl, ((compiled_binds_all_iff Query.bindingThroughout _).1 rfl).2.mpr hnone⟩,
    ⟨_, rfl, ((compiled_binds_all_iff _ _).2.1 rfl).1⟩,
    ⟨_, rfl, ((compiled_binds_all_iff _ _).2.2 rfl).1⟩⟩

/-- A value that is to be assigned is lost in a SELECT. -/
theorem select_drops_assigned_value :
    let q := ((Query.ofTable "t").select [.literal (.int 1)]).set "x" (.param (.int 5))
    ∃ c, q.compileSelect = .ok c ∧ q.boundValues = [.int 5] ∧ c.params = [] ∧
      c.params.length ≠ q.boundValues.length :=
  ⟨_, rfl, rfl, rfl, by decide⟩

end LiteSql
