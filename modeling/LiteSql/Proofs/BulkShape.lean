import LiteSql.Proofs.Shape
import LiteSql.Statement.Bulk

/-!
# The shape of queries that change rows

A bulk statement names one table, its assignments and its filters, and a query may
have nothing else. `updateViolations` and `deleteViolations` list all that stands in
the way, in the order in which it is looked for: first the parts of the query that
have no place in the statement, then whether there are assignments, then what the
assignments and the filters are refused for. A query is written exactly if this list
is empty, which is to say that each of its nodes fits the one table, and otherwise
the first item is reported.
-/

namespace LiteSql

/-- The parts of a query that a bulk statement has no place for, in order. -/
def Query.strayClauses (q : Query) : List Clause :=
  [(Clause.projection, q.projection.isSome),
    (.distinct, q.distinct.isSome),
    (.groupBy, !q.groups.isEmpty),
    (.having, !q.groupFilters.isEmpty),
    (.orderBy, !q.ordering.isEmpty),
    (.limit, q.limit.isSome),
    (.offset, q.offset.isSome)].filterMap fun (clause, isThere) =>
      if isThere then some clause else none

def Source.bulkViolations (operation : Operation) : Source → List Error
  | .table _ _ => []
  | .fragment _ => [.invalid (.bulkWithoutTable operation)]

/-- What the parts of a query around its assignments and filters are refused for. -/
def Query.bulkViolations (q : Query) (operation : Operation) : List Error :=
  (if q.joins.isEmpty then [] else [.unsupported (.joinsIn operation)]) ++
  (if q.lock.isSome then [.unsupported .lock] else []) ++
  q.source.bulkViolations operation ++
  q.strayClauses.map fun clause => .invalid (.bulkWith operation clause)

def Assignment.violations (q : Query) : Assignment → List Error
  | .set _ value | .increment _ value => value.violations q
  | .push _ _ | .pull _ _ => [.unsupported .arrayOperation]

/-- All that keeps a query from being written as a bulk UPDATE, in order. -/
def Query.updateViolations (q : Query) : List Error :=
  q.bulkViolations .update ++
  ((if q.assignments.isEmpty then [.invalid .bulkWithoutAssignment] else []) ++
  (q.assignments.flatMap (Assignment.violations q) ++ violationsOfEach q q.filters))

/-- All that keeps a query from being written as a bulk DELETE, in order. -/
def Query.deleteViolations (q : Query) : List Error :=
  q.bulkViolations .delete ++
  ((if q.assignments.isEmpty then [] else [.invalid .bulkDeleteWithAssignment]) ++
  violationsOfEach q q.filters)

/-- What a node has to meet in a statement on one source, apart from its parts. -/
def Node.FitsSource (source : Source) : Node → Prop
  | .expr (.field index _) => index = 0
  | .expr (.row index) => index = 0 ∧ ∃ name fields, source = .table name (some fields)
  | .expr (.cast _ target) => target.isArray = false
  | .expr _ => True
  | .fragment (.template sql args) => Template.spliceCount sql = args.length
  | .fragment (.keyword _) => False

def Assignment.IsArrayOperation : Assignment → Prop
  | .set _ _ | .increment _ _ => False
  | .push _ _ | .pull _ _ => True

/-- A query with one table, and with no part that a bulk statement has no place for. -/
structure Query.FitsBulk (q : Query) : Prop where
  joins : q.joins = []
  unlocked : q.lock = none
  source : ∃ name fields, q.source = .table name fields
  projection : q.projection = none
  distinct : q.distinct = none
  groups : q.groups = []
  groupFilters : q.groupFilters = []
  ordering : q.ordering = []
  limit : q.limit = none
  offset : q.offset = none

/-- The shape of a query that can be written as a bulk UPDATE. -/
structure Query.FitsUpdateAll (q : Query) : Prop extends q.FitsBulk where
  assignments : q.assignments ≠ []
  noArrayOperation : ∀ a ∈ q.assignments, ¬ a.IsArrayOperation
  values : ∀ node ∈ q.assignments.flatMap Assignment.nodes, node.FitsSource q.source
  filters : ∀ node ∈ nodesOfEach q.filters, node.FitsSource q.source

/-- The shape of a query that can be written as a bulk DELETE. -/
structure Query.FitsDeleteAll (q : Query) : Prop extends q.FitsBulk where
  assignments : q.assignments = []
  filters : ∀ node ∈ nodesOfEach q.filters, node.FitsSource q.source

theorem Query.strayClause?_eq_head? (q : Query) : q.strayClause? = q.strayClauses.head? := by
  simp only [strayClause?, strayClauses, List.head?_filterMap, List.findSome?_cons,
    List.findSome?_nil]
  grind

theorem Query.checkBulk_reports (q : Query) (operation : Operation) :
    (Emit.ofExcept (q.checkBulk operation)).Reports (q.bulkViolations operation) := by
  unfold checkBulk bulkViolations
  cases hjoins : q.joins.isEmpty with
  | false => exact .ofExcept (.error _ [])
  | true =>
      cases hlock : q.lock.isSome with
      | true => exact .ofExcept (.error _ [])
      | false =>
          cases hsource : q.source with
          | fragment body => exact .ofExcept (.error _ [])
          | table name fields =>
              rw [q.strayClause?_eq_head?]
              cases hstray : q.strayClauses with
              | nil => exact .ofExcept (.ok _)
              | cons clause clauses => exact .ofExcept (.error _ [])

theorem Assignment.emit_reports (q : Query) (mode : NameMode) (a : Assignment) :
    (a.emit (q.namedSources mode)).Reports (a.violations q) := by
  cases a with
  | set field value => exact (value.emit_reports q mode).map _
  | increment field value =>
      have hoperand := (value.emit_reports q mode).map value.asOperand
      exact hoperand.map _
  | push field value => exact .throw _
  | pull field value => exact .throw _

theorem bulkTarget_reports (q : Query) : (bulkTarget (q.namedSources .bulk)).Reports [] := by
  have hprimary : q.sources[0]? = some q.source := rfl
  unfold bulkTarget
  rw [sourceAt_eq_ok .bulk hprimary]
  exact .pure _

theorem Query.emitUpdateAll_reports (q : Query) : q.emitUpdateAll.Reports q.updateViolations :=
  (q.checkBulk_reports .update).bind fun _ =>
    (Emit.Reports.refuseIf _ _).bind fun _ =>
    (bulkTarget_reports q).bind fun _ =>
    (Emit.Reports.forEach (Assignment.emit_reports q .bulk) q.assignments).bind fun _ =>
    (filterClause_reports q .bulk "WHERE" q.filters).map _

theorem Query.emitDeleteAll_reports (q : Query) : q.emitDeleteAll.Reports q.deleteViolations := by
  have hassignments : (Emit.refuseIf (!q.assignments.isEmpty)
      (.invalid .bulkDeleteWithAssignment)).Reports
        (if q.assignments.isEmpty then [] else [.invalid .bulkDeleteWithAssignment]) := by
    cases q.assignments.isEmpty with
    | true => exact .pure ()
    | false => exact .throw _
  exact (q.checkBulk_reports .delete).bind fun _ => hassignments.bind fun _ =>
    (bulkTarget_reports q).bind fun _ => (filterClause_reports q .bulk "WHERE" q.filters).map _

theorem Query.bulkViolations_eq_nil_iff (q : Query) (operation : Operation) :
    q.bulkViolations operation = [] ↔ q.FitsBulk := by
  have hsource : q.source.bulkViolations operation = [] ↔
      ∃ name fields, q.source = .table name fields := by
    cases q.source <;> simp [Source.bulkViolations]
  have hstray : q.strayClauses = [] ↔ q.projection = none ∧ q.distinct = none ∧ q.groups = [] ∧
      q.groupFilters = [] ∧ q.ordering = [] ∧ q.limit = none ∧ q.offset = none := by
    simp [strayClauses]
  simp only [bulkViolations, List.append_eq_nil_iff, List.map_eq_nil_iff, hsource, hstray]
  constructor
  · rintro ⟨⟨⟨hjoins, hlock⟩, htable⟩, hprojection, hdistinct, hgroups, hgroupFilters, hordering,
      hlimit, hoffset⟩
    exact ⟨by simpa using hjoins, by simpa using hlock, htable, hprojection, hdistinct, hgroups,
      hgroupFilters, hordering, hlimit, hoffset⟩
  · intro h
    simp only [h.joins, h.unlocked]
    exact ⟨⟨⟨rfl, rfl⟩, h.source⟩, h.projection, h.distinct, h.groups, h.groupFilters, h.ordering,
      h.limit, h.offset⟩

/-- Without joins the only source is the primary one. -/
theorem Node.fits_iff_fitsSource {q : Query} (h : q.joins = []) (node : Node) :
    node.Fits q ↔ node.FitsSource q.source := by
  have hzero (index : UInt64) : index.toNat < 1 + q.joins.length ↔ index = 0 := by
    simp [h, ← UInt64.toNat_inj]
  cases node with
  | fragment body => cases body <;> exact Iff.rfl
  | expr e =>
      cases e with
      | field index column => exact hzero index
      | row index =>
          simp only [Node.Fits, Node.FitsSource, hzero]
          refine and_congr_right fun hindex => ?_
          simp [hindex, Query.sources]
      | _ => exact Iff.rfl

theorem Query.FitsBulk.nodes_fit_iff {q : Query} (h : q.FitsBulk) (nodes : List Node) :
    (∀ node ∈ nodes, node.Fits q) ↔ ∀ node ∈ nodes, node.FitsSource q.source := by
  simp only [Node.fits_iff_fitsSource h.joins]

theorem Assignment.violations_eq_nil_iff (q : Query) (a : Assignment) :
    a.violations q = [] ↔ ¬ a.IsArrayOperation ∧ ∀ node ∈ a.nodes, node.Fits q := by
  cases a with
  | set field value | increment field value =>
      simp [Assignment.violations, IsArrayOperation, Assignment.nodes,
        value.violations_eq_nil_iff q]
  | push field value | pull field value => simp [Assignment.violations, IsArrayOperation]

theorem assignmentViolations_eq_nil_iff (q : Query) (assignments : List Assignment) :
    assignments.flatMap (Assignment.violations q) = [] ↔
      (∀ a ∈ assignments, ¬ a.IsArrayOperation) ∧
        ∀ node ∈ assignments.flatMap Assignment.nodes, node.Fits q := by
  simp only [List.flatMap_eq_nil_iff, Assignment.violations_eq_nil_iff, List.mem_flatMap]
  constructor
  · intro h
    exact ⟨fun a ha => (h a ha).1, fun node ⟨a, ha, hnode⟩ => (h a ha).2 node hnode⟩
  · rintro ⟨hplain, hnodes⟩ a ha
    exact ⟨hplain a ha, fun node hnode => hnodes node ⟨a, ha, hnode⟩⟩

theorem Query.updateViolations_eq_nil_iff (q : Query) :
    q.updateViolations = [] ↔ q.FitsUpdateAll := by
  simp only [updateViolations, List.append_eq_nil_iff, q.bulkViolations_eq_nil_iff,
    assignmentViolations_eq_nil_iff, violationsOfEach_eq_nil_iff]
  constructor
  · rintro ⟨hbulk, hsome, ⟨hplain, hvalues⟩, hfilters⟩
    rw [hbulk.nodes_fit_iff] at hvalues hfilters
    exact ⟨hbulk, by simpa using hsome, hplain, hvalues, hfilters⟩
  · rintro ⟨hbulk, hsome, hplain, hvalues, hfilters⟩
    rw [← hbulk.nodes_fit_iff] at hvalues hfilters
    exact ⟨hbulk, by simpa using hsome, ⟨hplain, hvalues⟩, hfilters⟩

theorem Query.deleteViolations_eq_nil_iff (q : Query) :
    q.deleteViolations = [] ↔ q.FitsDeleteAll := by
  simp only [deleteViolations, List.append_eq_nil_iff, q.bulkViolations_eq_nil_iff,
    violationsOfEach_eq_nil_iff]
  constructor
  · rintro ⟨hbulk, hnone, hfilters⟩
    rw [hbulk.nodes_fit_iff] at hfilters
    exact ⟨hbulk, by simpa using hnone, hfilters⟩
  · rintro ⟨hbulk, hnone, hfilters⟩
    rw [← hbulk.nodes_fit_iff] at hfilters
    exact ⟨hbulk, by simpa using hnone, hfilters⟩

/-- A query is written as a bulk UPDATE or DELETE exactly if it has the shape of one, at
every depth. Otherwise the first violation is reported. -/
theorem compileBulk_ok_iff_fits (q : Query) :
    (((∃ c, q.compileUpdateAll = .ok c) ↔ q.FitsUpdateAll) ∧
      ∀ e, q.compileUpdateAll = .error e ↔ q.updateViolations.head? = some e) ∧
    (((∃ c, q.compileDeleteAll = .ok c) ↔ q.FitsDeleteAll) ∧
      ∀ e, q.compileDeleteAll = .error e ↔ q.deleteViolations.head? = some e) := by
  refine ⟨⟨?_, fun e => q.emitUpdateAll_reports.compile.eq_error_iff e⟩,
    ⟨?_, fun e => q.emitDeleteAll_reports.compile.eq_error_iff e⟩⟩
  · rw [← q.updateViolations_eq_nil_iff]
    exact q.emitUpdateAll_reports.compile.exists_ok_iff
  · rw [← q.deleteViolations_eq_nil_iff]
    exact q.emitDeleteAll_reports.compile.exists_ok_iff

end LiteSql
