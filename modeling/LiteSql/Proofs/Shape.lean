import LiteSql.Proofs.Nodes
import LiteSql.Proofs.Refusal

/-!
# The shape of queries that are accepted

A query has nothing to be refused for if and only if each of its nodes fits, at any
depth, and so do the parts of the query that are no nodes: its lock, its distinct
list, its projection and the kinds and owners of its joins. So a query is written
as a SELECT exactly if it has this shape.
-/

namespace LiteSql

/-- What a node has to meet in a query, apart from its parts. -/
def Node.Fits (q : Query) : Node → Prop
  | .expr (.field source _) => source.toNat < 1 + q.joins.length
  | .expr (.row source) => source.toNat < 1 + q.joins.length ∧
    ∃ name fields, q.sources[source.toNat]? = some (.table name (some fields))
  | .expr (.cast _ target) => target.isArray = false
  | .expr _ => True
  | .fragment (.template sql args) => Template.spliceCount sql = args.length
  | .fragment (.keyword _) => False

def Join.Fits (position : Nat) : Join → Prop
  | .conditional kind _ _ => kind ≠ .right ∧ kind ≠ .full
  | .cross _ => True
  | .associated _ association => association.owner.toNat < position

/-- The shape of a query that can be written as a SELECT. -/
structure Query.FitsSelect (q : Query) : Prop where
  unlocked : q.lock = none
  distinct : ∀ items, q.distinct = some (.exprs items) → items = []
  projection : q.projection ≠ some []
  nodes : ∀ node ∈ q.selectNodes, node.Fits q
  joins : ∀ (k : Nat) (join : Join), q.joins[k]? = some join → join.Fits (k + 1)

theorem Query.indexViolations_eq_nil_iff (q : Query) (index : Nat) :
    q.indexViolations index = [] ↔ index < 1 + q.joins.length := by
  simp [indexViolations]

theorem Query.rowViolations_eq_nil_iff (q : Query) (index : Nat) :
    q.rowViolations index = [] ↔ index < 1 + q.joins.length ∧
      ∃ name fields, q.sources[index]? = some (.table name (some fields)) := by
  unfold rowViolations
  constructor
  · intro h
    split at h
    · cases h
    · rename_i name fields hs
      have hlt := (List.getElem?_eq_some_iff.mp hs).1
      rw [q.length_sources] at hlt
      exact ⟨hlt, name, fields, hs⟩
    · cases h
    · cases h
  · rintro ⟨-, name, fields, hs⟩
    rw [hs]

mutual

theorem Expr.violations_eq_nil_iff (q : Query) :
    ∀ e : Expr, e.violations q = [] ↔ ∀ node ∈ e.nodes, node.Fits q
  | .field source column => by
      simp [Expr.violations, Expr.nodes, Node.Fits, q.indexViolations_eq_nil_iff]
  | .row source => by
      simp [Expr.violations, Expr.nodes, Node.Fits, q.rowViolations_eq_nil_iff]
  | .literal value => by simp [Expr.violations, Expr.nodes, Node.Fits]
  | .param value => by simp [Expr.violations, Expr.nodes, Node.Fits]
  | .binary op left right => by
      simp [Expr.violations, Expr.nodes, Node.Fits, left.violations_eq_nil_iff q,
        right.violations_eq_nil_iff q, or_imp, forall_and]
  | .not inner => by
      simp [Expr.violations, Expr.nodes, Node.Fits, inner.violations_eq_nil_iff q]
  | .isNull inner => by
      simp [Expr.violations, Expr.nodes, Node.Fits, inner.violations_eq_nil_iff q]
  | .cast inner target => by
      simp [Expr.violations, Expr.nodes, Node.Fits, inner.violations_eq_nil_iff q]
  | .isIn left right => by
      simp [Expr.violations, Expr.nodes, Node.Fits, left.violations_eq_nil_iff q,
        right.violations_eq_nil_iff q, or_imp, forall_and]
  | .fragment body => by
      simp [Expr.violations, Expr.nodes, Node.Fits, body.violations_eq_nil_iff q]
  | .call name args distinct => by
      simp [Expr.violations, Expr.nodes, Node.Fits, violationsOfEach_eq_nil_iff q args]

theorem InList.violations_eq_nil_iff (q : Query) :
    ∀ l : InList, l.violations q = [] ↔ ∀ node ∈ l.nodes, node.Fits q
  | .exprs items => by
      simp [InList.violations, InList.nodes, violationsOfEach_eq_nil_iff q items]
  | .params values => by simp [InList.violations, InList.nodes]
  | .fragment body => by
      simp [InList.violations, InList.nodes, body.violations_eq_nil_iff q]

theorem Fragment.violations_eq_nil_iff (q : Query) :
    ∀ f : Fragment, f.violations q = [] ↔ ∀ node ∈ f.nodes, node.Fits q
  | .template sql args => by
      simp [Fragment.violations, Fragment.nodes, Node.Fits,
        spliceViolations_eq_nil_iff q sql (Template.spliceCount sql) args]
  | .keyword args => by simp [Fragment.violations, Fragment.nodes, Node.Fits]

theorem spliceViolations_eq_nil_iff (q : Query) (template : String) (n : Nat) :
    ∀ args : List Expr, spliceViolations q template n args = [] ↔
      n = args.length ∧ ∀ node ∈ nodesOfEach args, node.Fits q
  | [] => by cases n <;> simp [spliceViolations, nodesOfEach]
  | arg :: args => by
      cases n with
      | zero => simp [spliceViolations]
      | succ n =>
          have hargs := spliceViolations_eq_nil_iff q template n args
          rw [spliceViolations, List.append_eq_nil_iff, hargs, arg.violations_eq_nil_iff q,
            nodesOfEach, List.forall_mem_append, List.length_cons, Nat.add_right_cancel_iff]
          exact and_left_comm

theorem violationsOfEach_eq_nil_iff (q : Query) :
    ∀ es : List Expr, violationsOfEach q es = [] ↔ ∀ node ∈ nodesOfEach es, node.Fits q
  | [] => by simp [violationsOfEach, nodesOfEach]
  | e :: es => by
      rw [violationsOfEach, nodesOfEach, List.append_eq_nil_iff, List.forall_mem_append,
        e.violations_eq_nil_iff q, violationsOfEach_eq_nil_iff q es]

end

theorem Source.violations_eq_nil_iff (q : Query) (source : Source) :
    source.violations q = [] ↔ ∀ node ∈ source.nodes, node.Fits q := by
  cases source with
  | table name fields => simp [Source.violations, Source.nodes]
  | fragment body => exact body.violations_eq_nil_iff q

theorem Join.violations_eq_nil_iff (q : Query) (position : Nat) (join : Join) :
    join.violations q position = [] ↔
      join.Fits position ∧ ∀ node ∈ join.nodes, node.Fits q := by
  cases join with
  | conditional kind source condition =>
      simp [Join.violations, Join.Fits, Join.nodes, source.violations_eq_nil_iff q,
        condition.violations_eq_nil_iff q, or_imp, forall_and, and_assoc]
  | cross source => simp [Join.violations, Join.Fits, Join.nodes, source.violations_eq_nil_iff q]
  | associated source association =>
      simp [Join.violations, Join.Fits, Join.nodes, source.violations_eq_nil_iff q]

theorem joinViolations_eq_nil_iff (q : Query) (position : Nat) (joins : List Join) :
    joinViolations q position joins = [] ↔
      (∀ (k : Nat) (join : Join), joins[k]? = some join → join.Fits (k + position)) ∧
        ∀ node ∈ joins.flatMap Join.nodes, node.Fits q := by
  induction joins generalizing position with
  | nil => simp [joinViolations]
  | cons join joins ih =>
      have hplaces : (∀ (k : Nat) (j : Join), (join :: joins)[k]? = some j → j.Fits (k + position)) ↔
          join.Fits position ∧
            ∀ (k : Nat) (j : Join), joins[k]? = some j → j.Fits (k + (position + 1)) := by
        constructor
        · intro h
          refine ⟨by simpa using h 0 join rfl, fun k j hk => ?_⟩
          have hj := h (k + 1) j hk
          rwa [Nat.add_assoc, Nat.add_comm 1 position] at hj
        · rintro ⟨hfirst, hrest⟩ k j hk
          cases k with
          | zero =>
              cases hk
              simpa using hfirst
          | succ k =>
              rw [Nat.add_assoc, Nat.add_comm 1 position]
              exact hrest k j hk
      rw [joinViolations, List.append_eq_nil_iff, join.violations_eq_nil_iff, ih, hplaces,
        List.flatMap_cons, List.forall_mem_append]
      exact and_and_and_comm

theorem projectionViolations_eq_nil_iff (q : Query) (projection : Option (List Expr)) :
    projectionViolations q projection = [] ↔
      projection ≠ some [] ∧ ∀ node ∈ nodesOfEach (projection.getD [.row 0]), node.Fits q := by
  match projection with
  | none =>
      rw [projectionViolations, Expr.violations_eq_nil_iff]
      simp [nodesOfEach]
  | some [] => simp [projectionViolations]
  | some (e :: es) =>
      rw [projectionViolations, violationsOfEach_eq_nil_iff]
      · simp
      · simp

theorem orderViolations_eq_nil_iff (q : Query) (terms : List OrderTerm) :
    (terms.flatMap fun term => term.expr.violations q) = [] ↔
      ∀ node ∈ terms.flatMap OrderTerm.nodes, node.Fits q := by
  induction terms with
  | nil => simp
  | cons term terms ih =>
      rw [List.flatMap_cons, List.flatMap_cons, List.append_eq_nil_iff, List.forall_mem_append, ih,
        term.expr.violations_eq_nil_iff]
      rfl

theorem distinctViolations_eq_nil_iff (distinct : Option Distinct) :
    (distinct.map Distinct.violations).getD [] = [] ↔
      ∀ items, distinct = some (.exprs items) → items = [] := by
  match distinct with
  | none => simp
  | some (.flag on?) => simp [Distinct.violations]
  | some (.exprs []) => simp [Distinct.violations]
  | some (.exprs (e :: es)) => simp [Distinct.violations]

theorem Query.selectViolations_eq_nil_iff (q : Query) :
    q.selectViolations = [] ↔ q.FitsSelect := by
  have hlock : (if q.lock.isSome then [Error.unsupported .lock] else []) = [] ↔ q.lock = none := by
    simp
  simp only [selectViolations, List.append_eq_nil_iff, List.flatten_cons, List.flatten_nil, hlock,
    distinctViolations_eq_nil_iff, projectionViolations_eq_nil_iff, Source.violations_eq_nil_iff,
    joinViolations_eq_nil_iff, violationsOfEach_eq_nil_iff, orderViolations_eq_nil_iff]
  constructor
  · rintro ⟨hunlocked, hdistinct, ⟨hsome, hprojection⟩, hsource, ⟨hplaces, hjoins⟩, hfilters, hgroups,
      hgroupFilters, hordering, hlimit, hoffset, -⟩
    refine ⟨hunlocked, hdistinct, hsome, ?_, hplaces⟩
    simp only [selectNodes, clauseNodes, List.forall_mem_append]
    exact ⟨hprojection, ⟨⟨⟨⟨⟨⟨hsource, hjoins⟩, hfilters⟩, hgroups⟩, hgroupFilters⟩, hordering⟩, hlimit⟩,
      hoffset⟩
  · rintro ⟨hunlocked, hdistinct, hsome, hnodes, hplaces⟩
    simp only [selectNodes, clauseNodes, List.forall_mem_append] at hnodes
    obtain ⟨hprojection, ⟨⟨⟨⟨⟨⟨hsource, hjoins⟩, hfilters⟩, hgroups⟩, hgroupFilters⟩, hordering⟩,
      hlimit⟩, hoffset⟩ := hnodes
    exact ⟨hunlocked, hdistinct, ⟨hsome, hprojection⟩, hsource, ⟨hplaces, hjoins⟩, hfilters, hgroups,
      hgroupFilters, hordering, hlimit, hoffset, trivial⟩

/-- A query is written as a SELECT exactly if it has the shape of one, at every
depth. Otherwise the first violation in the order of the text is reported. -/
theorem compileSelect_ok_iff_fits (q : Query) :
    ((∃ c, q.compileSelect = .ok c) ↔ q.FitsSelect) ∧
      ∀ e, q.compileSelect = .error e ↔ q.selectViolations.head? = some e := by
  refine ⟨?_, fun e => q.emitSelect_reports.compile.eq_error_iff e⟩
  rw [← q.selectViolations_eq_nil_iff]
  exact q.emitSelect_reports.compile.exists_ok_iff

end LiteSql
