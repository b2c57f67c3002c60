import LiteSql.Proofs.Outline
import LiteSql.Proofs.Refusal
import LiteSql.Statement.Bulk

/-!
# Values are bound in the order of the text

`boundValues` lists the values that a tree binds, from left to right. Writing a
tree binds exactly these values: every counter moves by their number, and the
text is the same from every counter except for the numbers of its placeholders.
The clauses of a statement continue each other, so the parameters of a whole
statement are the values of its clauses in the order in which they are written,
and the value at place `k` is the one that stands at the placeholder `?k`.
-/

namespace LiteSql

mutual

/-- The values that an expression binds, from left to right. -/
def Expr.boundValues : Expr → List Value
  | .field _ _ | .row _ | .literal _ => []
  | .param value => [value]
  | .binary _ left right => left.boundValues ++ right.boundValues
  | .not inner | .isNull inner | .cast inner _ => inner.boundValues
  | .isIn left right => left.boundValues ++ right.boundValues
  | .fragment body => body.boundValues
  | .call _ args _ => boundInEach args

def InList.boundValues : InList → List Value
  | .exprs items => boundInEach items
  | .params values => values
  | .fragment body => body.boundValues

def Fragment.boundValues : Fragment → List Value
  | .template _ args => boundInEach args
  | .keyword args => boundInArguments args

def boundInEach : List Expr → List Value
  | [] => []
  | e :: es => e.boundValues ++ boundInEach es

def boundInArguments : List (String × Expr) → List Value
  | [] => []
  | (_, e) :: rest => e.boundValues ++ boundInArguments rest

end

/-- The text of an operand is the text of the expression, possibly in
parentheses. -/
theorem Expr.asOperand_eq (e : Expr) :
    ∃ left right, ∀ sql, e.asOperand sql = left ++ (sql ++ right) := by
  by_cases h : e.isCompound
  · exact ⟨['('], [')'], fun sql => by simp [asOperand, h, Text.parenthesized]⟩
  · exact ⟨[], [], fun sql => by simp [asOperand, h]⟩

theorem Emit.Binds.call {step : Emit (List Text)} {n : Nat} {vs : List Value}
    (name : String) (distinct : Bool) (h : step.BindsEach n vs) :
    Binds (do let ts ← step; return callText name distinct ts) vs := by
  let flag := if distinct then "DISTINCT ".toList else []
  have hcall (ts : List Text) : callText name distinct ts =
      name.toList ++ Text.parenthesized
        (flag ++ if ts.isEmpty && isCount name then ['*'] else Text.joined ", " ts) := rfl
  generalize flag = flag at hcall
  by_cases hcount : n = 0 ∧ isCount name
  · refine .joined ", " (name.toList ++ '(' :: (flag ++ ['*'])) [] [] [')'] h fun ts hts => ?_
    have hnil : ts = [] := List.length_eq_zero_iff.mp (hts.trans hcount.1)
    simp [hcall, hnil, hcount.2, Text.parenthesized, Text.joined]
  · refine .joined ", " (name.toList ++ '(' :: flag) [] [] [')'] h fun ts hts => ?_
    have hplain : (ts.isEmpty && isCount name) = false := by
      rw [← hts] at hcount
      simpa using hcount
    simp [hcall, hplain, Text.parenthesized]

theorem Emit.bindValues_binds (vs : List Value) :
    (bindValues vs).BindsEach vs.length vs := by
  induction vs with
  | nil => exact .nil
  | cons v vs ih => exact .cons (.bindValue v) ih

mutual

theorem Expr.emit_binds (sources : List NamedSource) :
    ∀ e : Expr, (e.emit sources).Binds e.boundValues
  | .field source column => by
      rw [Expr.emit, Expr.boundValues]
      exact .ofExcept fun s _ => .pure (s.column column)
  | .row source => by
      rw [Expr.emit, Expr.boundValues]
      exact .ofExcept fun s _ => .ofExcept_text s.row
  | .literal value => by
      rw [Expr.emit, Expr.boundValues]
      exact .pure value.literal
  | .param value => by
      rw [Expr.emit, Expr.boundValues]
      exact .bindValue value
  | .binary op left right => by
      obtain ⟨l, l', hl⟩ := left.asOperand_eq
      obtain ⟨r, r', hr⟩ := right.asOperand_eq
      rw [Expr.emit, Expr.boundValues]
      exact .pair l (l' ++ ' ' :: (op.symbol.toList ++ ' ' :: r)) r'
        (left.emit_binds sources) (right.emit_binds sources) fun s t => by simp [hl, hr]
  | .not inner => by
      rw [Expr.emit, Expr.boundValues]
      exact .around "NOT (".toList [')'] (inner.emit_binds sources) fun s => by
        simp [Text.parenthesized]
  | .isNull inner => by
      obtain ⟨l, l', hl⟩ := inner.asOperand_eq
      rw [Expr.emit, Expr.boundValues]
      exact .around l (l' ++ " IS NULL".toList) (inner.emit_binds sources) fun s => by simp [hl]
  | .cast inner target => by
      have hboth := Emit.Binds.pair "CAST (".toList " AS ".toList [')']
        (inner.emit_binds sources) (.ofExcept_text target.castTarget)
        (f := fun s t => "CAST ".toList ++ Text.parenthesized (s ++ " AS ".toList ++ t))
        fun s t => by simp [Text.parenthesized]
      rw [List.append_nil] at hboth
      rw [Expr.emit, Expr.boundValues]
      exact .refuseIf hboth
  | .isIn left right => by
      obtain ⟨l, l', hl⟩ := left.asOperand_eq
      rw [Expr.emit, Expr.boundValues]
      exact .pair l (l' ++ " IN (".toList) [')'] (left.emit_binds sources)
        (right.emit_binds sources) fun s t => by simp [hl, Text.parenthesized]
  | .fragment body => by
      rw [Expr.emit, Expr.boundValues]
      exact body.emit_binds sources
  | .call name args distinct => by
      rw [Expr.emit, Expr.boundValues]
      exact Emit.Binds.call name distinct (emitEach_binds sources args)

theorem InList.emit_binds (sources : List NamedSource) :
    ∀ l : InList, (l.emit sources).Binds l.boundValues
  | .exprs items => by
      rw [InList.emit, InList.boundValues]
      exact .joined ", " [] [] [] [] (emitEach_binds sources items) fun ts _ => by simp
  | .params values => by
      rw [InList.emit, InList.boundValues]
      exact .joined ", " [] [] [] [] (Emit.bindValues_binds values) fun ts _ => by simp
  | .fragment body => by
      rw [InList.emit, InList.boundValues]
      exact body.emit_binds sources

theorem Fragment.emit_binds (sources : List NamedSource) :
    ∀ f : Fragment, (f.emit sources).Binds f.boundValues
  | .template sql args => by
      rw [Fragment.emit, Fragment.boundValues]
      exact emitSplices_binds sources sql sql.toList args
  | .keyword args => by
      rw [Fragment.emit, Fragment.boundValues]
      exact .throw _ _

theorem emitSplices_binds (sources : List NamedSource) (template : String) (rest : Text) :
    ∀ args : List Expr, (emitSplices sources template rest args).Binds (boundInEach args)
  | [] => by
      rw [emitSplices, boundInEach]
      split
      · exact .pure _
      · exact .throw _ _
  | arg :: args => by
      rw [emitSplices, boundInEach]
      split
      · exact .throw _ _
      · rename_i before after _
        exact .pair before [] [] (arg.emit_binds sources)
          (emitSplices_binds sources template after args) fun s t => by simp

theorem emitEach_binds (sources : List NamedSource) :
    ∀ es : List Expr, (emitEach sources es).BindsEach es.length (boundInEach es)
  | [] => by
      rw [emitEach, boundInEach]
      exact .nil
  | e :: es => by
      rw [emitEach, boundInEach]
      exact .cons (e.emit_binds sources) (emitEach_binds sources es)

end

theorem Expr.emitOperand_binds (sources : List NamedSource) (e : Expr) :
    (e.emitOperand sources).Binds e.boundValues := by
  obtain ⟨l, l', hl⟩ := e.asOperand_eq
  exact .around l l' (e.emit_binds sources) hl

theorem emitList_binds (sources : List NamedSource) (es : List Expr) :
    (emitList sources es).Binds (boundInEach es) :=
  .joined ", " [] [] [] [] (emitEach_binds sources es) fun ts _ => by simp

def Source.boundValues : Source → List Value
  | .table _ _ => []
  | .fragment body => body.boundValues

/-- The values that a join binds: those of its source come before those of its
condition. -/
def Join.boundValues : Join → List Value
  | .conditional _ source condition => source.boundValues ++ condition.boundValues
  | .cross source => source.boundValues
  | .associated source _ => source.boundValues

def Assignment.boundValues : Assignment → List Value
  | .set _ value | .increment _ value | .push _ value | .pull _ value => value.boundValues

/-- The values that a query binds as a SELECT, clause by clause. -/
def Query.selectValues (q : Query) : List Value :=
  [boundInEach (q.projection.getD []),
    q.source.boundValues,
    q.joins.flatMap Join.boundValues,
    boundInEach q.filters,
    boundInEach q.groups,
    boundInEach q.groupFilters,
    q.ordering.flatMap fun term => term.expr.boundValues,
    (q.limit.map Expr.boundValues).getD [],
    (q.offset.map Expr.boundValues).getD []].flatten

/-- The values that a query binds as a bulk UPDATE. -/
def Query.updateValues (q : Query) : List Value :=
  q.assignments.flatMap Assignment.boundValues ++ boundInEach q.filters

theorem NamedSource.emit_binds (sources : List NamedSource) (s : NamedSource) :
    (s.emit sources).Binds s.source.boundValues := by
  unfold NamedSource.emit
  split
  · rename_i name fields hs
    rw [hs]
    exact .pure _
  · rename_i body hs
    rw [hs]
    exact .around ['('] (')' :: (" AS ".toList ++ s.handle)) (body.emit_binds sources)
      fun t => by simp [Text.parenthesized]

theorem Join.emit_binds (sources : List NamedSource) (position : Nat) (join : Join)
    (h : ∀ s, sourceAt sources position = .ok s → s.source = join.source) :
    (join.emit sources position).Binds join.boundValues := by
  refine .ofExcept fun joined hjoined => ?_
  have hsource := joined.emit_binds sources
  rw [h joined hjoined] at hsource
  cases join with
  | conditional kind source condition =>
      refine .ofExcept fun keyword _ => ?_
      exact .pair (' ' :: (keyword.toList ++ [' '])) " ON ".toList [] hsource
        (condition.emit_binds sources) fun s t => by simp
  | cross source =>
      exact .around " CROSS JOIN ".toList [] hsource fun s => by simp
  | associated source association =>
      refine .refuseIf (.ofExcept fun owner _ => ?_)
      exact .around " INNER JOIN ".toList (" ON ".toList ++ association.condition joined owner)
        hsource fun s => by simp

/-- The joins from `position` on bind the values of their own sources, provided
that the sources from there on are the ones that they name. -/
theorem emitJoins_binds (sources : List NamedSource) (position : Nat) (joins : List Join)
    (h : ∀ k s join, sourceAt sources (position + k) = .ok s → joins[k]? = some join →
      s.source = join.source) :
    (emitJoins sources position joins).Binds (joins.flatMap Join.boundValues) := by
  induction joins generalizing position with
  | nil => exact .pure []
  | cons join joins ih =>
      have hfirst := join.emit_binds sources position fun s hs => h 0 s join hs rfl
      have hrest := ih (position + 1) fun k s join' hs hk =>
        h (k + 1) s join' (by rwa [Nat.add_assoc, Nat.add_comm 1 k] at hs) hk
      exact .pair [] [] [] hfirst hrest fun s t => by simp

theorem filterClause_binds (keyword : String) (sources : List NamedSource)
    (filters : List Expr) :
    (filterClause keyword sources filters).Binds (boundInEach filters) := by
  cases filters with
  | nil => exact .pure []
  | cons e es =>
      exact .joined " AND " (' ' :: (keyword.toList ++ [' '])) ['('] [')'] []
        (emitEach_binds sources (e :: es)) fun ts _ => by
          simp [show Text.parenthesized = fun t => '(' :: (t ++ [')']) from rfl]

theorem listClause_binds (keyword : String) (sources : List NamedSource) (es : List Expr) :
    (listClause keyword sources es).Binds (boundInEach es) := by
  cases es with
  | nil => exact .pure []
  | cons e es =>
      exact .around (' ' :: (keyword.toList ++ [' '])) [] (emitList_binds sources (e :: es))
        fun s => by simp

theorem projectionClause_binds (sources : List NamedSource) (projection : Option (List Expr)) :
    (projectionClause sources projection).Binds (boundInEach (projection.getD [])) := by
  match projection with
  | none => exact (Expr.row 0).emit_binds sources
  | some [] => exact .throw _ _
  | some (e :: es) => exact emitList_binds sources (e :: es)

theorem orderClause_binds (sources : List NamedSource) (terms : List OrderTerm) :
    (orderClause sources terms).Binds (terms.flatMap fun term => term.expr.boundValues) := by
  have hterm (term : OrderTerm) : (term.emit sources).Binds term.expr.boundValues := by
    cases term with
    | mk expr direction =>
        cases direction with
        | ascending => exact .around [] [] (expr.emit_binds sources) fun s => by simp
        | descending => exact .around [] " DESC".toList (expr.emit_binds sources) fun s => by simp
  cases terms with
  | nil => exact .pure []
  | cons term terms =>
      exact .joined ", " " ORDER BY ".toList [] [] [] (.forEach hterm (term :: terms))
        fun ts _ => by simp

theorem optionalClause_binds (keyword : String) (sources : List NamedSource) (e : Option Expr) :
    (optionalClause keyword sources e).Binds ((e.map Expr.boundValues).getD []) := by
  cases e with
  | none => exact .pure []
  | some e =>
      exact .around (' ' :: (keyword.toList ++ [' '])) [] (e.emit_binds sources)
        fun s => by simp

theorem Assignment.emit_binds (sources : List NamedSource) (a : Assignment) :
    (a.emit sources).Binds a.boundValues := by
  cases a with
  | set field value =>
      exact .around (quoteIdentifier field ++ " = ".toList) [] (value.emit_binds sources)
        fun s => by simp
  | increment field value =>
      exact .around
        (quoteIdentifier field ++ " = ".toList ++ quoteIdentifier field ++ " + ".toList) []
        (value.emitOperand_binds sources) fun s => by simp
  | push field value => exact .throw _ _
  | pull field value => exact .throw _ _

theorem Query.emitSelect_binds (q : Query) : q.emitSelect.Binds q.selectValues := by
  let sources := q.namedSources .select
  have hsource : (sourceClause sources).Binds q.source.boundValues := by
    refine .ofExcept fun primary hprimary => ?_
    have hs : q.source = primary.source := Option.some.inj (source_of_sourceAt hprimary)
    rw [hs]
    exact .around " FROM ".toList [] (primary.emit_binds sources) fun s => by simp
  have hjoins : (emitJoins sources 1 q.joins).Binds (q.joins.flatMap Join.boundValues) := by
    refine emitJoins_binds sources 1 q.joins fun k s join hs hk => ?_
    have hat := source_of_sourceAt hs
    simp only [Query.sources, Nat.add_comm 1 k, List.getElem?_cons_succ, List.getElem?_map,
      hk, Option.map_some, Option.some.injEq] at hat
    exact hat.symm
  have hclauses : (Emit.concat (q.selectClauses sources)).Binds q.selectValues :=
    .concat_cons (projectionClause_binds sources q.projection) <|
    .concat_cons hsource <|
    .concat_cons hjoins <|
    .concat_cons (filterClause_binds "WHERE" sources q.filters) <|
    .concat_cons (listClause_binds "GROUP BY" sources q.groups) <|
    .concat_cons (filterClause_binds "HAVING" sources q.groupFilters) <|
    .concat_cons (orderClause_binds sources q.ordering) <|
    .concat_cons (optionalClause_binds "LIMIT" sources q.limit) <|
    .concat_cons (optionalClause_binds "OFFSET" sources q.offset) .concat_nil
  refine .refuseIf (.ofExcept fun distinct _ => ?_)
  exact .around ("SELECT ".toList ++ distinct) [] hclauses fun s => by simp

theorem Query.emitUpdateAll_binds (q : Query) : q.emitUpdateAll.Binds q.updateValues := by
  let sources := q.namedSources .bulk
  have hassignments := Emit.BindsEach.forEach (Assignment.emit_binds sources) q.assignments
  have hfilters := filterClause_binds "WHERE" sources q.filters
  simp only [emitUpdateAll, bulkTarget, bind_assoc, pure_bind]
  refine .ofExcept fun _ _ => .refuseIf (.ofExcept fun primary _ => ?_)
  have hlist := Emit.Binds.joined ", " [] [] [] [] hassignments
    (f := Text.joined ", ") fun ts _ => by simp
  have hboth := Emit.Binds.pair ("UPDATE ".toList ++ primary.handle ++ " SET ".toList) [] []
    hlist hfilters
    (f := fun s t => "UPDATE ".toList ++ primary.handle ++ " SET ".toList ++ s ++ t)
    fun s t => by simp
  simp only [bind_assoc, pure_bind] at hboth
  exact hboth

theorem Query.emitDeleteAll_binds (q : Query) :
    q.emitDeleteAll.Binds (boundInEach q.filters) := by
  have hfilters := filterClause_binds "WHERE" (q.namedSources .bulk) q.filters
  simp only [emitDeleteAll, bulkTarget, bind_assoc, pure_bind]
  refine .ofExcept fun _ _ => .refuseIf (.ofExcept fun primary _ => ?_)
  exact .around ("DELETE FROM ".toList ++ primary.handle) [] hfilters fun s => by simp

/-- Numbering and order of bound values. An expression that is written from one
counter is written from every counter with the same pieces of text: the
placeholders between them are numbered on from the counter, and the values of
the expression are appended in their order. A compiled statement is such a text
numbered from `?1`, and its parameters are the values of its clauses in the
order of the text. -/
theorem values_bound_in_order :
    (∀ (sources : List NamedSource) (e : Expr) (p p' : Params) (s : Text),
      (e.emit sources).run p = .ok s p' →
        ∃ o : Outline, o.values = e.boundValues ∧
          ∀ i ps, (e.emit sources).run ⟨i, ps⟩ =
            .ok (o.sql i) ⟨i + e.boundValues.length, ps ++ e.boundValues⟩) ∧
    (∀ (q : Query) (c : Compiled), q.compileSelect = .ok c →
      ∃ o : Outline, q.emitSelect.Writes o ∧ o.values = q.selectValues ∧
        c.sql = String.ofList (o.sql 0) ∧ c.params = q.selectValues) ∧
    (∀ (q : Query) (c : Compiled), q.compileUpdateAll = .ok c →
      ∃ o : Outline, q.emitUpdateAll.Writes o ∧ o.values = q.updateValues ∧
        c.sql = String.ofList (o.sql 0) ∧ c.params = q.updateValues) ∧
    (∀ (q : Query) (c : Compiled), q.compileDeleteAll = .ok c →
      ∃ o : Outline, q.emitDeleteAll.Writes o ∧ o.values = boundInEach q.filters ∧
        c.sql = String.ofList (o.sql 0) ∧ c.params = boundInEach q.filters) := by
  refine ⟨fun sources e p p' s hok => ?_, fun q c hok => ?_, fun q c hok => ?_,
    fun q c hok => ?_⟩
  · obtain ⟨o, ho, hwrites⟩ := (e.emit_binds sources).writes_of_ok hok
    refine ⟨o, ho, fun i ps => ?_⟩
    rw [← ho]
    exact hwrites ⟨i, ps⟩
  · obtain ⟨o, ho, hwrites, rfl⟩ := q.emitSelect_binds.writes_of_compile hok
    exact ⟨o, hwrites, ho, rfl, rfl⟩
  · obtain ⟨o, ho, hwrites, rfl⟩ := q.emitUpdateAll_binds.writes_of_compile hok
    exact ⟨o, hwrites, ho, rfl, rfl⟩
  · obtain ⟨o, ho, hwrites, rfl⟩ := q.emitDeleteAll_binds.writes_of_compile hok
    exact ⟨o, hwrites, ho, rfl, rfl⟩

/-- A query with bound values in its projection, its sources, its filter and its limit. -/
def Query.bindingThroughout : Query where
  source := .fragment (.template "f(?)" [.param (.int 2)])
  joins := [.cross (.fragment (.template "g(?)" [.param (.int 3)]))]
  projection := some [.param (.int 1)]
  filters := [.inValues (.param (.int 4)) [.int 5, .int 6]]
  limit := some (.param (.int 7))

def Query.bindingFilter : Query where
  source := .table "m" none
  filters := [.eq (.field 0 "id") (.param (.int 9))]

theorem values_bound_in_samples :
    (∃ o : Outline, o.values = [.int 5, .int 6] ∧
      ∀ i ps, (Expr.emit [] (.eq (.param (.int 5)) (.param (.int 6)))).run ⟨i, ps⟩ =
        .ok (o.sql i) ⟨i + 2, ps ++ [.int 5, .int 6]⟩) ∧
    (∃ o : Outline, Query.bindingThroughout.emitSelect.Writes o ∧
      o.values = Query.bindingThroughout.selectValues ∧
      "SELECT ?1 FROM (f(?2)) AS f0 CROSS JOIN (g(?3)) AS f1 WHERE (?4 IN (?5, ?6)) LIMIT ?7" =
        String.ofList (o.sql 0) ∧
      [.int 1, .int 2, .int 3, .int 4, .int 5, .int 6, .int 7] =
        Query.bindingThroughout.selectValues) ∧
    (∃ o : Outline, (Query.bindingFilter.set "x" (.param (.int 8))).emitUpdateAll.Writes o ∧
      o.values = (Query.bindingFilter.set "x" (.param (.int 8))).updateValues ∧
      "UPDATE \"m\" SET \"x\" = ?1 WHERE (\"m\".\"id\" = ?2)" = String.ofList (o.sql 0) ∧
      [.int 8, .int 9] = (Query.bindingFilter.set "x" (.param (.int 8))).updateValues) ∧
    (∃ o : Outline, Query.bindingFilter.emitDeleteAll.Writes o ∧
      o.values = boundInEach Query.bindingFilter.filters ∧
      "DELETE FROM \"m\" WHERE (\"m\".\"id\" = ?1)" = String.ofList (o.sql 0) ∧
      [.int 9] = boundInEach Query.bindingFilter.filters) := by
  have hselect : Query.bindingThroughout.compileSelect = .ok
      ⟨"SELECT ?1 FROM (f(?2)) AS f0 CROSS JOIN (g(?3)) AS f1 WHERE (?4 IN (?5, ?6)) LIMIT ?7",
        [.int 1, .int 2, .int 3, .int 4, .int 5, .int 6, .int 7]⟩ := rfl
  have hupdate : (Query.bindingFilter.set "x" (.param (.int 8))).compileUpdateAll = .ok
      ⟨"UPDATE \"m\" SET \"x\" = ?1 WHERE (\"m\".\"id\" = ?2)", [.int 8, .int 9]⟩ := rfl
  have hdelete : Query.bindingFilter.compileDeleteAll = .ok
      ⟨"DELETE FROM \"m\" WHERE (\"m\".\"id\" = ?1)", [.int 9]⟩ := rfl
  exact ⟨values_bound_in_order.1 [] (.eq (.param (.int 5)) (.param (.int 6))) {} _ _ rfl,
    values_bound_in_order.2.1 _ _ hselect, values_bound_in_order.2.2.1 _ _ hupdate,
    values_bound_in_order.2.2.2 _ _ hdelete⟩

end LiteSql
