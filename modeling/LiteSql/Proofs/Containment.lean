import LiteSql.Proofs.CalmExpr
import LiteSql.Proofs.RowSplitting
import LiteSql.Statement.Bulk

/-!
# Names and values stay inside of their tokens

Outside of quotes, a compiled statement has the placeholders of its parameters in
order and no other question mark, no semicolon and nothing that opens a comment,
whatever its names and its values are. Every clause is calm, and it numbers its
placeholders on from the clause before it.
-/

namespace LiteSql

/-- A part of a statement that may follow a placeholder. -/
def Follows (i : Nat) (s : Text) (vs : List Value) : Prop :=
  Contained i s vs ∧ ∀ c ∈ s.head?, c.isDigit = false

namespace Follows

theorem nil (i : Nat) : Follows i [] [] :=
  ⟨.of_calm .nil i, by simp⟩

theorem append {i : Nat} {s t : Text} {vs ws : List Value} (hs : Follows i s vs)
    (ht : Follows (i + vs.length) t ws) : Follows i (s ++ t) (vs ++ ws) := by
  refine ⟨hs.1.append ht.1 ht.2, ?_⟩
  cases s with
  | nil => exact ht.2
  | cons c s => exact hs.2

theorem led {i : Nat} {s w : Text} {vs : List Value} (hw : Separator w) (hs : Contained i s vs) :
    Follows i (w ++ s) vs :=
  ⟨hs.after hw.calm, hw.head?_append s⟩

end Follows

theorem separator_keyword {keyword : String} (h : keyword.toList.all isPlainChar) :
    Separator (' ' :: (keyword.toList ++ [' '])) := by
  refine .plain ?_ rfl
  rw [List.all_cons, List.all_append, h]
  rfl

theorem listClause_follows {sources : List NamedSource} (hsources : ∀ s ∈ sources, s.Tidy)
    {keyword : String} (hkeyword : keyword.toList.all isPlainChar) {es : List Expr}
    (h : ∀ node ∈ nodesOfEach es, node.IsPlain) :
    (listClause keyword sources es).Ensures Follows := by
  cases es with
  | nil => exact .pure .nil
  | cons e es =>
      refine (emitList_contained hsources h).map fun i s vs hs => ?_
      have hled := Follows.led (separator_keyword hkeyword) hs
      simpa using hled

theorem filterClause_follows {sources : List NamedSource} (hsources : ∀ s ∈ sources, s.Tidy)
    {keyword : String} (hkeyword : keyword.toList.all isPlainChar) {filters : List Expr}
    (h : ∀ node ∈ nodesOfEach filters, node.IsPlain) :
    (filterClause keyword sources filters).Ensures Follows := by
  cases filters with
  | nil => exact .pure .nil
  | cons e es =>
      refine (emitEach_contained hsources (e :: es) h).map fun i ss vs hss => ?_
      have hparts := hss.map fun _ _ _ _ hs => hs.parenthesized
      have hled := Follows.led (separator_keyword hkeyword) (.joined separator_and hparts)
      simpa using hled

theorem optionalClause_follows {sources : List NamedSource} (hsources : ∀ s ∈ sources, s.Tidy)
    {keyword : String} (hkeyword : keyword.toList.all isPlainChar) {expr : Option Expr}
    (h : ∀ node ∈ nodesOfEach expr.toList, node.IsPlain) :
    (optionalClause keyword sources expr).Ensures Follows := by
  cases expr with
  | none => exact .pure .nil
  | some e =>
      rw [Option.toList_some, nodesOfEach, List.forall_mem_append] at h
      refine (e.emit_contained hsources h.1).map fun i s vs hs => ?_
      have hled := Follows.led (separator_keyword hkeyword) hs
      simpa using hled

theorem orderClause_follows {sources : List NamedSource} (hsources : ∀ s ∈ sources, s.Tidy)
    {terms : List OrderTerm} (h : ∀ node ∈ terms.flatMap OrderTerm.nodes, node.IsPlain) :
    (orderClause sources terms).Ensures Follows := by
  have hword : Separator " ORDER BY ".toList := .plain (by decide) rfl
  have hdesc : Separator " DESC".toList := .plain (by decide) rfl
  have hterm : ∀ term ∈ terms, (term.emit sources).Ensures Contained := by
    intro term hmem
    have hnodes : ∀ node ∈ term.expr.nodes, node.IsPlain := fun node hnode =>
      h node (List.mem_flatMap.mpr ⟨term, hmem, hnode⟩)
    refine (term.expr.emit_contained hsources hnodes).map fun i s vs hs => ?_
    cases term.direction with
    | ascending => exact hs
    | descending => exact hs.before hdesc
  cases terms with
  | nil => exact .pure .nil
  | cons term terms =>
      exact (Emit.Ensures.forEach hterm).map fun i ss vs hss =>
        .led hword (.joined separator_comma hss)

theorem NamedSource.Tidy.emit_contained {sources : List NamedSource} {s : NamedSource}
    (hs : s.Tidy) (htable : s.IsTable) : (s.emit sources).Ensures Contained := by
  have has : Calm " AS ".toList [] := .plain (by decide)
  unfold NamedSource.emit
  split
  · rename_i name fields hsource
    have hname : Calm (s.table.getD (quoteIdentifier name)) [] := by
      cases hquoted : s.table with
      | none => exact .quoteIdentifier name
      | some t => exact hs.table t hquoted
    exact .pure fun i => .of_calm ((hname.append_plain has).append_plain hs.handle) i
  · rename_i body hsource
    exact absurd hsource (htable body)

theorem Calm.condition {joined owner : NamedSource} (hjoined : joined.Tidy) (howner : owner.Tidy)
    (a : Association) : Calm (a.condition joined owner) [] := by
  have hequals : Calm " = ".toList [] := .plain (by decide)
  unfold Association.condition
  split
  · exact ((Calm.column hjoined _).append_plain hequals).append_plain (.column howner _)
  · exact ((Calm.column hjoined _).append_plain hequals).append_plain (.column howner _)
  · exact ((Calm.column hjoined _).append_plain hequals).append_plain (.column howner _)

theorem JoinKind.separator_keyword {kind : JoinKind} {keyword : String}
    (h : kind.keyword = .ok keyword) : Separator (' ' :: (keyword.toList ++ [' '])) := by
  cases kind <;> cases h <;> exact .plain (by decide) rfl

theorem Join.emit_follows {sources : List NamedSource} (hsources : ∀ s ∈ sources, s.Tidy)
    (htables : ∀ s ∈ sources, s.IsTable) (position : Nat) {join : Join} (h : ∀ node ∈ join.nodes, node.IsPlain) :
    (join.emit sources position).Ensures Follows := by
  have hon : Separator " ON ".toList := .plain (by decide) rfl
  have hcross : Separator " CROSS JOIN ".toList := .plain (by decide) rfl
  have hinner : Separator " INNER JOIN ".toList := .plain (by decide) rfl
  refine .ofExcept_bind fun joined hjoined => ?_
  have htidy := hsources joined (mem_of_sourceAt hjoined)
  have hsource : (joined.emit sources).Ensures Contained :=
    htidy.emit_contained (htables joined (mem_of_sourceAt hjoined))
  cases join with
  | conditional kind source condition =>
      rw [Join.nodes, List.forall_mem_append] at h
      refine .ofExcept_bind fun keyword hkeyword => ?_
      refine hsource.map₂ (condition.emit_contained hsources h.2)
        fun i s vs t ws hs ht => ?_
      have hled := Follows.led (JoinKind.separator_keyword hkeyword) (hs.separated hon ht)
      simpa using hled
  | cross source => exact hsource.map fun i s vs hs => .led hcross hs
  | associated source association =>
      refine .refuseIf_bind fun _ => .ofExcept_bind fun owner howner => ?_
      have hcondition := Calm.condition htidy (hsources owner (mem_of_sourceAt howner)) association
      refine hsource.map fun i s vs hs => ?_
      have hall := Follows.led hinner (hs.separated hon (.of_calm hcondition _))
      simpa using hall

theorem emitJoins_follows {sources : List NamedSource} (hsources : ∀ s ∈ sources, s.Tidy)
    (htables : ∀ s ∈ sources, s.IsTable) (position : Nat) {joins : List Join} (h : ∀ node ∈ joins.flatMap Join.nodes, node.IsPlain) :
    (emitJoins sources position joins).Ensures Follows := by
  induction joins generalizing position with
  | nil => exact .pure .nil
  | cons join joins ih =>
      rw [List.flatMap_cons, List.forall_mem_append] at h
      exact (Join.emit_follows hsources htables position h.1).map₂ (ih (position + 1) h.2)
        fun _ _ _ _ _ hfirst hrest => hfirst.append hrest

theorem projectionClause_contained {sources : List NamedSource}
    (hsources : ∀ s ∈ sources, s.Tidy) {projection : Option (List Expr)}
    (h : ∀ node ∈ nodesOfEach (projection.getD []), node.IsPlain) :
    (projectionClause sources projection).Ensures Contained := by
  cases projection with
  | none => exact (Expr.row 0).emit_contained hsources (by simp [Expr.nodes, Node.IsPlain])
  | some es =>
      cases es with
      | nil => exact .throw _
      | cons e es => exact emitList_contained hsources h

theorem sourceClause_follows {sources : List NamedSource} (hsources : ∀ s ∈ sources, s.Tidy)
    (htables : ∀ s ∈ sources, s.IsTable) : (sourceClause sources).Ensures Follows := by
  have hfrom : Separator " FROM ".toList := .plain (by decide) rfl
  refine .ofExcept_bind fun primary hprimary => ?_
  have hmem := mem_of_sourceAt hprimary
  exact ((hsources primary hmem).emit_contained (htables primary hmem)).map fun i s vs hs => .led hfrom hs

/-- No part of the query brings raw SQL into a text. -/
structure Query.IsPlain (q : Query) : Prop where
  projection : ∀ node ∈ nodesOfEach (q.projection.getD []), node.IsPlain
  assignments : ∀ node ∈ q.assignments.flatMap Assignment.nodes, node.IsPlain
  source : ∀ node ∈ q.source.nodes, node.IsPlain
  joins : ∀ node ∈ q.joins.flatMap Join.nodes, node.IsPlain
  filters : ∀ node ∈ nodesOfEach q.filters, node.IsPlain
  groups : ∀ node ∈ nodesOfEach q.groups, node.IsPlain
  groupFilters : ∀ node ∈ nodesOfEach q.groupFilters, node.IsPlain
  ordering : ∀ node ∈ q.ordering.flatMap OrderTerm.nodes, node.IsPlain
  limit : ∀ node ∈ nodesOfEach q.limit.toList, node.IsPlain
  offset : ∀ node ∈ nodesOfEach q.offset.toList, node.IsPlain

theorem Query.isPlain_of_nodes {q : Query} (h : ∀ node ∈ q.nodes, node.IsPlain) : q.IsPlain := by
  simp only [Query.nodes, Query.clauseNodes, List.forall_mem_append] at h
  obtain ⟨⟨⟨projection, -⟩, assignments⟩, ⟨⟨⟨⟨⟨⟨source, joins⟩, filters⟩, groups⟩,
    groupFilters⟩, ordering⟩, limit⟩, offset⟩ := h
  exact ⟨projection, assignments, source, joins, filters, groups, groupFilters, ordering,
    limit, offset⟩

theorem Join.nodes_source {join : Join} {node : Node} (h : node ∈ join.source.nodes) :
    node ∈ join.nodes := by
  cases join with
  | conditional kind source condition => exact List.mem_append_left _ h
  | cross source => exact h
  | associated source association => exact h

theorem Query.IsPlain.isTable {q : Query} (hq : q.IsPlain) (mode : NameMode) :
    ∀ s ∈ q.namedSources mode, s.IsTable := by
  intro s hs
  obtain ⟨source, hsource, k, rfl⟩ := mem_nameSources hs
  have hnodes : ∀ node ∈ source.nodes, node.IsPlain := by
    rcases List.mem_cons.mp hsource with rfl | hjoined
    · exact hq.source
    · obtain ⟨join, hjoin, rfl⟩ := List.mem_map.mp hjoined
      intro node hnode
      exact hq.joins node (List.mem_flatMap.mpr ⟨join, hjoin, Join.nodes_source hnode⟩)
  intro body hbody
  cases source with
  | fragment body => exact body.not_isPlain hnodes
  | table name fields => cases hbody

theorem Calm.distinctText {distinct : Option Distinct} {s : Text}
    (h : distinctText distinct = .ok s) : Calm s [] := by
  unfold LiteSql.distinctText at h
  split at h
  · cases h
    exact .nil
  · rename_i on?
    cases h
    cases on? with
    | false => exact .nil
    | true => exact .plain (by decide)
  · cases h
    exact .nil
  · cases h

theorem Query.IsPlain.emitSelect_contained {q : Query} (hq : q.IsPlain) :
    q.emitSelect.Ensures Contained := by
  have hsources := q.namedSources_tidy .select
  have htables := hq.isTable .select
  have hword : Calm "SELECT ".toList [] := .plain (by decide)
  -- The projection follows the keyword; all other clauses may follow a placeholder.
  have htail : (Emit.concat (q.selectClauses (q.namedSources .select)).tail).Ensures Follows := by
    refine .concat .nil (fun _ _ _ _ _ hs ht => hs.append ht) ?_
    simp only [Query.selectClauses, List.tail_cons, List.forall_mem_cons, List.not_mem_nil,
      false_implies, implies_true, and_true]
    exact ⟨sourceClause_follows hsources htables, emitJoins_follows hsources htables 1 hq.joins,
      filterClause_follows hsources (by decide) hq.filters,
      listClause_follows hsources (by decide) hq.groups,
      filterClause_follows hsources (by decide) hq.groupFilters,
      orderClause_follows hsources hq.ordering,
      optionalClause_follows hsources (by decide) hq.limit,
      optionalClause_follows hsources (by decide) hq.offset⟩
  have hclauses : (Emit.concat (q.selectClauses (q.namedSources .select))).Ensures Contained :=
    (projectionClause_contained hsources hq.projection).map₂ htail
      fun _ _ _ _ _ hs ht => hs.append ht.1 ht.2
  refine .refuseIf_bind fun _ => .ofExcept_bind fun distinct hdistinct => ?_
  exact hclauses.map fun i s vs hs => hs.after (hword.append_plain (.distinctText hdistinct))

theorem Assignment.emit_contained {sources : List NamedSource} (hsources : ∀ s ∈ sources, s.Tidy)
    {a : Assignment} (h : ∀ node ∈ a.nodes, node.IsPlain) : (a.emit sources).Ensures Contained := by
  have hequals : Calm " = ".toList [] := .plain (by decide)
  have hplus : Calm " + ".toList [] := .plain (by decide)
  cases a with
  | set field value =>
      have hleft := (Calm.quoteIdentifier field).append_plain hequals
      exact (value.emit_contained hsources h).map fun i s vs hs => hs.after hleft
  | increment field value =>
      have hleft := ((Calm.quoteIdentifier field).append_plain hequals).append_plain
        ((Calm.quoteIdentifier field).append_plain hplus)
      have hvalue : (value.emitOperand sources).Ensures Contained :=
        (value.emit_contained hsources h).map fun i s vs hs => hs.asOperand value
      refine hvalue.map fun i s vs hs => ?_
      simpa using hs.after hleft
  | push field value => exact .throw _
  | pull field value => exact .throw _

theorem Query.IsPlain.emitUpdateAll_contained {q : Query} (hq : q.IsPlain) :
    q.emitUpdateAll.Ensures Contained := by
  have hsources := q.namedSources_tidy .bulk
  have hword : Calm "UPDATE ".toList [] := .plain (by decide)
  have hset : Calm " SET ".toList [] := .plain (by decide)
  have hassignments : (Emit.forEach (Assignment.emit (q.namedSources .bulk)) q.assignments).Ensures
      (Emit.Each (fun _ => Contained) q.assignments) :=
    .forEach fun a ha => Assignment.emit_contained hsources fun node hnode =>
      hq.assignments node (List.mem_flatMap.mpr ⟨a, ha, hnode⟩)
  have hfilters : (filterClause "WHERE" (q.namedSources .bulk) q.filters).Ensures Follows :=
    filterClause_follows hsources (by decide) hq.filters
  simp only [emitUpdateAll, bulkTarget, bind_assoc, pure_bind]
  refine .ofExcept_bind fun _ _ => .refuseIf_bind fun _ => .ofExcept_bind fun primary hprimary => ?_
  have hlead := (hword.append_plain (hsources primary (mem_of_sourceAt hprimary)).handle).append_plain
    hset
  refine hassignments.map₂ hfilters fun i ss vs t ws hss ht => ?_
  exact ((Contained.joined separator_comma hss).after hlead).append ht.1 ht.2

theorem Query.IsPlain.emitDeleteAll_contained {q : Query} (hq : q.IsPlain) :
    q.emitDeleteAll.Ensures Contained := by
  have hsources := q.namedSources_tidy .bulk
  have hword : Calm "DELETE FROM ".toList [] := .plain (by decide)
  have hfilters : (filterClause "WHERE" (q.namedSources .bulk) q.filters).Ensures Follows :=
    filterClause_follows hsources (by decide) hq.filters
  simp only [emitDeleteAll, bulkTarget, bind_assoc, pure_bind]
  refine .ofExcept_bind fun _ _ => .refuseIf_bind fun _ => .ofExcept_bind fun primary hprimary => ?_
  have hlead := hword.append_plain (hsources primary (mem_of_sourceAt hprimary)).handle
  exact hfilters.map fun i s vs hs => hs.1.after hlead

theorem each_placeholders (row : List ColumnValue) (i : Nat) :
    Emit.Each (fun _ => Contained) row i
      ((List.range' (i + 1) row.length).map placeholder) (columnValues row) := by
  induction row generalizing i with
  | nil => exact .nil i
  | cons column row ih =>
      change Emit.Each _ _ i (placeholder (i + 1) :: _) ([column.2] ++ columnValues row)
      exact .cons (Contained.placeholder column.2 i) (ih (i + 1))

theorem each_equations (row : List ColumnValue) (i : Nat) :
    Emit.Each (fun _ => Contained) row i (equations (i + 1) (columnNames row))
      (columnValues row) := by
  have hequals : Calm " = ".toList [] := .plain (by decide)
  induction row generalizing i with
  | nil => exact .nil i
  | cons column row ih =>
      have hleft := (Calm.quoteIdentifier column.1).append_plain hequals
      change Emit.Each _ _ i (_ :: equations (i + 1 + 1) (columnNames row))
        ([column.2] ++ columnValues row)
      exact .cons ((Contained.placeholder column.2 i).after hleft) (ih (i + 1))

theorem contained_insertBody (fields : List ColumnValue) :
    Contained 0 (insertBody 1 (columnNames fields)) (columnValues fields) := by
  cases fields with
  | nil =>
      have hdefault : Calm " DEFAULT VALUES".toList [] := .plain (by decide)
      exact .of_calm hdefault 0
  | cons column fields =>
      have hblank : Calm [' '] [] := .plain (by decide)
      have hvalues : Separator " VALUES ".toList := .plain (by decide) rfl
      have hnames : Contained 0 (quoteIdentifiers ", " (columnNames (column :: fields))) [] :=
        .joined separator_comma (Contained.each_of_calm .quoteIdentifier _ 0)
      have hmarks := Contained.joined separator_comma (each_placeholders (column :: fields) 0)
      have hboth := (hnames.parenthesized.separated hvalues hmarks.parenthesized).after hblank
      have hne : columnNames (column :: fields) ≠ [] := List.cons_ne_nil _ _
      have hlength : (columnNames (column :: fields)).length = (column :: fields).length :=
        List.length_map _
      rw [insertBody_of_ne_nil hne, hlength, List.append_assoc]
      exact hboth

theorem RowStatement.contained_front (st : RowStatement) : Contained 0 st.front st.values := by
  have hwhere : Separator " WHERE ".toList := .plain (by decide) rfl
  have hfilters (row : List ColumnValue) (i : Nat) :=
    Contained.joined separator_and (each_equations row i)
  cases st with
  | insert table fields =>
      have hlead : Calm "INSERT INTO ".toList [] := .plain (by decide)
      exact (contained_insertBody fields).after (hlead.append_plain (.quote table))
  | update table fields filters =>
      have hlead : Calm "UPDATE ".toList [] := .plain (by decide)
      have hset : Calm " SET ".toList [] := .plain (by decide)
      have hfields := Contained.joined separator_comma (each_equations fields 0)
      have hlength : 0 + (columnValues fields).length = fields.length := by
        simp [columnValues]
      have hall := (hfields.separated hwhere (hfilters filters _)).after
        ((hlead.append_plain (.quote table)).append_plain hset)
      rw [hlength] at hall
      simpa only [front_update, values, List.append_assoc] using hall
  | delete table filters =>
      have hlead : Calm "DELETE FROM ".toList [] := .plain (by decide)
      have hfront := (hlead.append_plain (.quote table)).append_plain hwhere.calm
      exact (hfilters filters 0).after hfront

theorem RowStatement.contained {st : RowStatement} {c : Compiled} (hc : st.compile [] = .ok c) :
    Contained 0 c.sql.toList c.params := by
  obtain ⟨-, rfl⟩ := compile_eq_ok_iff.mp hc
  rw [st.compiled_nil, String.toList_ofList]
  exact st.contained_front

/-- Outside of quotes, the statement has the placeholders of its parameters in order
and no other question mark, no semicolon and nothing that opens a comment. -/
structure Compiled.IsSealed (c : Compiled) : Prop where
  quotes_closed : quoteAfter none c.sql.toList = none
  placeholders_eq : placeholderNumbers (visible none c.sql.toList) =
    (List.range' 1 c.params.length).map Text.digits
  no_semicolon : ';' ∉ visible none c.sql.toList
  no_line_comment : ¬ "--".toList <:+: visible none c.sql.toList
  no_block_comment : ¬ "/*".toList <:+: visible none c.sql.toList

theorem Contained.isSealed {c : Compiled} (h : Contained 0 c.sql.toList c.params) : c.IsSealed := by
  refine ⟨h.closed, h.numbers_eq, h.no_semicolon, ?_, ?_⟩
  · intro hdashes
    have hpair := List.IsChain.infix h.no_comment hdashes
    exact (List.isChain_pair.mp hpair).1 ⟨rfl, rfl⟩
  · intro hslash
    have hpair := List.IsChain.infix h.no_comment hslash
    exact (List.isChain_pair.mp hpair).2 ⟨rfl, rfl⟩

/-- Whatever names and values a statement is made of, the only tokens that they
leave outside of quotes are the placeholders `?1` to `?n` of its parameters. This
holds for queries without raw SQL and for statements on one row without a hint. -/
theorem compiled_isSealed :
    (∀ q : Query, (∀ node ∈ q.nodes, node.IsPlain) → ∀ c : Compiled,
      q.compileSelect = .ok c ∨ q.compileUpdateAll = .ok c ∨ q.compileDeleteAll = .ok c →
        c.IsSealed) ∧
    ∀ (st : RowStatement) (c : Compiled), st.compile [] = .ok c → c.IsSealed := by
  constructor
  · intro q h c hc
    have hq := Query.isPlain_of_nodes h
    apply Contained.isSealed
    rcases hc with hc | hc | hc
    · exact hq.emitSelect_contained.of_compile hc
    · exact hq.emitUpdateAll_contained.of_compile hc
    · exact hq.emitDeleteAll_contained.of_compile hc
  · intro st c hc
    exact (RowStatement.contained hc).isSealed

/-- A query with marks, semicolons and comments in its names and strings. -/
def Query.ofHostileNames : Query where
  source := .table "m\"?1;" none
  filters := [.eq (.field 0 "a--\"") (.literal (.string "it's ?2; /*")),
    .gt (.binary .sub (.param (.int 7)) (.literal (.int (-5)))) (.function "abs" [.param (.int 8)])]

theorem compiled_isSealed_in_samples :
    (∃ c, (Query.ofHostileNames.select [.field 0 "id"]).compileSelect = .ok c ∧
      c.params = [.int 7, .int 8] ∧ c.IsSealed) ∧
    (∃ c, (Query.ofHostileNames.set "x'" (.param (.int 6))).compileUpdateAll = .ok c ∧
      c.params = [.int 6, .int 7, .int 8] ∧ c.IsSealed) ∧
    (∃ c, Query.ofHostileNames.compileDeleteAll = .ok c ∧
      c.params = [.int 7, .int 8] ∧ c.IsSealed) ∧
    ∃ c, compileInsert ⟨none, "m\"?1;"⟩ [("'?", .int 1), ("b--", .int 2)] [] = .ok c ∧
      c.IsSealed := by
  have hfilters : ∀ node ∈ nodesOfEach Query.ofHostileNames.filters, node.IsPlain := by
    simp [Query.ofHostileNames, nodesOfEach, Expr.eq, Expr.gt, Expr.function, Expr.nodes,
      Node.IsPlain]
  obtain ⟨select, hselect, hselected⟩ :
      ∃ c, (Query.ofHostileNames.select [.field 0 "id"]).compileSelect = .ok c ∧
        c.params = [.int 7, .int 8] := ⟨_, rfl, rfl⟩
  obtain ⟨update, hupdate, hupdated⟩ :
      ∃ c, (Query.ofHostileNames.set "x'" (.param (.int 6))).compileUpdateAll = .ok c ∧
        c.params = [.int 6, .int 7, .int 8] := ⟨_, rfl, rfl⟩
  obtain ⟨delete, hdelete, hdeleted⟩ :
      ∃ c, Query.ofHostileNames.compileDeleteAll = .ok c ∧
        c.params = [.int 7, .int 8] := ⟨_, rfl, rfl⟩
  let st : RowStatement := .insert ⟨none, "m\"?1;"⟩ [("'?", .int 1), ("b--", .int 2)]
  obtain ⟨insert, hinsert⟩ : ∃ c, st.compile [] = .ok c := ⟨_, rfl⟩
  refine ⟨⟨select, hselect, hselected, compiled_isSealed.1 _ ?_ _ (.inl hselect)⟩,
    ⟨update, hupdate, hupdated, compiled_isSealed.1 _ ?_ _ (.inr (.inl hupdate))⟩,
    ⟨delete, hdelete, hdeleted, compiled_isSealed.1 _ ?_ _ (.inr (.inr hdelete))⟩,
    ⟨insert, hinsert, compiled_isSealed.2 st insert hinsert⟩⟩
  · simpa [Query.nodes, Query.clauseNodes, Query.select, Query.ofHostileNames, Source.nodes,
      nodesOfEach, Expr.nodes, Node.IsPlain] using hfilters
  · simpa [Query.nodes, Query.clauseNodes, Query.set, Query.assign, Query.ofHostileNames,
      Source.nodes, Assignment.nodes, nodesOfEach, Expr.nodes, Node.IsPlain] using hfilters
  · simpa [Query.nodes, Query.clauseNodes, Query.ofHostileNames, Source.nodes,
      nodesOfEach] using hfilters

end LiteSql
