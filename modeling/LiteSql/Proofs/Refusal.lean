import LiteSql.Proofs.FirstError
import LiteSql.Statement.Select

/-!
# What a query is refused for

A query is written as a SELECT unless something in it cannot be, and then the first
such thing is reported. `violations` lists all of them in the order of the text,
without stopping at the first one: the check of a node comes before its parts, and
an argument of a fragment comes at its splice point. That a step reports its list is
proved for each part of a statement from its smaller parts.
-/

namespace LiteSql

namespace Template

/-- The number of question marks that no backslash stands right before;
`previous` is the character before the text. -/
def splicesAfter (previous : Option Char) : Text → Nat
  | [] => 0
  | c :: rest =>
    (if c = '?' ∧ previous ≠ some '\\' then 1 else 0) + splicesAfter (some c) rest

def spliceCount (template : String) : Nat :=
  splicesAfter none template.toList

/-- Cutting stops at the first splice point. -/
theorem splicesAfter_eq_cut (previous : Option Char) {rest : Text}
    (h : rest.head? = some '?' → previous ≠ some '\\') :
    splicesAfter previous rest =
      match (cut rest).2 with
      | none => 0
      | some after => splicesAfter (some '?') after + 1 := by
  fun_induction cut rest generalizing previous with
  | case1 => rfl
  | case2 rest before after hcut ih =>
      have hrest := ih (some '?') (by simp)
      rw [hcut] at hrest
      simpa [splicesAfter] using hrest
  | case3 rest =>
      have hprevious := h rfl
      simp [splicesAfter, hprevious, Nat.add_comm]
  | case4 c rest hescape hmark before after hcut ih =>
      have hrest := ih (some c) fun hhead heq => by
        obtain ⟨t, rfl⟩ := List.head?_eq_some_iff.mp hhead
        exact hescape t (Option.some.inj heq) rfl
      rw [hcut] at hrest
      have hc : c ≠ '?' := hmark
      simpa [splicesAfter, hc] using hrest

end Template

/-- The violation of a reference to the source at `index`. -/
def Query.indexViolations (q : Query) (index : Nat) : List Error :=
  if index < 1 + q.joins.length then []
  else [.invalid (.danglingSource index (1 + q.joins.length))]

/-- The violation of the whole row of the source at `index`. -/
def Query.rowViolations (q : Query) (index : Nat) : List Error :=
  match q.sources[index]? with
  | none => [.invalid (.danglingSource index (1 + q.joins.length))]
  | some (.table _ (some _)) => []
  | some (.table name none) => [.schemaRequired (QualifiedName.quote ⟨q.schema, name⟩)]
  | some (.fragment _) => [.schemaRequired ('f' :: Text.digits index)]

mutual

def Expr.violations (q : Query) : Expr → List Error
  | .field source _ => q.indexViolations source.toNat
  | .row source => q.rowViolations source.toNat
  | .literal _ | .param _ => []
  | .binary _ left right => left.violations q ++ right.violations q
  | .not inner | .isNull inner => inner.violations q
  | .cast inner target =>
    (if target.isArray then [.unsupported .arrayType] else []) ++ inner.violations q
  | .isIn left right => left.violations q ++ right.violations q
  | .fragment body => body.violations q
  | .call _ args _ => violationsOfEach q args

def InList.violations (q : Query) : InList → List Error
  | .exprs items => violationsOfEach q items
  | .params _ => []
  | .fragment body => body.violations q

def Fragment.violations (q : Query) : Fragment → List Error
  | .template sql args => spliceViolations q sql (Template.spliceCount sql) args
  | .keyword _ => [.unsupported .keywordArguments]

/-- The violations of the arguments at `n` splice points. An argument that is
missing is reported at its splice point, and one too many after the last of them. -/
def spliceViolations (q : Query) (template : String) : Nat → List Expr → List Error
  | 0, [] => []
  | _ + 1, [] => [.invalid (.missingArgument template)]
  | 0, _ :: _ => [.invalid (.surplusArgument template)]
  | n + 1, arg :: args => arg.violations q ++ spliceViolations q template n args

def violationsOfEach (q : Query) : List Expr → List Error
  | [] => []
  | e :: es => e.violations q ++ violationsOfEach q es

end

def Source.violations (q : Query) : Source → List Error
  | .table _ _ => []
  | .fragment body => body.violations q

/-- The violations of the join whose source is at `position`. -/
def Join.violations (q : Query) (position : Nat) : Join → List Error
  | .conditional kind source condition =>
    (if kind = .right ∨ kind = .full then [.unsupported .outerJoin] else []) ++
      source.violations q ++ condition.violations q
  | .cross source => source.violations q
  | .associated source association =>
    (if association.owner.toNat < position then []
      else [.invalid (.ownerNotJoined association.owner.toNat position)]) ++ source.violations q

def joinViolations (q : Query) : Nat → List Join → List Error
  | _, [] => []
  | position, join :: joins => join.violations q position ++ joinViolations q (position + 1) joins

def Distinct.violations : Distinct → List Error
  | .exprs (_ :: _) => [.unsupported .distinctColumns]
  | _ => []

def projectionViolations (q : Query) : Option (List Expr) → List Error
  | none => (Expr.row 0).violations q
  | some [] => [.invalid .emptyProjection]
  | some exprs => violationsOfEach q exprs

/-- All that keeps a query from being written as a SELECT, in the order of the text. -/
def Query.selectViolations (q : Query) : List Error :=
  (if q.lock.isSome then [.unsupported .lock] else []) ++
  ((q.distinct.map Distinct.violations).getD [] ++
  [projectionViolations q q.projection,
    q.source.violations q,
    joinViolations q 1 q.joins,
    violationsOfEach q q.filters,
    violationsOfEach q q.groups,
    violationsOfEach q q.groupFilters,
    q.ordering.flatMap fun term => term.expr.violations q,
    violationsOfEach q q.limit.toList,
    violationsOfEach q q.offset.toList].flatten)

theorem Query.length_sources (q : Query) : q.sources.length = 1 + q.joins.length := by
  simp [Query.sources, Nat.add_comm]

theorem getElem?_nameSources_eq (schema : Option String) (mode : NameMode) (position k : Nat)
    (ss : List Source) :
    (nameSources schema mode position ss)[k]? =
      ss[k]?.map fun s => s.named schema mode (position + k) := by
  induction ss generalizing position k with
  | nil => rfl
  | cons s ss ih =>
      cases k with
      | zero => simp [nameSources]
      | succ k => simpa [nameSources, Nat.add_assoc, Nat.add_comm 1 k] using ih (position + 1) k

theorem length_nameSources (schema : Option String) (mode : NameMode) (position : Nat)
    (ss : List Source) : (nameSources schema mode position ss).length = ss.length := by
  induction ss generalizing position with
  | nil => rfl
  | cons s ss ih => simp [nameSources, ih]

theorem sourceAt_eq_ok {q : Query} {k : Nat} {s : Source} (mode : NameMode)
    (h : q.sources[k]? = some s) :
    sourceAt (q.namedSources mode) k = .ok (s.named q.schema mode k) := by
  simp [sourceAt, Query.namedSources, getElem?_nameSources_eq, h]

theorem sourceAt_eq_error {q : Query} {k : Nat} (mode : NameMode) (h : q.sources[k]? = none) :
    sourceAt (q.namedSources mode) k = .error (.invalid (.danglingSource k (1 + q.joins.length))) := by
  simp [sourceAt, Query.namedSources, getElem?_nameSources_eq, h, length_nameSources,
    Query.length_sources]

theorem Source.source_named (source : Source) (schema : Option String) (mode : NameMode)
    (position : Nat) : (source.named schema mode position).source = source := by
  cases source <;> rfl

/-- What is found at a position is the source there, named for this position. -/
theorem exists_source_of_sourceAt {q : Query} {mode : NameMode} {k : Nat} {s : NamedSource}
    (h : sourceAt (q.namedSources mode) k = .ok s) :
    ∃ source, q.sources[k]? = some source ∧ s = source.named q.schema mode k := by
  cases hs : q.sources[k]? with
  | none =>
      rw [sourceAt_eq_error mode hs] at h
      cases h
  | some source =>
      rw [sourceAt_eq_ok mode hs] at h
      cases h
      exact ⟨source, rfl, rfl⟩

/-- Naming keeps every source in its place. -/
theorem source_of_sourceAt {q : Query} {mode : NameMode} {k : Nat} {s : NamedSource}
    (h : sourceAt (q.namedSources mode) k = .ok s) : q.sources[k]? = some s.source := by
  obtain ⟨source, hsource, rfl⟩ := exists_source_of_sourceAt h
  rw [hsource, Source.source_named]

theorem reports_sourceAt (q : Query) (mode : NameMode) (k : Nat) :
    (Emit.ofExcept (sourceAt (q.namedSources mode) k)).Reports (q.indexViolations k) := by
  unfold Query.indexViolations
  split
  · rename_i hlt
    rw [← q.length_sources] at hlt
    exact .ofExcept (.of_ok (sourceAt_eq_ok mode (List.getElem?_eq_getElem hlt)))
  · rename_i hge
    rw [← q.length_sources, Nat.not_lt] at hge
    exact .ofExcept (.of_error (sourceAt_eq_error mode (List.getElem?_eq_none hge)) [])

theorem reports_row (q : Query) (mode : NameMode) (k : Nat) :
    Emit.Reports (do
      let s ← Emit.ofExcept (sourceAt (q.namedSources mode) k)
      Emit.ofExcept s.row) (q.rowViolations k) := by
  unfold Query.rowViolations
  cases hs : q.sources[k]? with
  | none =>
      have hsource := Reflects.of_error (sourceAt_eq_error mode hs) []
      exact (Emit.Reports.ofExcept hsource).stop _ []
  | some s =>
      rw [sourceAt_eq_ok mode hs]
      cases s with
      | fragment body => exact .ofExcept (.error _ [])
      | table name fields =>
          cases fields with
          | none => exact .ofExcept (.error _ [])
          | some fields => exact .ofExcept (.ok _)

theorem ColumnType.exists_castTarget {type : ColumnType} (h : type.isArray = false) :
    ∃ s, type.castTarget = .ok s := by
  cases type with
  | array item => cases h
  | _ => exact ⟨_, rfl⟩

mutual

theorem Expr.emit_reports (q : Query) (mode : NameMode) :
    ∀ e : Expr, (e.emit (q.namedSources mode)).Reports (e.violations q)
  | .field source column => by
      rw [Expr.emit, Expr.violations]
      exact (reports_sourceAt q mode source.toNat).map fun s => s.column column
  | .row source => by
      rw [Expr.emit, Expr.violations]
      exact reports_row q mode source.toNat
  | .literal value => by
      rw [Expr.emit, Expr.violations]
      exact .pure value.literal
  | .param value => by
      rw [Expr.emit, Expr.violations]
      exact .bindValue value
  | .binary op left right => by
      rw [Expr.emit, Expr.violations]
      exact (left.emit_reports q mode).bind fun _ => (right.emit_reports q mode).map _
  | .not inner => by
      rw [Expr.emit, Expr.violations]
      exact (inner.emit_reports q mode).map _
  | .isNull inner => by
      rw [Expr.emit, Expr.violations]
      exact (inner.emit_reports q mode).map _
  | .cast inner target => by
      rw [Expr.emit, Expr.violations]
      cases harray : target.isArray with
      | true => exact (Emit.Reports.refuseIf true _).stop _ _
      | false =>
          obtain ⟨type, htype⟩ := ColumnType.exists_castTarget harray
          have hinner := (inner.emit_reports q mode).bind fun sql =>
            (Emit.Reports.ofExcept (.of_ok htype)).map fun type =>
              "CAST ".toList ++ Text.parenthesized (sql ++ " AS ".toList ++ type)
          rw [List.append_nil] at hinner
          exact (Emit.Reports.refuseIf false _).bind fun _ => hinner
  | .isIn left right => by
      rw [Expr.emit, Expr.violations]
      exact (left.emit_reports q mode).bind fun _ => (right.emit_reports q mode).map _
  | .fragment body => by
      rw [Expr.emit, Expr.violations]
      exact body.emit_reports q mode
  | .call name args distinct => by
      rw [Expr.emit, Expr.violations]
      exact (emitEach_reports q mode args).map _

theorem InList.emit_reports (q : Query) (mode : NameMode) :
    ∀ l : InList, (l.emit (q.namedSources mode)).Reports (l.violations q)
  | .exprs items => by
      rw [InList.emit, InList.violations]
      exact (emitEach_reports q mode items).map _
  | .params values => by
      rw [InList.emit, InList.violations]
      exact (Emit.Reports.bindValues values).map _
  | .fragment body => by
      rw [InList.emit, InList.violations]
      exact body.emit_reports q mode

theorem Fragment.emit_reports (q : Query) (mode : NameMode) :
    ∀ f : Fragment, (f.emit (q.namedSources mode)).Reports (f.violations q)
  | .template sql args => by
      rw [Fragment.emit, Fragment.violations]
      exact emitSplices_reports q mode sql none sql.toList (by simp) args
  | .keyword args => by
      rw [Fragment.emit, Fragment.violations]
      exact .throw _

theorem emitSplices_reports (q : Query) (mode : NameMode) (template : String)
    (previous : Option Char) (rest : Text) (h : previous ≠ some '\\') :
    ∀ args : List Expr, (emitSplices (q.namedSources mode) template rest args).Reports
      (spliceViolations q template (Template.splicesAfter previous rest) args)
  | [] => by
      rw [emitSplices, Template.splicesAfter_eq_cut previous fun _ => h]
      cases hcut : Template.cut rest with
      | mk before after =>
          cases after with
          | none => exact .pure _
          | some after => exact .throw _
  | arg :: args => by
      rw [emitSplices, Template.splicesAfter_eq_cut previous fun _ => h]
      cases hcut : Template.cut rest with
      | mk before after =>
          cases after with
          | none => exact .throw _
          | some after =>
              rw [spliceViolations]
              exact (arg.emit_reports q mode).bind fun _ =>
                (emitSplices_reports q mode template (some '?') after (by simp) args).map _

theorem emitEach_reports (q : Query) (mode : NameMode) :
    ∀ es : List Expr, (emitEach (q.namedSources mode) es).Reports (violationsOfEach q es)
  | [] => by
      rw [emitEach, violationsOfEach]
      exact .pure []
  | e :: es => by
      rw [emitEach, violationsOfEach]
      exact (e.emit_reports q mode).bind fun _ => (emitEach_reports q mode es).map _

end

theorem emitList_reports (q : Query) (mode : NameMode) (es : List Expr) :
    (emitList (q.namedSources mode) es).Reports (violationsOfEach q es) :=
  (emitEach_reports q mode es).map _

theorem Source.emit_reports (q : Query) (mode : NameMode) (source : Source) (position : Nat) :
    ((source.named q.schema mode position).emit (q.namedSources mode)).Reports
      (source.violations q) := by
  cases source with
  | table name fields => exact .pure _
  | fragment body => exact (body.emit_reports q mode).map _

theorem JoinKind.reports_keyword (kind : JoinKind) :
    (Emit.ofExcept kind.keyword).Reports
      (if kind = .right ∨ kind = .full then [.unsupported .outerJoin] else []) := by
  cases kind with
  | inner => exact .pure _
  | left => exact .pure _
  | right => exact .throw _
  | full => exact .throw _

theorem Join.emit_reports {q : Query} {position : Nat} {join : Join}
    (h : q.sources[position]? = some join.source) :
    (join.emit (q.namedSources .select) position).Reports (join.violations q position) := by
  unfold Join.emit
  rw [sourceAt_eq_ok .select h]
  cases join with
  | conditional kind source condition =>
      rw [Join.violations, List.append_assoc]
      exact kind.reports_keyword.bind fun _ =>
        (source.emit_reports q .select position).bind fun _ =>
          (condition.emit_reports q .select).map _
  | cross source => exact (source.emit_reports q .select position).map _
  | associated source association =>
      have hsource := source.emit_reports q .select position
      have hrefuse := Emit.Reports.refuseIf (decide (position ≤ association.owner.toNat))
        (.invalid (.ownerNotJoined association.owner.toNat position))
      rw [Join.violations]
      by_cases howner : association.owner.toNat < position
      · -- The owner comes before a source of the query, so it is one.
        have hlt : position < q.sources.length := (List.getElem?_eq_some_iff.mp h).1
        have hat := sourceAt_eq_ok .select (List.getElem?_eq_getElem (Nat.lt_trans howner hlt))
        rw [if_neg (by simpa using howner)] at hrefuse
        rw [if_pos howner]
        exact hrefuse.bind fun _ => (Emit.Reports.ofExcept (.of_ok hat)).bind fun _ => hsource.map _
      · rw [if_pos (by simpa using howner)] at hrefuse
        rw [if_neg howner]
        exact hrefuse.stop _ _

theorem emitJoins_reports {q : Query} {position : Nat} {joins : List Join}
    (h : ∀ k join, joins[k]? = some join → q.sources[position + k]? = some join.source) :
    (emitJoins (q.namedSources .select) position joins).Reports
      (joinViolations q position joins) := by
  induction joins generalizing position with
  | nil => exact .pure []
  | cons join joins ih =>
      have hfirst := Join.emit_reports (h 0 join rfl)
      have hrest := ih fun k join' hk => by
        rw [Nat.add_assoc, Nat.add_comm 1 k]
        exact h (k + 1) join' hk
      exact hfirst.bind fun _ => hrest.map _

theorem filterClause_reports (q : Query) (mode : NameMode) (keyword : String)
    (filters : List Expr) :
    (filterClause keyword (q.namedSources mode) filters).Reports (violationsOfEach q filters) := by
  cases filters with
  | nil => exact .pure []
  | cons e es => exact (emitEach_reports q mode (e :: es)).map _

theorem listClause_reports (q : Query) (mode : NameMode) (keyword : String) (es : List Expr) :
    (listClause keyword (q.namedSources mode) es).Reports (violationsOfEach q es) := by
  cases es with
  | nil => exact .pure []
  | cons e es => exact (emitList_reports q mode (e :: es)).map _

theorem projectionClause_reports (q : Query) (projection : Option (List Expr)) :
    (projectionClause (q.namedSources .select) projection).Reports
      (projectionViolations q projection) := by
  match projection with
  | none => exact (Expr.row 0).emit_reports q .select
  | some [] => exact .throw _
  | some (e :: es) => exact emitList_reports q .select (e :: es)

theorem orderClause_reports (q : Query) (terms : List OrderTerm) :
    (orderClause (q.namedSources .select) terms).Reports
      (terms.flatMap fun term => term.expr.violations q) := by
  cases terms with
  | nil => exact .pure []
  | cons term terms =>
      have hterm (t : OrderTerm) : (t.emit (q.namedSources .select)).Reports (t.expr.violations q) :=
        (t.expr.emit_reports q .select).map _
      exact (Emit.Reports.forEach hterm (term :: terms)).map _

theorem optionalClause_reports (q : Query) (keyword : String) (e : Option Expr) :
    (optionalClause keyword (q.namedSources .select) e).Reports (violationsOfEach q e.toList) := by
  cases e with
  | none => exact .pure []
  | some e =>
      rw [Option.toList_some, violationsOfEach, violationsOfEach, List.append_nil]
      exact (e.emit_reports q .select).map _

theorem reports_distinctText (distinct : Option Distinct) :
    (Emit.ofExcept (distinctText distinct)).Reports ((distinct.map Distinct.violations).getD []) := by
  match distinct with
  | none => exact .pure []
  | some (.flag on?) => exact .pure _
  | some (.exprs []) => exact .pure []
  | some (.exprs (e :: es)) => exact .throw _

theorem Query.emitSelect_reports (q : Query) : q.emitSelect.Reports q.selectViolations := by
  have hprimary : q.sources[0]? = some q.source := rfl
  have hsource : (sourceClause (q.namedSources .select)).Reports (q.source.violations q) := by
    unfold sourceClause
    rw [sourceAt_eq_ok .select hprimary]
    exact (q.source.emit_reports q .select 0).map _
  have hjoins : (emitJoins (q.namedSources .select) 1 q.joins).Reports
      (joinViolations q 1 q.joins) := by
    refine emitJoins_reports fun k join hk => ?_
    rw [Query.sources, Nat.add_comm 1 k, List.getElem?_cons_succ, List.getElem?_map, hk]
    rfl
  refine (Emit.Reports.refuseIf _ _).bind fun _ => (reports_distinctText q.distinct).bind fun _ => ?_
  refine Emit.Reports.map ?_ _
  exact .concat_cons (projectionClause_reports q q.projection) <|
    .concat_cons hsource <|
    .concat_cons hjoins <|
    .concat_cons (filterClause_reports q .select "WHERE" q.filters) <|
    .concat_cons (listClause_reports q .select "GROUP BY" q.groups) <|
    .concat_cons (filterClause_reports q .select "HAVING" q.groupFilters) <|
    .concat_cons (orderClause_reports q q.ordering) <|
    .concat_cons (optionalClause_reports q "LIMIT" q.limit) <|
    .concat_cons (optionalClause_reports q "OFFSET" q.offset) (.pure [])

end LiteSql
