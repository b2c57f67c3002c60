import LiteSql.Proofs.RowText
import LiteSql.Statement.Bulk

/-!
# Statements do not show their bound values

`mapBound f` replaces every bound value of a tree, at any depth, and keeps all
else. Writing commutes with it: the replaced tree gives the same text or the
same failure, and binds the replaced values. Two trees that differ in bound
values only have the same tree `withoutValues`, so they have one text between
them.

`Emit.Mirrors f` relates two steps in this way. It is proved for each part of a
statement from its smaller parts, up to the three statements that a query can
be compiled to. The text of a statement on one row is made from its names, so two
statements with the same names have one text as well.
-/

namespace LiteSql

mutual

/-- Replaces the bound values of an expression. -/
def Expr.mapBound (f : Value → Value) : Expr → Expr
  | .field source column => .field source column
  | .row source => .row source
  | .literal value => .literal value
  | .param value => .param (f value)
  | .binary op left right => .binary op (left.mapBound f) (right.mapBound f)
  | .not inner => .not (inner.mapBound f)
  | .isNull inner => .isNull (inner.mapBound f)
  | .cast inner target => .cast (inner.mapBound f) target
  | .isIn left right => .isIn (left.mapBound f) (right.mapBound f)
  | .fragment body => .fragment (body.mapBound f)
  | .call name args distinct => .call name (mapBoundEach f args) distinct

def InList.mapBound (f : Value → Value) : InList → InList
  | .exprs items => .exprs (mapBoundEach f items)
  | .params values => .params (values.map f)
  | .fragment body => .fragment (body.mapBound f)

def Fragment.mapBound (f : Value → Value) : Fragment → Fragment
  | .template sql args => .template sql (mapBoundEach f args)
  | .keyword args => .keyword (mapBoundArguments f args)

def mapBoundEach (f : Value → Value) : List Expr → List Expr
  | [] => []
  | e :: es => e.mapBound f :: mapBoundEach f es

def mapBoundArguments (f : Value → Value) : List (String × Expr) → List (String × Expr)
  | [] => []
  | (name, e) :: rest => (name, e.mapBound f) :: mapBoundArguments f rest

end

def Source.mapBound (f : Value → Value) : Source → Source
  | .table name fields => .table name fields
  | .fragment body => .fragment (body.mapBound f)

def Join.mapBound (f : Value → Value) : Join → Join
  | .conditional kind source condition =>
    .conditional kind (source.mapBound f) (condition.mapBound f)
  | .cross source => .cross (source.mapBound f)
  | .associated source association => .associated (source.mapBound f) association

def OrderTerm.mapBound (f : Value → Value) (term : OrderTerm) : OrderTerm :=
  { term with expr := term.expr.mapBound f }

def Distinct.mapBound (f : Value → Value) : Distinct → Distinct
  | .flag on? => .flag on?
  | .exprs items => .exprs (mapBoundEach f items)

def Assignment.mapBound (f : Value → Value) : Assignment → Assignment
  | .set field value => .set field (value.mapBound f)
  | .increment field value => .increment field (value.mapBound f)
  | .push field value => .push field (value.mapBound f)
  | .pull field value => .pull field (value.mapBound f)

def Query.mapBound (f : Value → Value) (q : Query) : Query where
  schema := q.schema
  source := q.source.mapBound f
  joins := q.joins.map (Join.mapBound f)
  projection := q.projection.map (mapBoundEach f)
  distinct := q.distinct.map (Distinct.mapBound f)
  filters := mapBoundEach f q.filters
  assignments := q.assignments.map (Assignment.mapBound f)
  groups := mapBoundEach f q.groups
  groupFilters := mapBoundEach f q.groupFilters
  ordering := q.ordering.map (OrderTerm.mapBound f)
  limit := q.limit.map (Expr.mapBound f)
  offset := q.offset.map (Expr.mapBound f)
  lock := q.lock

/-- The query with one and the same value at all places where it binds one. -/
def Query.withoutValues (q : Query) : Query :=
  q.mapBound fun _ => .null

def NamedSource.mapBound (f : Value → Value) (s : NamedSource) : NamedSource :=
  { s with source := s.source.mapBound f }

def Params.mapBound (f : Value → Value) (p : Params) : Params :=
  { p with values := p.values.map f }

def Compiled.mapBound (f : Value → Value) (c : Compiled) : Compiled :=
  { c with params := c.params.map f }

namespace Emit

def mapOutcome {α : Type} (f : Value → Value) :
    EStateM.Result Error Params α → EStateM.Result Error Params α
  | .ok a p => .ok a (p.mapBound f)
  | .error e p => .error e (p.mapBound f)

/-- The second step does to replaced values what the first one does. -/
def Mirrors {α : Type} (f : Value → Value) (step step' : Emit α) : Prop :=
  ∀ p, step'.run (p.mapBound f) = mapOutcome f (step.run p)

theorem Mirrors.pure {α : Type} {f : Value → Value} (a : α) :
    Mirrors f (pure a) (pure a) :=
  fun _ => rfl

theorem Mirrors.throw {α : Type} {f : Value → Value} (e : Error) :
    Mirrors f (throw e : Emit α) (throw e) :=
  fun _ => rfl

theorem Mirrors.bind {α β : Type} {f : Value → Value} {step step' : Emit α}
    {next next' : α → Emit β} (h : Mirrors f step step')
    (hnext : ∀ a, Mirrors f (next a) (next' a)) :
    Mirrors f (step >>= next) (step' >>= next') := by
  intro p
  rw [EStateM.run_bind, EStateM.run_bind, h p]
  cases step.run p with
  | ok a p' => exact hnext a p'
  | error e p' => rfl

theorem Mirrors.bindValue {f : Value → Value} (v : Value) :
    Mirrors f (bindValue v) (bindValue (f v)) := by
  intro p
  simp [Emit.bindValue, mapOutcome, Params.mapBound]

theorem Mirrors.ofExcept {α : Type} {f : Value → Value} (x : Except Error α) :
    Mirrors f (ofExcept x) (ofExcept x) := by
  cases x with
  | ok a => exact .pure a
  | error e => exact .throw e

theorem Mirrors.refuseIf {f : Value → Value} (condition : Bool) (e : Error) :
    Mirrors f (refuseIf condition e) (refuseIf condition e) := by
  cases condition with
  | false => exact .pure ()
  | true => exact .throw e

theorem Mirrors.forEach {α : Type} {f : Value → Value} {step step' : α → Emit Text}
    {g : α → α} (h : ∀ a, Mirrors f (step a) (step' (g a))) (as : List α) :
    Mirrors f (forEach step as) (forEach step' (as.map g)) := by
  induction as with
  | nil => exact .pure []
  | cons a as ih => exact .bind (h a) fun first => .bind ih fun rest => .pure (first :: rest)

theorem Mirrors.bindValues {f : Value → Value} (vs : List Value) :
    Mirrors f (bindValues vs) (bindValues (vs.map f)) := by
  induction vs with
  | nil => exact .pure []
  | cons v vs ih =>
      exact .bind (.bindValue v) fun first => .bind ih fun rest => .pure (first :: rest)

theorem Mirrors.compile {f : Value → Value} {step step' : Emit Text}
    (h : Mirrors f step step') : step'.compile = step.compile.map (Compiled.mapBound f) := by
  -- A statement starts without values, so there is nothing to replace in its start.
  have hstart := h {}
  simp only [Params.mapBound, List.map_nil] at hstart
  unfold Emit.compile
  rw [hstart]
  cases step.run {} with
  | ok sql p => rfl
  | error e p => rfl

end Emit

theorem Expr.asOperand_mapBound (f : Value → Value) (e : Expr) (sql : Text) :
    (e.mapBound f).asOperand sql = e.asOperand sql := by
  have hcompound : (e.mapBound f).isCompound = e.isCompound := by
    cases e <;> simp only [mapBound, isCompound]
  simp only [asOperand, hcompound]

theorem NamedSource.row_mapBound (f : Value → Value) (s : NamedSource) :
    (s.mapBound f).row = s.row := by
  obtain ⟨source, handle, table⟩ := s
  cases source with
  | table name fields => rfl
  | fragment body => rfl

theorem sourceAt_mapBound (f : Value → Value) (sources : List NamedSource) (index : Nat) :
    sourceAt (sources.map (NamedSource.mapBound f)) index =
      (sourceAt sources index).map (NamedSource.mapBound f) := by
  simp only [sourceAt, List.getElem?_map, List.length_map]
  cases sources[index]? with
  | none => rfl
  | some s => rfl

/-- Looking a source up leads to the same source with its values replaced. -/
theorem Emit.Mirrors.atSource {α : Type} {f : Value → Value} {next next' : NamedSource → Emit α}
    (sources : List NamedSource) (index : Nat)
    (h : ∀ s, Mirrors f (next s) (next' (s.mapBound f))) :
    Mirrors f (Emit.ofExcept (sourceAt sources index) >>= next)
      (Emit.ofExcept (sourceAt (sources.map (NamedSource.mapBound f)) index) >>= next') := by
  rw [sourceAt_mapBound]
  cases sourceAt sources index with
  | ok s => exact h s
  | error e => exact .throw e

mutual

theorem Expr.emit_mapBound (f : Value → Value) (sources : List NamedSource) :
    ∀ e : Expr, Emit.Mirrors f (e.emit sources)
      ((e.mapBound f).emit (sources.map (NamedSource.mapBound f)))
  | .field source column => by
      rw [Expr.mapBound, Expr.emit, Expr.emit]
      exact .atSource sources source.toNat fun s => .pure (s.column column)
  | .row source => by
      rw [Expr.mapBound, Expr.emit, Expr.emit]
      refine .atSource sources source.toNat fun s => ?_
      rw [s.row_mapBound]
      exact .ofExcept s.row
  | .literal value => by
      rw [Expr.mapBound, Expr.emit, Expr.emit]
      exact .pure value.literal
  | .param value => by
      rw [Expr.mapBound, Expr.emit, Expr.emit]
      exact .bindValue value
  | .binary op left right => by
      rw [Expr.mapBound, Expr.emit, Expr.emit]
      simp only [Expr.asOperand_mapBound]
      exact .bind (left.emit_mapBound f sources) fun l =>
        .bind (right.emit_mapBound f sources) fun r => .pure _
  | .not inner => by
      rw [Expr.mapBound, Expr.emit, Expr.emit]
      exact .bind (inner.emit_mapBound f sources) fun sql => .pure _
  | .isNull inner => by
      rw [Expr.mapBound, Expr.emit, Expr.emit]
      simp only [Expr.asOperand_mapBound]
      exact .bind (inner.emit_mapBound f sources) fun sql => .pure _
  | .cast inner target => by
      rw [Expr.mapBound, Expr.emit, Expr.emit]
      exact .bind (.refuseIf _ _) fun _ => .bind (inner.emit_mapBound f sources) fun sql =>
        .bind (.ofExcept _) fun type => .pure _
  | .isIn left right => by
      rw [Expr.mapBound, Expr.emit, Expr.emit]
      simp only [Expr.asOperand_mapBound]
      exact .bind (left.emit_mapBound f sources) fun l =>
        .bind (right.emit_mapBound f sources) fun items => .pure _
  | .fragment body => by
      rw [Expr.mapBound, Expr.emit, Expr.emit]
      exact body.emit_mapBound f sources
  | .call name args distinct => by
      rw [Expr.mapBound, Expr.emit, Expr.emit]
      exact .bind (emitEach_mapBound f sources args) fun items => .pure _

theorem InList.emit_mapBound (f : Value → Value) (sources : List NamedSource) :
    ∀ l : InList, Emit.Mirrors f (l.emit sources)
      ((l.mapBound f).emit (sources.map (NamedSource.mapBound f)))
  | .exprs items => by
      rw [InList.mapBound, InList.emit, InList.emit]
      exact .bind (emitEach_mapBound f sources items) fun texts => .pure _
  | .params values => by
      rw [InList.mapBound, InList.emit, InList.emit]
      exact .bind (.bindValues values) fun texts => .pure _
  | .fragment body => by
      rw [InList.mapBound, InList.emit, InList.emit]
      exact body.emit_mapBound f sources

theorem Fragment.emit_mapBound (f : Value → Value) (sources : List NamedSource) :
    ∀ b : Fragment, Emit.Mirrors f (b.emit sources)
      ((b.mapBound f).emit (sources.map (NamedSource.mapBound f)))
  | .template sql args => by
      rw [Fragment.mapBound, Fragment.emit, Fragment.emit]
      exact emitSplices_mapBound f sources sql sql.toList args
  | .keyword args => by
      rw [Fragment.mapBound, Fragment.emit, Fragment.emit]
      exact .throw _

theorem emitSplices_mapBound (f : Value → Value) (sources : List NamedSource)
    (template : String) (rest : Text) :
    ∀ args : List Expr, Emit.Mirrors f (emitSplices sources template rest args)
      (emitSplices (sources.map (NamedSource.mapBound f)) template rest (mapBoundEach f args))
  | [] => by
      rw [mapBoundEach, emitSplices, emitSplices]
      split
      · exact .pure _
      · exact .throw _
  | arg :: args => by
      rw [mapBoundEach, emitSplices, emitSplices]
      split
      · exact .throw _
      · rename_i before after _
        exact .bind (arg.emit_mapBound f sources) fun sql =>
          .bind (emitSplices_mapBound f sources template after args) fun tail => .pure _

theorem emitEach_mapBound (f : Value → Value) (sources : List NamedSource) :
    ∀ es : List Expr, Emit.Mirrors f (emitEach sources es)
      (emitEach (sources.map (NamedSource.mapBound f)) (mapBoundEach f es))
  | [] => by
      rw [mapBoundEach, emitEach, emitEach]
      exact .pure []
  | e :: es => by
      rw [mapBoundEach, emitEach, emitEach]
      exact .bind (e.emit_mapBound f sources) fun first =>
        .bind (emitEach_mapBound f sources es) fun rest => .pure (first :: rest)

end

theorem Expr.emitOperand_mapBound (f : Value → Value) (sources : List NamedSource) (e : Expr) :
    Emit.Mirrors f (e.emitOperand sources)
      ((e.mapBound f).emitOperand (sources.map (NamedSource.mapBound f))) := by
  unfold Expr.emitOperand
  simp only [Expr.asOperand_mapBound]
  exact .bind (e.emit_mapBound f sources) fun sql => .pure _

theorem emitList_mapBound (f : Value → Value) (sources : List NamedSource) (es : List Expr) :
    Emit.Mirrors f (emitList sources es)
      (emitList (sources.map (NamedSource.mapBound f)) (mapBoundEach f es)) :=
  .bind (emitEach_mapBound f sources es) fun _ => .pure _

theorem nameSources_mapBound (f : Value → Value) (schema : Option String) (mode : NameMode)
    (position : Nat) (ss : List Source) :
    nameSources schema mode position (ss.map (Source.mapBound f)) =
      (nameSources schema mode position ss).map (NamedSource.mapBound f) := by
  induction ss generalizing position with
  | nil => rfl
  | cons s ss ih =>
      have hnamed : (s.mapBound f).named schema mode position =
          (s.named schema mode position).mapBound f := by
        cases s <;> rfl
      simp only [List.map_cons, nameSources, hnamed, ih]

theorem Query.namedSources_mapBound (f : Value → Value) (q : Query) (mode : NameMode) :
    (q.mapBound f).namedSources mode = (q.namedSources mode).map (NamedSource.mapBound f) := by
  have hsources : (q.mapBound f).sources = q.sources.map (Source.mapBound f) := by
    have hjoin (j : Join) : (j.mapBound f).source = j.source.mapBound f := by
      cases j <;> rfl
    simp [Query.sources, Query.mapBound, hjoin]
  rw [Query.namedSources, hsources]
  exact nameSources_mapBound f q.schema mode 0 q.sources

theorem NamedSource.emit_mapBound (f : Value → Value) (sources : List NamedSource)
    (s : NamedSource) :
    Emit.Mirrors f (s.emit sources)
      ((s.mapBound f).emit (sources.map (NamedSource.mapBound f))) := by
  obtain ⟨source, handle, table⟩ := s
  cases source with
  | table name fields => exact .pure _
  | fragment body => exact .bind (body.emit_mapBound f sources) fun sql => .pure _

theorem Join.emit_mapBound (f : Value → Value) (sources : List NamedSource) (position : Nat)
    (join : Join) :
    Emit.Mirrors f (join.emit sources position)
      ((join.mapBound f).emit (sources.map (NamedSource.mapBound f)) position) := by
  refine .atSource sources position fun joined => ?_
  have hsource := joined.emit_mapBound f sources
  cases join with
  | conditional kind source condition =>
      exact .bind (.ofExcept kind.keyword) fun keyword => .bind hsource fun sql =>
        .bind (condition.emit_mapBound f sources) fun on? => .pure _
  | cross source => exact .bind hsource fun sql => .pure _
  | associated source association =>
      exact .bind (.refuseIf _ _) fun _ => .atSource sources association.owner.toNat fun owner =>
        .bind hsource fun sql => .pure _

theorem emitJoins_mapBound (f : Value → Value) (sources : List NamedSource) (position : Nat)
    (joins : List Join) :
    Emit.Mirrors f (emitJoins sources position joins)
      (emitJoins (sources.map (NamedSource.mapBound f)) position
        (joins.map (Join.mapBound f))) := by
  induction joins generalizing position with
  | nil => exact .pure []
  | cons join joins ih =>
      exact .bind (join.emit_mapBound f sources position) fun first =>
        .bind (ih (position + 1)) fun rest => .pure (first ++ rest)

theorem filterClause_mapBound (f : Value → Value) (keyword : String)
    (sources : List NamedSource) (filters : List Expr) :
    Emit.Mirrors f (filterClause keyword sources filters)
      (filterClause keyword (sources.map (NamedSource.mapBound f)) (mapBoundEach f filters)) := by
  cases filters with
  | nil => exact .pure []
  | cons e es => exact .bind (emitEach_mapBound f sources (e :: es)) fun _ => .pure _

theorem listClause_mapBound (f : Value → Value) (keyword : String) (sources : List NamedSource)
    (es : List Expr) :
    Emit.Mirrors f (listClause keyword sources es)
      (listClause keyword (sources.map (NamedSource.mapBound f)) (mapBoundEach f es)) := by
  cases es with
  | nil => exact .pure []
  | cons e es => exact .bind (emitList_mapBound f sources (e :: es)) fun list => .pure _

theorem optionalClause_mapBound (f : Value → Value) (keyword : String)
    (sources : List NamedSource) (e : Option Expr) :
    Emit.Mirrors f (optionalClause keyword sources e)
      (optionalClause keyword (sources.map (NamedSource.mapBound f)) (e.map (Expr.mapBound f))) := by
  cases e with
  | none => exact .pure []
  | some e => exact .bind (e.emit_mapBound f sources) fun sql => .pure _

theorem projectionClause_mapBound (f : Value → Value) (sources : List NamedSource)
    (projection : Option (List Expr)) :
    Emit.Mirrors f (projectionClause sources projection)
      (projectionClause (sources.map (NamedSource.mapBound f))
        (projection.map (mapBoundEach f))) := by
  match projection with
  | none => exact (Expr.row 0).emit_mapBound f sources
  | some [] => exact .throw _
  | some (e :: es) => exact emitList_mapBound f sources (e :: es)

theorem orderClause_mapBound (f : Value → Value) (sources : List NamedSource)
    (terms : List OrderTerm) :
    Emit.Mirrors f (orderClause sources terms)
      (orderClause (sources.map (NamedSource.mapBound f)) (terms.map (OrderTerm.mapBound f))) := by
  have hterm (term : OrderTerm) : Emit.Mirrors f (term.emit sources)
      ((term.mapBound f).emit (sources.map (NamedSource.mapBound f))) :=
    .bind (term.expr.emit_mapBound f sources) fun sql => .pure _
  cases terms with
  | nil => exact .pure []
  | cons term terms => exact .bind (.forEach hterm (term :: terms)) fun texts => .pure _

theorem Assignment.emit_mapBound (f : Value → Value) (sources : List NamedSource)
    (a : Assignment) :
    Emit.Mirrors f (a.emit sources)
      ((a.mapBound f).emit (sources.map (NamedSource.mapBound f))) := by
  cases a with
  | set field value => exact .bind (value.emit_mapBound f sources) fun sql => .pure _
  | increment field value =>
      exact .bind (value.emitOperand_mapBound f sources) fun sql => .pure _
  | push field value => exact .throw _
  | pull field value => exact .throw _

theorem Emit.Mirrors.concat_cons {f : Value → Value} {part part' : Emit Text}
    {parts parts' : List (Emit Text)} (h₁ : Mirrors f part part')
    (h₂ : Mirrors f (concat parts) (concat parts')) :
    Mirrors f (concat (part :: parts)) (concat (part' :: parts')) :=
  .bind h₁ fun first => .bind h₂ fun rest => .pure (first ++ rest)

theorem Query.emitSelect_mapBound (f : Value → Value) (q : Query) :
    Emit.Mirrors f q.emitSelect (q.mapBound f).emitSelect := by
  let sources := q.namedSources .select
  have hdistinct : distinctText (q.mapBound f).distinct = distinctText q.distinct := by
    show distinctText (q.distinct.map (Distinct.mapBound f)) = distinctText q.distinct
    match q.distinct with
    | none | some (.flag _) | some (.exprs []) | some (.exprs (_ :: _)) => rfl
  have hsource : Emit.Mirrors f (sourceClause sources)
      (sourceClause (sources.map (NamedSource.mapBound f))) :=
    .atSource sources 0 fun primary =>
      .bind (primary.emit_mapBound f sources) fun sql => .pure _
  have hclauses : Emit.Mirrors f (Emit.concat (q.selectClauses sources))
      (Emit.concat ((q.mapBound f).selectClauses (sources.map (NamedSource.mapBound f)))) :=
    .concat_cons (projectionClause_mapBound f sources q.projection) <|
    .concat_cons hsource <|
    .concat_cons (emitJoins_mapBound f sources 1 q.joins) <|
    .concat_cons (filterClause_mapBound f "WHERE" sources q.filters) <|
    .concat_cons (listClause_mapBound f "GROUP BY" sources q.groups) <|
    .concat_cons (filterClause_mapBound f "HAVING" sources q.groupFilters) <|
    .concat_cons (orderClause_mapBound f sources q.ordering) <|
    .concat_cons (optionalClause_mapBound f "LIMIT" sources q.limit) <|
    .concat_cons (optionalClause_mapBound f "OFFSET" sources q.offset) <|
    .pure []
  unfold Query.emitSelect
  rw [hdistinct, q.namedSources_mapBound f]
  exact .bind (.refuseIf _ _) fun _ => .bind (.ofExcept _) fun distinct =>
    .bind hclauses fun clauses => .pure _

/-- The shape of a query, on which a bulk statement depends, has no bound values. -/
theorem Query.checkBulk_mapBound (f : Value → Value) (q : Query) (operation : Operation) :
    (q.mapBound f).checkBulk operation = q.checkBulk operation := by
  have heach (es : List Expr) : (mapBoundEach f es).isEmpty = es.isEmpty := by
    cases es <;> rfl
  have hstray : (q.mapBound f).strayClause? = q.strayClause? := by
    simp [Query.strayClause?, Query.mapBound, heach]
  have hjoins : (q.mapBound f).joins.isEmpty = q.joins.isEmpty := by
    simp [Query.mapBound]
  unfold Query.checkBulk
  rw [hstray, hjoins]
  obtain ⟨schema, source⟩ := q
  cases source <;> rfl

theorem bulkTarget_mapBound (f : Value → Value) (sources : List NamedSource) :
    Emit.Mirrors f (bulkTarget sources)
      (bulkTarget (sources.map (NamedSource.mapBound f))) :=
  .atSource sources 0 fun primary => .pure primary.handle

theorem Query.emitUpdateAll_mapBound (f : Value → Value) (q : Query) :
    Emit.Mirrors f q.emitUpdateAll (q.mapBound f).emitUpdateAll := by
  have hnone : (q.mapBound f).assignments.isEmpty = q.assignments.isEmpty := by
    simp [Query.mapBound]
  unfold Query.emitUpdateAll
  rw [q.checkBulk_mapBound f, hnone, q.namedSources_mapBound f]
  exact .bind (.ofExcept _) fun _ => .bind (.refuseIf _ _) fun _ =>
    .bind (bulkTarget_mapBound f _) fun target =>
    .bind (.forEach (Assignment.emit_mapBound f _) q.assignments) fun assignments =>
    .bind (filterClause_mapBound f "WHERE" _ q.filters) fun filters => .pure _

theorem Query.emitDeleteAll_mapBound (f : Value → Value) (q : Query) :
    Emit.Mirrors f q.emitDeleteAll (q.mapBound f).emitDeleteAll := by
  have hnone : (q.mapBound f).assignments.isEmpty = q.assignments.isEmpty := by
    simp [Query.mapBound]
  unfold Query.emitDeleteAll
  rw [q.checkBulk_mapBound f, hnone, q.namedSources_mapBound f]
  exact .bind (.ofExcept _) fun _ => .bind (.refuseIf _ _) fun _ =>
    .bind (bulkTarget_mapBound f _) fun target =>
    .bind (filterClause_mapBound f "WHERE" _ q.filters) fun filters => .pure _

/-- The same failure, or the same text with equally many parameters. -/
def SameText : Except Error Compiled → Except Error Compiled → Prop
  | .ok c, .ok c' => c.sql = c'.sql ∧ c.params.length = c'.params.length
  | .error e, .error e' => e = e'
  | _, _ => False

theorem SameText.of_mapBound {f : Value → Value} {r r' : Except Error Compiled}
    (h : r.map (Compiled.mapBound f) = r'.map (Compiled.mapBound f)) : SameText r r' := by
  cases r with
  | error e =>
      cases r' with
      | error e' => exact Except.error.inj h
      | ok c' => cases h
  | ok c =>
      cases r' with
      | error e' => cases h
      | ok c' =>
          have hc : c.mapBound f = c'.mapBound f := Except.ok.inj h
          have hsql : (c.mapBound f).sql = (c'.mapBound f).sql := by rw [hc]
          have hparams : (c.mapBound f).params.length = (c'.mapBound f).params.length := by
            rw [hc]
          simp only [Compiled.mapBound, List.length_map] at hparams
          exact ⟨hsql, hparams⟩

theorem Query.sameText_of_withoutValues {q q' : Query} (h : q.withoutValues = q'.withoutValues)
    {write : Query → Emit Text}
    (hwrite : ∀ q, Emit.Mirrors (fun _ => .null) (write q) (write (q.mapBound fun _ => .null))) :
    SameText (write q).compile (write q').compile := by
  have hq := (hwrite q).compile
  have hq' := (hwrite q').compile
  have heq : q.mapBound (fun _ => .null) = q'.mapBound fun _ => .null := h
  rw [heq] at hq
  exact .of_mapBound (hq.symm.trans hq')

theorem SameText.exists_ok {r r' : Except Error Compiled} (h : SameText r r') {c : Compiled}
    (hr : r = .ok c) : ∃ params, r' = .ok ⟨c.sql, params⟩ ∧ params.length = c.params.length := by
  subst hr
  cases r' with
  | error e => exact absurd h id
  | ok c' =>
      obtain ⟨hsql, hlength⟩ : c.sql = c'.sql ∧ c.params.length = c'.params.length := h
      exact ⟨c'.params, by rw [hsql], hlength.symm⟩

theorem ok_of_shared {r r' : Except Error Compiled} {text : String} {us vs ws : List Value}
    (h : ∃ sql, r = .ok ⟨sql, vs⟩ ∧ r' = .ok ⟨sql, ws⟩) (hr : r = .ok ⟨text, us⟩) :
    r = .ok ⟨text, us⟩ ∧ r' = .ok ⟨text, ws⟩ := by
  obtain ⟨sql, hfirst, hsecond⟩ := h
  have hsame := Except.ok.inj (hr.symm.trans hfirst)
  exact ⟨hr, by rw [hsecond, (Compiled.mk.inj hsame).1]⟩

theorem length_eq_of_columnNames {row row' : List ColumnValue}
    (h : columnNames row = columnNames row') : row.length = row'.length := by
  have hlength := congrArg List.length h
  simpa [columnNames] using hlength

theorem ne_nil_of_columnNames {row row' : List ColumnValue}
    (h : columnNames row = columnNames row') (hrow : row ≠ []) : row' ≠ [] := by
  rw [← List.length_pos_iff] at hrow ⊢
  rwa [← length_eq_of_columnNames h]

theorem RowStatement.exists_sql {st st' : RowStatement} (hst : st.refusal? = none)
    (hst' : st'.refusal? = none) (hoperation : st.operation = st'.operation)
    (htable : st.table = st'.table) (hfront : st.front = st'.front) (returning : List String) :
    ∃ sql, st.compile returning = .ok ⟨sql, st.values⟩ ∧
      st'.compile returning = .ok ⟨sql, st'.values⟩ := by
  refine ⟨_, compile_eq_ok_iff.mpr ⟨hst, rfl⟩, ?_⟩
  rw [hoperation, htable, hfront]
  exact compile_eq_ok_iff.mpr ⟨hst', rfl⟩

/-- Bound values do not reach the text. Queries that differ in bound values only
fail alike or have one text and equally many parameters. Statements on one row
whose columns agree have one text, and their parameters are the values of the fields
followed by those of the filters; a list that is empty where it must not be is the
only reason for a failure. -/
theorem text_independent_of_values :
    (∀ q q' : Query, q.withoutValues = q'.withoutValues →
      SameText q.compileSelect q'.compileSelect ∧
      SameText q.compileUpdateAll q'.compileUpdateAll ∧
      SameText q.compileDeleteAll q'.compileDeleteAll) ∧
    (∀ (table : QualifiedName) (fields fields' : List ColumnValue) (returning : List String),
      columnNames fields = columnNames fields' →
      ∃ sql, compileInsert table fields returning = .ok ⟨sql, columnValues fields⟩ ∧
        compileInsert table fields' returning = .ok ⟨sql, columnValues fields'⟩) ∧
    (∀ (table : QualifiedName) (fields fields' filters filters' : List ColumnValue)
      (returning : List String),
      columnNames fields = columnNames fields' → columnNames filters = columnNames filters' →
      fields ≠ [] → filters ≠ [] →
      ∃ sql, compileUpdate table fields filters returning =
          .ok ⟨sql, columnValues fields ++ columnValues filters⟩ ∧
        compileUpdate table fields' filters' returning =
          .ok ⟨sql, columnValues fields' ++ columnValues filters'⟩) ∧
    (∀ (table : QualifiedName) (filters filters' : List ColumnValue) (returning : List String),
      columnNames filters = columnNames filters' → filters ≠ [] →
      ∃ sql, compileDelete table filters returning = .ok ⟨sql, columnValues filters⟩ ∧
        compileDelete table filters' returning = .ok ⟨sql, columnValues filters'⟩) ∧
    ∀ (table : QualifiedName) (fields filters : List ColumnValue) (returning : List String)
      (e : Error),
      (compileUpdate table fields filters returning = .error e ↔
        fields = [] ∧ e = .invalid .updateWithoutField ∨
          fields ≠ [] ∧ filters = [] ∧ e = .invalid .updateWithoutFilter) ∧
      (compileDelete table filters returning = .error e ↔
        filters = [] ∧ e = .invalid .deleteWithoutFilter) := by
  refine ⟨fun q q' h => ?_, fun table fields fields' returning h => ?_,
    fun table fields fields' filters filters' returning h₁ h₂ hfields hfilters => ?_,
    fun table filters filters' returning h hfilters => ?_,
    fun table fields filters returning e => ⟨?_, ?_⟩⟩
  · exact ⟨Query.sameText_of_withoutValues h (Query.emitSelect_mapBound _),
      Query.sameText_of_withoutValues h (Query.emitUpdateAll_mapBound _),
      Query.sameText_of_withoutValues h (Query.emitDeleteAll_mapBound _)⟩
  · let st : RowStatement := .insert table fields
    let st' : RowStatement := .insert table fields'
    have hfront : st.front = st'.front := by
      rw [RowStatement.front_insert, RowStatement.front_insert, h]
    have hst : st.refusal? = none := rfl
    have hst' : st'.refusal? = none := rfl
    exact RowStatement.exists_sql hst hst' rfl rfl hfront returning
  · let st : RowStatement := .update table fields filters
    let st' : RowStatement := .update table fields' filters'
    have hfront : st.front = st'.front := by
      rw [RowStatement.front_update, RowStatement.front_update, h₁, h₂,
        length_eq_of_columnNames h₁]
    have hst : st.refusal? = none :=
      RowStatement.refusal?_update_eq_none_iff.mpr ⟨hfields, hfilters⟩
    have hst' : st'.refusal? = none := RowStatement.refusal?_update_eq_none_iff.mpr
      ⟨ne_nil_of_columnNames h₁ hfields, ne_nil_of_columnNames h₂ hfilters⟩
    exact RowStatement.exists_sql hst hst' rfl rfl hfront returning
  · let st : RowStatement := .delete table filters
    let st' : RowStatement := .delete table filters'
    have hfront : st.front = st'.front := by
      rw [RowStatement.front_delete, RowStatement.front_delete, h]
    have hst : st.refusal? = none := RowStatement.refusal?_delete_eq_none_iff.mpr hfilters
    have hst' : st'.refusal? = none :=
      RowStatement.refusal?_delete_eq_none_iff.mpr (ne_nil_of_columnNames h hfilters)
    exact RowStatement.exists_sql hst hst' rfl rfl hfront returning
  · exact RowStatement.compile_eq_error_iff.trans RowStatement.refusal?_update_eq_some_iff
  · exact RowStatement.compile_eq_error_iff.trans RowStatement.refusal?_delete_eq_some_iff

/-- A query that binds two values in a list and one in the argument of a fragment. -/
def Query.bindingThree (u v w : Value) : Query :=
  ((Query.ofTable "m").select [.template "f(?)" [.param u]]).filter
    (.inValues (.field 0 "x") [v, w])

theorem text_shared_by_samples :
    ((Query.bindingThree (.int 1) (.string "a") .null).compileSelect =
        .ok ⟨"SELECT f(?1) FROM \"m\" AS m0 WHERE (m0.\"x\" IN (?2, ?3))",
          [.int 1, .string "a", .null]⟩ ∧
      ∃ params, (Query.bindingThree .null (.string "'; --") (.bool true)).compileSelect =
          .ok ⟨"SELECT f(?1) FROM \"m\" AS m0 WHERE (m0.\"x\" IN (?2, ?3))", params⟩ ∧
        params.length = 3) ∧
    (compileInsert ⟨none, "m"⟩ [("x", .int 1)] ["id"] =
        .ok ⟨"INSERT INTO \"m\" (\"x\") VALUES (?1) ;--RETURNING ON INSERT \"m\",\"id\"",
          [.int 1]⟩ ∧
      compileInsert ⟨none, "m"⟩ [("x", .null)] ["id"] =
        .ok ⟨"INSERT INTO \"m\" (\"x\") VALUES (?1) ;--RETURNING ON INSERT \"m\",\"id\"",
          [.null]⟩) ∧
    (compileUpdate ⟨none, "m"⟩ [("x", .int 1)] [("y", .int 2)] [] =
        .ok ⟨"UPDATE \"m\" SET \"x\" = ?1 WHERE \"y\" = ?2", [.int 1, .int 2]⟩ ∧
      compileUpdate ⟨none, "m"⟩ [("x", .null)] [("y", .int 3)] [] =
        .ok ⟨"UPDATE \"m\" SET \"x\" = ?1 WHERE \"y\" = ?2", [.null, .int 3]⟩) ∧
    (compileDelete ⟨none, "m"⟩ [("x", .int 1)] [] =
        .ok ⟨"DELETE FROM \"m\" WHERE \"x\" = ?1", [.int 1]⟩ ∧
      compileDelete ⟨none, "m"⟩ [("x", .null)] [] =
        .ok ⟨"DELETE FROM \"m\" WHERE \"x\" = ?1", [.null]⟩) ∧
    compileUpdate ⟨none, "m"⟩ [("x", .int 1)] [] [] = .error (.invalid .updateWithoutFilter) := by
  obtain ⟨hqueries, hinsert, hupdate, hdelete, hfails⟩ := text_independent_of_values
  have hselect : (Query.bindingThree (.int 1) (.string "a") .null).compileSelect =
      .ok ⟨"SELECT f(?1) FROM \"m\" AS m0 WHERE (m0.\"x\" IN (?2, ?3))",
        [.int 1, .string "a", .null]⟩ := rfl
  refine ⟨⟨hselect, ?_⟩, ?_, ?_, ?_, ?_⟩
  · exact (hqueries (.bindingThree (.int 1) (.string "a") .null)
      (.bindingThree .null (.string "'; --") (.bool true)) rfl).1.exists_ok hselect
  · exact ok_of_shared (hinsert ⟨none, "m"⟩ [("x", .int 1)] [("x", .null)] ["id"] rfl) rfl
  · exact ok_of_shared (hupdate ⟨none, "m"⟩ [("x", .int 1)] [("x", .null)] [("y", .int 2)]
      [("y", .int 3)] [] rfl rfl (List.cons_ne_nil _ _) (List.cons_ne_nil _ _)) rfl
  · exact ok_of_shared (hdelete ⟨none, "m"⟩ [("x", .int 1)] [("x", .null)] [] rfl
      (List.cons_ne_nil _ _)) rfl
  · exact (hfails _ [("x", .int 1)] [] [] _).1.mpr (.inr ⟨List.cons_ne_nil _ _, rfl, rfl⟩)

end LiteSql
