import LiteSql.Proofs.Nodes
import LiteSql.Proofs.Refusal

/-!
# Shorthands and what they stand for

Four forms of a query stand for longer ones: a list of bound values for a list of
expressions, a missing projection for the row of the primary source, the row of a
table in a projection for its fields, and an association for a join on an equation
of two fields. Each of them is written by its own part of the program. A query with
some of them spelled out is written as the same SELECT, or fails in the same way.

Spelling out lists of values changes trees at every depth, also those of the
sources. `KeepsText` is what two functions on trees have to meet for that, and
`Query.mapTrees` then leaves the SELECT as it is. The other three change one clause.
-/

namespace LiteSql

mutual

/-- Spells out every list of bound values as a list of expressions. -/
def Expr.spellValues : Expr → Expr
  | .field source column => .field source column
  | .row source => .row source
  | .literal value => .literal value
  | .param value => .param value
  | .binary op left right => .binary op left.spellValues right.spellValues
  | .not inner => .not inner.spellValues
  | .isNull inner => .isNull inner.spellValues
  | .cast inner target => .cast inner.spellValues target
  | .isIn left right => .isIn left.spellValues right.spellValues
  | .fragment body => .fragment body.spellValues
  | .call name args distinct => .call name (spellValuesOfEach args) distinct

def InList.spellValues : InList → InList
  | .exprs items => .exprs (spellValuesOfEach items)
  | .params values => .exprs (values.map .param)
  | .fragment body => .fragment body.spellValues

def Fragment.spellValues : Fragment → Fragment
  | .template sql args => .template sql (spellValuesOfEach args)
  | .keyword args => .keyword (spellValuesOfArguments args)

def spellValuesOfEach : List Expr → List Expr
  | [] => []
  | e :: es => e.spellValues :: spellValuesOfEach es

def spellValuesOfArguments : List (String × Expr) → List (String × Expr)
  | [] => []
  | (name, e) :: rest => (name, e.spellValues) :: spellValuesOfArguments rest

end

/-- The fields that the row of a table stands for. A table without fields, or without
a known schema, keeps its row. -/
def Query.spellRow (q : Query) : Expr → List Expr
  | .row index =>
    match q.sources[index.toNat]? with
    | some (.table _ (some (field :: fields))) => (field :: fields).map (.field index)
    | _ => [.row index]
  | e => [e]

/-- The condition of an association whose joined source is at `position`. -/
def Association.equation (a : Association) (position : UInt64) : Expr :=
  match a.cardinality with
  | .belongsTo => .eq (.field position a.key) (.field a.owner a.foreignKey)
  | .hasOne | .hasMany => .eq (.field position a.foreignKey) (.field a.owner a.key)

/-- The join on an equation that an association stands for, provided that the owner
comes before it. A position that no field can name is out of the question. -/
def Join.spellAssociation (position : Nat) : Join → Join
  | .associated source a =>
    if a.owner.toNat < position ∧ position < UInt64.size then
      .conditional .inner source (a.equation (UInt64.ofNat position))
    else .associated source a
  | join => join

/-- Spells out the associations among the joins from `position` on. -/
def spellAssociations : Nat → List Join → List Join
  | _, [] => []
  | position, join :: joins =>
    join.spellAssociation position :: spellAssociations (position + 1) joins

inductive Shorthand
  | valueLists
  | projection
  | rows
  | associations

/-- The query with all places of one shorthand spelled out. -/
def Shorthand.spellOut (q : Query) : Shorthand → Query
  | .valueLists => q.mapTrees Expr.spellValues Fragment.spellValues
  | .projection => { q with projection := some (q.projection.getD [.row 0]) }
  | .rows => { q with projection := q.projection.map (List.flatMap q.spellRow) }
  | .associations => { q with joins := spellAssociations 1 q.joins }

section Sources

variable {f : Expr → Expr} {g : Fragment → Fragment}

def NamedSource.mapTrees (g : Fragment → Fragment) (s : NamedSource) : NamedSource :=
  { s with source := s.source.mapTrees g }

theorem NamedSource.row_mapTrees (s : NamedSource) : (s.mapTrees g).row = s.row := by
  obtain ⟨source, handle, table⟩ := s
  cases source with
  | table name fields => rfl
  | fragment body => rfl

theorem sourceAt_map (h : NamedSource → NamedSource) (sources : List NamedSource) (index : Nat) :
    sourceAt (sources.map h) index = (sourceAt sources index).map h := by
  simp only [sourceAt, List.getElem?_map, List.length_map]
  cases sources[index]? with
  | none => rfl
  | some s => rfl

/-- What follows the look-up of a source may see the source with other trees. -/
theorem Emit.atSource_map {α : Type} {h : NamedSource → NamedSource}
    {next next' : NamedSource → Emit α} (sources : List NamedSource) (index : Nat)
    (hnext : ∀ s, next' (h s) = next s) :
    (Emit.ofExcept (sourceAt (sources.map h) index) >>= next') =
      (Emit.ofExcept (sourceAt sources index) >>= next) := by
  rw [sourceAt_map]
  cases sourceAt sources index with
  | error e => rfl
  | ok s => exact hnext s

theorem emit_row_mapTrees (sources : List NamedSource) (index : UInt64) :
    (Expr.row index).emit (sources.map (NamedSource.mapTrees g)) =
      (Expr.row index).emit sources := by
  rw [Expr.emit, Expr.emit]
  refine Emit.atSource_map sources index.toNat fun s => ?_
  rw [s.row_mapTrees]

theorem nameSources_mapTrees (schema : Option String) (mode : NameMode) (position : Nat)
    (ss : List Source) :
    nameSources schema mode position (ss.map (Source.mapTrees g)) =
      (nameSources schema mode position ss).map (NamedSource.mapTrees g) := by
  induction ss generalizing position with
  | nil => rfl
  | cons s ss ih =>
      have hnamed : (s.mapTrees g).named schema mode position =
          (s.named schema mode position).mapTrees g := by
        cases s <;> rfl
      simp only [List.map_cons, nameSources, hnamed, ih]

theorem Query.namedSources_mapTrees (q : Query) (mode : NameMode) :
    (q.mapTrees f g).namedSources mode = (q.namedSources mode).map (NamedSource.mapTrees g) := by
  have hjoin (j : Join) : (j.mapTrees f g).source = j.source.mapTrees g := by
    cases j <;> rfl
  have hsources : (q.mapTrees f g).sources = q.sources.map (Source.mapTrees g) := by
    simp [Query.sources, Query.mapTrees, hjoin]
  rw [Query.namedSources, hsources]
  exact nameSources_mapTrees q.schema mode 0 q.sources

end Sources

theorem Query.emitSelect_congr {q q' : Query} (hlock : q'.lock = q.lock)
    (hdistinct : distinctText q'.distinct = distinctText q.distinct)
    (hclauses : q'.selectClauses (q'.namedSources .select) =
      q.selectClauses (q.namedSources .select)) : q'.emitSelect = q.emitSelect := by
  unfold emitSelect
  rw [hlock, hdistinct, hclauses]

/-- Two functions on trees after which everything is written as before. -/
structure KeepsText (f : Expr → Expr) (g : Fragment → Fragment) : Prop where
  expr : ∀ (sources : List NamedSource) (e : Expr),
    (f e).emit (sources.map (NamedSource.mapTrees g)) = e.emit sources
  fragment : ∀ (sources : List NamedSource) (b : Fragment),
    (g b).emit (sources.map (NamedSource.mapTrees g)) = b.emit sources

namespace KeepsText

variable {f : Expr → Expr} {g : Fragment → Fragment} (h : KeepsText f g)
  (sources : List NamedSource)

include h

theorem emitEach (es : List Expr) :
    LiteSql.emitEach (sources.map (NamedSource.mapTrees g)) (es.map f) =
      LiteSql.emitEach sources es := by
  induction es with
  | nil => rfl
  | cons e es ih => rw [List.map_cons, LiteSql.emitEach, LiteSql.emitEach, h.expr, ih]

theorem emitList (es : List Expr) :
    LiteSql.emitList (sources.map (NamedSource.mapTrees g)) (es.map f) =
      LiteSql.emitList sources es := by
  rw [LiteSql.emitList, LiteSql.emitList, h.emitEach]

theorem filterClause (keyword : String) (filters : List Expr) :
    LiteSql.filterClause keyword (sources.map (NamedSource.mapTrees g)) (filters.map f) =
      LiteSql.filterClause keyword sources filters := by
  cases filters with
  | nil => rfl
  | cons e es =>
      have heach := h.emitEach sources (e :: es)
      simp only [List.map_cons] at heach ⊢
      simp only [LiteSql.filterClause, heach]

theorem listClause (keyword : String) (es : List Expr) :
    LiteSql.listClause keyword (sources.map (NamedSource.mapTrees g)) (es.map f) =
      LiteSql.listClause keyword sources es := by
  cases es with
  | nil => rfl
  | cons e es =>
      have hlist := h.emitList sources (e :: es)
      simp only [List.map_cons] at hlist ⊢
      simp only [LiteSql.listClause, hlist]

theorem optionalClause (keyword : String) (e : Option Expr) :
    LiteSql.optionalClause keyword (sources.map (NamedSource.mapTrees g)) (e.map f) =
      LiteSql.optionalClause keyword sources e := by
  cases e with
  | none => rfl
  | some e => simp only [Option.map_some, LiteSql.optionalClause, h.expr]

theorem orderClause (terms : List OrderTerm) :
    LiteSql.orderClause (sources.map (NamedSource.mapTrees g)) (terms.map (OrderTerm.mapTrees f)) =
      LiteSql.orderClause sources terms := by
  have hterm (term : OrderTerm) : (term.mapTrees f).emit (sources.map (NamedSource.mapTrees g)) =
      term.emit sources := by
    simp only [OrderTerm.emit, OrderTerm.mapTrees, h.expr]
  have heach (ts : List OrderTerm) :
      Emit.forEach (OrderTerm.emit (sources.map (NamedSource.mapTrees g)))
        (ts.map (OrderTerm.mapTrees f)) = Emit.forEach (OrderTerm.emit sources) ts := by
    induction ts with
    | nil => rfl
    | cons t ts ih => simp only [List.map_cons, Emit.forEach, hterm, ih]
  cases terms with
  | nil => rfl
  | cons term terms =>
      have hterms := heach (term :: terms)
      simp only [List.map_cons] at hterms ⊢
      simp only [LiteSql.orderClause, hterms]

theorem projectionClause (projection : Option (List Expr)) :
    LiteSql.projectionClause (sources.map (NamedSource.mapTrees g)) (projection.map (List.map f)) =
      LiteSql.projectionClause sources projection := by
  match projection with
  | none => exact emit_row_mapTrees sources 0
  | some [] => rfl
  | some (e :: es) => exact h.emitList sources (e :: es)

theorem source (s : NamedSource) :
    (s.mapTrees g).emit (sources.map (NamedSource.mapTrees g)) = s.emit sources := by
  obtain ⟨source, handle, table⟩ := s
  cases source with
  | table name fields => rfl
  | fragment body =>
      show (do let sql ← (g body).emit (sources.map (NamedSource.mapTrees g))
               return Text.parenthesized sql ++ " AS ".toList ++ handle) = _
      rw [h.fragment]
      rfl

theorem join (position : Nat) (join : Join) :
    (join.mapTrees f g).emit (sources.map (NamedSource.mapTrees g)) position =
      join.emit sources position := by
  refine Emit.atSource_map sources position fun joined => ?_
  cases join with
  | conditional kind source condition =>
      simp only [Join.mapTrees, h.source, h.expr]
  | cross source => simp only [Join.mapTrees, h.source]
  | associated source association =>
      simp only [Join.mapTrees, h.source]
      congr 1
      funext _
      refine Emit.atSource_map sources association.owner.toNat fun owner => ?_
      rfl

theorem joins (position : Nat) (joins : List Join) :
    emitJoins (sources.map (NamedSource.mapTrees g)) position (joins.map (Join.mapTrees f g)) =
      emitJoins sources position joins := by
  induction joins generalizing position with
  | nil => rfl
  | cons join joins ih => rw [List.map_cons, emitJoins, emitJoins, h.join, ih]

theorem emitSelect (q : Query) : (q.mapTrees f g).emitSelect = q.emitSelect := by
  have hdistinct : distinctText (q.mapTrees f g).distinct = distinctText q.distinct := by
    show distinctText (q.distinct.map (Distinct.mapTrees f)) = distinctText q.distinct
    match q.distinct with
    | none | some (.flag _) | some (.exprs []) | some (.exprs (_ :: _)) => rfl
  have hsource : sourceClause ((q.namedSources .select).map (NamedSource.mapTrees g)) =
      sourceClause (q.namedSources .select) :=
    Emit.atSource_map _ 0 fun primary => by rw [h.source]
  have hclauses : (q.mapTrees f g).selectClauses
      ((q.namedSources .select).map (NamedSource.mapTrees g)) =
        q.selectClauses (q.namedSources .select) := by
    simp only [Query.selectClauses, Query.mapTrees, h.projectionClause, hsource, h.joins,
      h.filterClause, h.listClause, h.orderClause, h.optionalClause]
  refine Query.emitSelect_congr rfl hdistinct ?_
  rw [q.namedSources_mapTrees, hclauses]

end KeepsText

theorem Expr.asOperand_spellValues (e : Expr) : e.spellValues.asOperand = e.asOperand := by
  have hcompound : e.spellValues.isCompound = e.isCompound := by
    cases e <;> simp only [spellValues, isCompound]
  funext sql
  rw [asOperand, asOperand, hcompound]

/-- A list of bound values is a list of expressions, each of which binds one value. -/
theorem emitEach_params (sources : List NamedSource) (vs : List Value) :
    emitEach sources (vs.map .param) = Emit.bindValues vs := by
  induction vs with
  | nil => rfl
  | cons v vs ih => rw [List.map_cons, emitEach, Expr.emit, ih, Emit.bindValues]

section SpellValues

variable (sources : List NamedSource)

mutual

theorem Expr.emit_spellValues : ∀ e : Expr,
    e.spellValues.emit (sources.map (NamedSource.mapTrees Fragment.spellValues)) = e.emit sources
  | .field source column => by
      rw [Expr.spellValues, Expr.emit, Expr.emit]
      exact Emit.atSource_map sources source.toNat fun s => rfl
  | .row source => by
      rw [Expr.spellValues]
      exact emit_row_mapTrees sources source
  | .literal value => by rw [Expr.spellValues, Expr.emit, Expr.emit]
  | .param value => by rw [Expr.spellValues, Expr.emit, Expr.emit]
  | .binary op left right => by
      rw [Expr.spellValues, Expr.emit, Expr.emit, left.emit_spellValues, right.emit_spellValues,
        left.asOperand_spellValues, right.asOperand_spellValues]
  | .not inner => by rw [Expr.spellValues, Expr.emit, Expr.emit, inner.emit_spellValues]
  | .isNull inner => by
      rw [Expr.spellValues, Expr.emit, Expr.emit, inner.emit_spellValues,
        inner.asOperand_spellValues]
  | .cast inner target => by rw [Expr.spellValues, Expr.emit, Expr.emit, inner.emit_spellValues]
  | .isIn left right => by
      rw [Expr.spellValues, Expr.emit, Expr.emit, left.emit_spellValues, right.emit_spellValues,
        left.asOperand_spellValues]
  | .fragment body => by
      rw [Expr.spellValues, Expr.emit, Expr.emit]
      exact body.emit_spellValues
  | .call name args distinct => by
      rw [Expr.spellValues, Expr.emit, Expr.emit, emitEach_spellValues args]

theorem InList.emit_spellValues : ∀ l : InList,
    l.spellValues.emit (sources.map (NamedSource.mapTrees Fragment.spellValues)) = l.emit sources
  | .exprs items => by
      rw [InList.spellValues, InList.emit, InList.emit, emitEach_spellValues items]
  | .params values => by rw [InList.spellValues, InList.emit, InList.emit, emitEach_params]
  | .fragment body => by
      rw [InList.spellValues, InList.emit, InList.emit]
      exact body.emit_spellValues

theorem Fragment.emit_spellValues : ∀ b : Fragment,
    b.spellValues.emit (sources.map (NamedSource.mapTrees Fragment.spellValues)) = b.emit sources
  | .template sql args => by
      rw [Fragment.spellValues, Fragment.emit, Fragment.emit]
      exact emitSplices_spellValues sql sql.toList args
  | .keyword args => by rw [Fragment.spellValues, Fragment.emit, Fragment.emit]

theorem emitSplices_spellValues (template : String) (rest : Text) : ∀ args : List Expr,
    emitSplices (sources.map (NamedSource.mapTrees Fragment.spellValues)) template rest
      (spellValuesOfEach args) = emitSplices sources template rest args
  | [] => by rw [spellValuesOfEach, emitSplices, emitSplices]
  | arg :: args => by
      rw [spellValuesOfEach, emitSplices, emitSplices]
      split
      · rfl
      · rename_i before after _
        rw [arg.emit_spellValues, emitSplices_spellValues template after args]

theorem emitEach_spellValues : ∀ es : List Expr,
    emitEach (sources.map (NamedSource.mapTrees Fragment.spellValues)) (spellValuesOfEach es) =
      emitEach sources es
  | [] => by rw [spellValuesOfEach, emitEach, emitEach]
  | e :: es => by
      rw [spellValuesOfEach, emitEach, emitEach, e.emit_spellValues, emitEach_spellValues es]

end

end SpellValues

theorem spellValues_keepsText : KeepsText Expr.spellValues Fragment.spellValues :=
  ⟨Expr.emit_spellValues, Fragment.emit_spellValues⟩

/-- A list of texts is joined as if a separator stood before each of them and the first
one was dropped. Unlike `joined`, the text before dropping is that of each part. -/
theorem joined_eq_drop (separator : String) (ts : List Text) :
    Text.joined separator ts =
      (ts.flatMap (separator.toList ++ ·)).drop separator.toList.length := by
  cases ts with
  | nil => simp [Text.joined]
  | cons t ts => simp [Text.joined_cons]

theorem emitEach_append (sources : List NamedSource) (es es' : List Expr) :
    emitEach sources (es ++ es') = (do
      let ts ← emitEach sources es
      let ts' ← emitEach sources es'
      return ts ++ ts') := by
  induction es with
  | nil => simp [emitEach]
  | cons e es ih => simp [emitEach, ih]

theorem emitEach_fields {sources : List NamedSource} {index : UInt64} {s : NamedSource}
    (h : sourceAt sources index.toNat = .ok s) (fields : List String) :
    emitEach sources (fields.map (.field index)) = pure (fields.map s.column) := by
  induction fields with
  | nil => rfl
  | cons field fields ih =>
      rw [List.map_cons, emitEach, Expr.emit, h, ih]
      rfl

/-- The fields of a row are written as the row is, with a comma before each. -/
theorem Query.emitEach_spellRow (q : Query) (mode : NameMode) (e : Expr) :
    (do let ts ← emitEach (q.namedSources mode) (q.spellRow e)
        return ts.flatMap (", ".toList ++ ·)) =
      (do let t ← e.emit (q.namedSources mode)
          return ", ".toList ++ t) := by
  have hone (e : Expr) :
      (do let ts ← emitEach (q.namedSources mode) [e]
          return ts.flatMap (", ".toList ++ ·)) =
        (do let t ← e.emit (q.namedSources mode)
            return ", ".toList ++ t) := by
    simp [emitEach]
  cases e with
  | row index =>
      rw [Query.spellRow]
      split
      · rename_i name field fields hsource
        have hat := sourceAt_eq_ok mode hsource
        let s := (Source.table name (some (field :: fields))).named q.schema mode index.toNat
        have hrow : s.row = .ok (Text.joined ", " ((field :: fields).map s.column)) := rfl
        rw [emitEach_fields hat, Expr.emit, hat]
        show pure _ = Emit.ofExcept s.row >>= fun t => pure (", ".toList ++ t)
        rw [hrow, List.map_cons, Text.joined_cons]
        rfl
      · exact hone _
  | _ => exact hone _

theorem Query.emitList_spellRow (q : Query) (mode : NameMode) (es : List Expr) :
    emitList (q.namedSources mode) (es.flatMap q.spellRow) = emitList (q.namedSources mode) es := by
  have heach :
      (do let ts ← emitEach (q.namedSources mode) (es.flatMap q.spellRow)
          return ts.flatMap (", ".toList ++ ·)) =
        (do let ts ← emitEach (q.namedSources mode) es
            return ts.flatMap (", ".toList ++ ·)) := by
    induction es with
    | nil => rfl
    | cons e es ih =>
        have hrest (u : Text) :
            (do let ts ← emitEach (q.namedSources mode) (es.flatMap q.spellRow)
                return u ++ ts.flatMap (", ".toList ++ ·)) =
              (do let ts ← emitEach (q.namedSources mode) es
                  return u ++ ts.flatMap (", ".toList ++ ·)) := by
          have hu := congrArg (fun step => do let t ← step; return u ++ t) ih
          simpa only [bind_assoc, pure_bind] using hu
        have hfirst := congrArg (fun step => do
          let u ← step
          let ts ← emitEach (q.namedSources mode) es
          return u ++ ts.flatMap (", ".toList ++ ·)) (q.emitEach_spellRow mode e)
        simp only [bind_assoc, pure_bind] at hfirst
        simp only [List.flatMap_cons, emitEach_append, emitEach, bind_assoc, pure_bind,
          List.flatMap_append, hrest, hfirst]
  have hdrop := congrArg (fun step => do let t ← step; return t.drop ", ".toList.length) heach
  simpa [emitList, joined_eq_drop] using hdrop

theorem map_source_spellAssociations (position : Nat) (joins : List Join) :
    (spellAssociations position joins).map Join.source = joins.map Join.source := by
  induction joins generalizing position with
  | nil => rfl
  | cons join joins ih =>
      have hjoin : (join.spellAssociation position).source = join.source := by
        unfold Join.spellAssociation
        repeat' split
        all_goals rfl
      rw [spellAssociations, List.map_cons, List.map_cons, hjoin, ih]

theorem sourceAt_eq_ok_iff {sources : List NamedSource} {index : Nat} {s : NamedSource} :
    sourceAt sources index = .ok s ↔ sources[index]? = some s := by
  unfold sourceAt
  cases sources[index]? <;> simp

/-- The equation of two fields is written as the condition of the association. -/
theorem Association.emit_equation {sources : List NamedSource} {position : Nat}
    {joined owner : NamedSource} (a : Association) (hsize : position < UInt64.size)
    (hjoined : sourceAt sources position = .ok joined)
    (howner : sourceAt sources a.owner.toNat = .ok owner) :
    (a.equation (UInt64.ofNat position)).emit sources = pure (a.condition joined owner) := by
  have hposition : (UInt64.ofNat position).toNat = position := UInt64.toNat_ofNat_of_lt' hsize
  have hequation (column column' : String) :
      (Expr.eq (.field (UInt64.ofNat position) column) (.field a.owner column')).emit sources =
        pure (joined.column column ++ " = ".toList ++ owner.column column') := by
    simp only [Expr.eq, Expr.emit, hposition, hjoined, howner, Emit.ofExcept, pure_bind]
    simp [Expr.asOperand, Expr.isCompound, BinaryOp.symbol]
  unfold Association.equation Association.condition
  cases a.cardinality with
  | belongsTo => exact hequation a.key a.foreignKey
  | hasOne => exact hequation a.foreignKey a.key
  | hasMany => exact hequation a.foreignKey a.key

theorem Join.emit_spellAssociation (sources : List NamedSource) (position : Nat) (join : Join) :
    (join.spellAssociation position).emit sources position = join.emit sources position := by
  cases join with
  | conditional kind source condition => rfl
  | cross source => rfl
  | associated source a =>
      rw [Join.spellAssociation]
      split
      · rename_i h
        obtain ⟨hbefore, hsize⟩ := h
        unfold Join.emit
        cases hjoined : sourceAt sources position with
        | error e => rfl
        | ok joined =>
            -- The owner comes before a source of the statement, so it is one.
            have hlt : position < sources.length :=
              (List.getElem?_eq_some_iff.mp (sourceAt_eq_ok_iff.mp hjoined)).1
            have howner := sourceAt_eq_ok_iff.mpr
              (List.getElem?_eq_getElem (Nat.lt_trans hbefore hlt))
            have hfree : decide (position ≤ a.owner.toNat) = false := by simpa using hbefore
            simp only [a.emit_equation hsize hjoined howner, howner, hfree, JoinKind.keyword,
              Emit.refuseIf, Emit.ofExcept, pure_bind]
            simp
      · rfl

theorem emitJoins_spellAssociations (sources : List NamedSource) (position : Nat)
    (joins : List Join) :
    emitJoins sources position (spellAssociations position joins) =
      emitJoins sources position joins := by
  induction joins generalizing position with
  | nil => rfl
  | cons join joins ih =>
      rw [spellAssociations, emitJoins, emitJoins, join.emit_spellAssociation, ih]

theorem projectionClause_some {es : List Expr} (h : es ≠ []) (sources : List NamedSource) :
    projectionClause sources (some es) = emitList sources es := by
  cases es with
  | nil => exact absurd rfl h
  | cons e es => rfl

theorem Query.projectionClause_spellRow (q : Query) (mode : NameMode)
    (projection : Option (List Expr)) :
    projectionClause (q.namedSources mode) (projection.map (List.flatMap q.spellRow)) =
      projectionClause (q.namedSources mode) projection := by
  have hsome (e : Expr) : q.spellRow e ≠ [] := by
    unfold Query.spellRow
    repeat' split
    all_goals simp
  match projection with
  | none => rfl
  | some [] => rfl
  | some (e :: es) =>
      have hflat : (e :: es).flatMap q.spellRow ≠ [] := by simp [hsome]
      rw [Option.map_some, projectionClause_some hflat, q.emitList_spellRow]
      rfl

theorem projectionClause_getD (sources : List NamedSource) (projection : Option (List Expr)) :
    projectionClause sources (some (projection.getD [.row 0])) =
      projectionClause sources projection := by
  cases projection with
  | none => simp [projectionClause, emitList, emitEach, Text.joined]
  | some es => rfl

theorem Shorthand.emitSelect_spellOut (q : Query) (shorthand : Shorthand) :
    (shorthand.spellOut q).emitSelect = q.emitSelect := by
  cases shorthand with
  | valueLists => exact spellValues_keepsText.emitSelect q
  | projection =>
      refine Query.emitSelect_congr rfl rfl ?_
      simp only [Query.selectClauses, spellOut, projectionClause_getD]
      rfl
  | rows =>
      have hrows := q.projectionClause_spellRow .select q.projection
      refine Query.emitSelect_congr rfl rfl ?_
      simp only [Query.selectClauses, spellOut]
      rw [← hrows]
      rfl
  | associations =>
      have hsources :
          ({ q with joins := spellAssociations 1 q.joins } : Query).namedSources .select =
            q.namedSources .select := by
        simp only [Query.namedSources, Query.sources, map_source_spellAssociations]
      refine Query.emitSelect_congr rfl rfl ?_
      simp only [Query.selectClauses, spellOut, hsources, emitJoins_spellAssociations]

/-- A query is written as the same SELECT, or refused for the same reason, after any of
its shorthands are spelled out, in any order. -/
theorem compileSelect_spellOut (q : Query) (shorthands : List Shorthand) :
    (shorthands.foldl Shorthand.spellOut q).compileSelect = q.compileSelect := by
  induction shorthands generalizing q with
  | nil => rfl
  | cons shorthand shorthands ih =>
      rw [List.foldl_cons, ih, Query.compileSelect, shorthand.emitSelect_spellOut,
        Query.compileSelect]

end LiteSql
