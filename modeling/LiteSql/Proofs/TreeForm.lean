import LiteSql.Proofs.JsonForm
import LiteSql.Tree.Hint
import LiteSql.Tree.Query
import LiteSql.Tree.Schema

/-!
# Trees survive their JSON form

Reading the stored form of a query, of a schema change or of a hint gives back the tree
that was stored. `Survives` says what this means for a tree with values: it fails
exactly if a float is not finite, and it changes nothing but the sign of zero decimals
and leap seconds inside of a minute.
-/

namespace LiteSql

theorem Source.ofJson?_toJson (s : Source) :
    ofJson? s.toJson = ifFinite s.values (s.mapTrees (Fragment.mapValues Value.restored)) := by
  cases s with
  | table name fields =>
      show (do
        let fields ← Json.optional? (Json.list? Json.string?)
          (some (Json.ofOption Json.ofStrings fields))
        return Source.table name fields) = _
      rw [Json.optional?_ofOption_some (fun _ => Json.noConfusion) Json.list?_ofStrings]
      rfl
  | fragment body =>
      show (do return Source.fragment (← Fragment.ofJson? body.toJson)) = _
      rw [body.ofJson?_toJson]
      simp [values, mapTrees]

theorem JoinKind.ofJson?_toJson (kind : JoinKind) : ofJson? kind.toJson = some kind := by
  cases kind <;> rfl

theorem Cardinality.ofJson?_toJson (c : Cardinality) : ofJson? c.toJson = some c := by
  cases c <;> rfl

theorem SortOrder.ofJson?_toJson (o : SortOrder) : ofJson? o.toJson = some o := by
  cases o <;> rfl

theorem Association.ofJson?_toJson (a : Association) : ofJson? a.toJson = some a := by
  show (do
    let cardinality ← Cardinality.ofJson? a.cardinality.toJson
    let owner ← Json.uint64? (.int a.owner.toNat)
    return Association.mk cardinality owner a.foreignKey a.key) = _
  rw [a.cardinality.ofJson?_toJson, Json.uint64?_int]
  rfl

theorem Join.ofJson?_toJson (join : Join) :
    ofJson? join.toJson = ifFinite join.values
      (join.mapTrees (Expr.mapValues Value.restored)
        (Fragment.mapValues Value.restored)) := by
  cases join with
  | conditional kind source condition =>
      show (do
        let kind ← JoinKind.ofJson? kind.toJson
        let source ← Source.ofJson? source.toJson
        let condition ← Expr.ofJson? condition.toJson
        return Join.conditional kind source condition) = _
      rw [kind.ofJson?_toJson, source.ofJson?_toJson, condition.ofJson?_toJson]
      simp [values, mapTrees]
  | cross source =>
      show (do return Join.cross (← Source.ofJson? source.toJson)) = _
      rw [source.ofJson?_toJson]
      simp [values, mapTrees]
  | associated source association =>
      show (do
        let source ← Source.ofJson? source.toJson
        let association ← Association.ofJson? association.toJson
        return Join.associated source association) = _
      rw [source.ofJson?_toJson, association.ofJson?_toJson]
      simp [values, mapTrees]

theorem OrderTerm.ofJson?_toJson (term : OrderTerm) :
    ofJson? term.toJson =
      ifFinite term.values (term.mapTrees (Expr.mapValues Value.restored)) := by
  show (do
    let expr ← Expr.ofJson? term.expr.toJson
    let direction ← SortOrder.ofJson? term.direction.toJson
    return OrderTerm.mk expr direction) = _
  rw [term.expr.ofJson?_toJson, term.direction.ofJson?_toJson]
  simp [values, mapTrees]

theorem Distinct.ofJson?_toJson (d : Distinct) :
    ofJson? d.toJson = ifFinite d.values (d.mapTrees (Expr.mapValues Value.restored)) := by
  cases d with
  | flag on? => rfl
  | exprs items =>
      show (do return Distinct.exprs (← Json.list? Expr.ofJson? (.array (exprsToJson items)))) = _
      rw [exprs_ofJson?_toJson]
      simp [values, mapTrees]

theorem Distinct.toJson_ne_null (d : Distinct) : d.toJson ≠ .null := by
  cases d <;> exact Json.noConfusion

theorem Assignment.ofParts?_partsToJson (field : String) (value : Expr) :
    ofParts? (partsToJson field value) =
      ifFinite value.values (field, value.mapValues Value.restored) := by
  show (do return (field, ← Expr.ofJson? value.toJson)) = _
  rw [value.ofJson?_toJson]
  simp

theorem Assignment.ofJson?_toJson (a : Assignment) :
    ofJson? a.toJson = ifFinite a.values (a.mapTrees (Expr.mapValues Value.restored)) := by
  have hparts (make : String × Expr → Assignment) (field : String) (value : Expr) :
      (do return make (← ofParts? (partsToJson field value))) =
        ifFinite value.values (make (field, value.mapValues Value.restored)) := by
    rw [ofParts?_partsToJson]
    simp
  cases a with
  | set field value => exact hparts (fun p => .set p.1 p.2) field value
  | increment field value => exact hparts (fun p => .increment p.1 p.2) field value
  | push field value => exact hparts (fun p => .push p.1 p.2) field value
  | pull field value => exact hparts (fun p => .pull p.1 p.2) field value

theorem Query.ofJson?_toJson (q : Query) :
    ofJson? q.toJson = ifFinite q.values (q.mapValues Value.restored) := by
  show (do
    let schema ← Json.optional? Json.string? (some (Json.ofOption .string q.schema))
    let source ← Source.ofJson? q.source.toJson
    let joins ← Json.list? Join.ofJson? (.array (q.joins.map Join.toJson))
    let projection ← Json.optional? (Json.list? Expr.ofJson?)
      (some (Json.ofOption (fun es => .array (exprsToJson es)) q.projection))
    let distinct ← Json.optional? Distinct.ofJson? (some (Json.ofOption Distinct.toJson q.distinct))
    let filters ← Json.list? Expr.ofJson? (.array (exprsToJson q.filters))
    let assignments ← Json.list? Assignment.ofJson? (.array (q.assignments.map Assignment.toJson))
    let groups ← Json.list? Expr.ofJson? (.array (exprsToJson q.groups))
    let groupFilters ← Json.list? Expr.ofJson? (.array (exprsToJson q.groupFilters))
    let ordering ← Json.list? OrderTerm.ofJson? (.array (q.ordering.map OrderTerm.toJson))
    let limit ← Json.optional? Expr.ofJson? (some (Json.ofOption Expr.toJson q.limit))
    let offset ← Json.optional? Expr.ofJson? (some (Json.ofOption Expr.toJson q.offset))
    let lock ← Json.optional? Json.string? (some (Json.ofOption .string q.lock))
    return Query.mk schema source joins projection distinct filters assignments groups
      groupFilters ordering limit offset lock) = _
  simp only [Json.optional?_ofString, q.source.ofJson?_toJson, exprs_ofJson?_toJson,
    Json.list?_map Join.ofJson?_toJson, Json.list?_map OrderTerm.ofJson?_toJson,
    Json.list?_map Assignment.ofJson?_toJson,
    Json.optional?_ofOption (fun _ => Json.noConfusion) exprs_ofJson?_toJson,
    Json.optional?_ofOption Distinct.toJson_ne_null Distinct.ofJson?_toJson,
    Json.optional?_ofOption Expr.toJson_ne_null Expr.ofJson?_toJson, ↓Option.bind_eq_bind,
    ↓Option.bind_some, Option.pure_def, bind_ifFinite, bind_ifFinite_some]
  rfl

theorem Table.ofJson?_toJson (t : Table) : ofJson? t.toJson = some t := by
  show (do
    let schema ← Json.optional? Json.string? (some (Json.ofOption .string t.name.schema))
    let options ← Json.optional? Json.string? (some (Json.ofOption .string t.options))
    return Table.mk ⟨schema, t.name.name⟩ options) = _
  rw [Json.optional?_ofString, Json.optional?_ofString]
  rfl

theorem ColumnDefault.ofJson?_toJson (d : ColumnDefault) :
    ofJson? d.toJson = ifFinite d.values (d.mapValues Value.restored) := by
  cases d with
  | value v =>
      show (do return ColumnDefault.value (← Value.ofJson? v.toJson)) = _
      rw [v.ofJson?_toJson]
      simp [values, mapValues]
  | raw sql => rfl

theorem ColumnDefault.toJson_ne_null (d : ColumnDefault) : d.toJson ≠ .null := by
  cases d <;> exact Json.noConfusion

theorem ColumnOptions.ofJson?_toJson (o : ColumnOptions) :
    ofJson? o.toJson = ifFinite o.values (o.mapValues Value.restored) := by
  show (do
    let default ← Json.optional? ColumnDefault.ofJson?
      (some (Json.ofOption ColumnDefault.toJson o.default?))
    let nullable ← Json.optional? Json.bool? (some (Json.ofOption .bool o.nullable))
    let size ← Json.optional? Json.uint32?
      (some (Json.ofOption (fun n : UInt32 => .int n.toNat) o.size))
    let precision ← Json.optional? Json.uint32?
      (some (Json.ofOption (fun n : UInt32 => .int n.toNat) o.precision))
    let scale ← Json.optional? Json.uint32?
      (some (Json.ofOption (fun n : UInt32 => .int n.toNat) o.scale))
    return ColumnOptions.mk default nullable size precision scale o.primaryKey) = _
  have hnumber := @Json.optional?_ofOption_some _ (fun n : UInt32 => .int n.toNat) Json.uint32?
    (fun _ => Json.noConfusion) Json.uint32?_int
  rw [Json.optional?_ofOption ColumnDefault.toJson_ne_null ColumnDefault.ofJson?_toJson,
    Json.optional?_ofOption_some (fun _ => Json.noConfusion) Json.bool?_bool, hnumber, hnumber,
    hnumber]
  simp [values, mapValues]

theorem OnDelete.ofJson?_toJson (action : OnDelete) : ofJson? action.toJson = some action := by
  cases action <;> rfl

theorem Reference.ofJson?_toJson (r : Reference) : ofJson? r.toJson = some r := by
  show (do
    let constraint ← Json.optional? Json.string? (some (Json.ofOption .string r.constraint))
    let onDelete ← OnDelete.ofJson? r.onDelete.toJson
    let schema ← Json.optional? Json.string? (some (Json.ofOption .string r.schema))
    let type ← ColumnType.ofJson? r.type.toJson
    return Reference.mk r.table r.column constraint onDelete schema type) = _
  rw [Json.optional?_ofString, Json.optional?_ofString, r.onDelete.ofJson?_toJson,
    r.type.ofJson?_toJson]
  rfl

theorem ColumnSpec.ofJson?_toJson (spec : ColumnSpec) : ofJson? spec.toJson = some spec := by
  cases spec with
  | type t =>
      show (do return ColumnSpec.type (← ColumnType.ofJson? t.toJson)) = _
      rw [t.ofJson?_toJson]
      rfl
  | references r =>
      show (do return ColumnSpec.references (← Reference.ofJson? r.toJson)) = _
      rw [r.ofJson?_toJson]
      rfl

theorem ColumnChange.ofParts?_partsToJson (name : String) (spec : ColumnSpec)
    (options : ColumnOptions) :
    ofParts? (partsToJson name spec options) =
      ifFinite options.values (name, spec, options.mapValues Value.restored) := by
  show (do
    let spec ← ColumnSpec.ofJson? spec.toJson
    let options ← ColumnOptions.ofJson? options.toJson
    return (name, spec, options)) = _
  rw [spec.ofJson?_toJson, options.ofJson?_toJson]
  simp

theorem ColumnChange.ofJson?_toJson (change : ColumnChange) :
    ofJson? change.toJson = ifFinite change.values (change.mapValues Value.restored) := by
  have hparts (make : String × ColumnSpec × ColumnOptions → ColumnChange) (name : String)
      (spec : ColumnSpec) (options : ColumnOptions) :
      (do return make (← ofParts? (partsToJson name spec options))) =
        ifFinite options.values (make (name, spec, options.mapValues Value.restored)) := by
    rw [ofParts?_partsToJson]
    simp
  cases change with
  | add name spec options => exact hparts (fun p => .add p.1 p.2.1 p.2.2) name spec options
  | modify name spec options => exact hparts (fun p => .modify p.1 p.2.1 p.2.2) name spec options
  | remove name => rfl
  | rename old new => rfl

theorem IndexColumn.ofJson?_toJson (column : IndexColumn) :
    ofJson? column.toJson = some column := by
  cases column <;> rfl

theorem Index.ofJson?_toJson (i : Index) : ofJson? i.toJson = some i := by
  show (do
    let schema ← Json.optional? Json.string? (some (Json.ofOption .string i.table.schema))
    let columns ← Json.list? IndexColumn.ofJson? (.array (i.columns.map IndexColumn.toJson))
    let predicate ← Json.optional? Json.string? (some (Json.ofOption .string i.predicate))
    return Index.mk i.name ⟨schema, i.table.name⟩ columns i.unique predicate) = _
  rw [Json.optional?_ofString, Json.optional?_ofString,
    Json.list?_map_some IndexColumn.ofJson?_toJson]
  rfl

theorem SchemaChange.ofJson?_toJson (change : SchemaChange) :
    ofJson? change.toJson = ifFinite change.values (change.mapValues Value.restored) := by
  cases change with
  | createTable table columns flag =>
      show (do
        let table ← Table.ofJson? table.toJson
        let columns ← Json.list? ColumnChange.ofJson? (.array (columns.map ColumnChange.toJson))
        return SchemaChange.createTable table columns flag) = _
      rw [table.ofJson?_toJson, Json.list?_map ColumnChange.ofJson?_toJson]
      simp [values, mapValues]
  | alterTable table changes =>
      show (do
        let table ← Table.ofJson? table.toJson
        let changes ← Json.list? ColumnChange.ofJson? (.array (changes.map ColumnChange.toJson))
        return SchemaChange.alterTable table changes) = _
      rw [table.ofJson?_toJson, Json.list?_map ColumnChange.ofJson?_toJson]
      simp [values, mapValues]
  | dropTable table flag =>
      show (do return SchemaChange.dropTable (← Table.ofJson? table.toJson) flag) = _
      rw [table.ofJson?_toJson]
      rfl
  | renameTable old new =>
      show (do
        let old ← Table.ofJson? old.toJson
        let new ← Table.ofJson? new.toJson
        return SchemaChange.renameTable old new) = _
      rw [old.ofJson?_toJson, new.ofJson?_toJson]
      rfl
  | createIndex index flag =>
      show (do return SchemaChange.createIndex (← Index.ofJson? index.toJson) flag) = _
      rw [index.ofJson?_toJson]
      rfl
  | dropIndex index flag =>
      show (do return SchemaChange.dropIndex (← Index.ofJson? index.toJson) flag) = _
      rw [index.ofJson?_toJson]
      rfl
  | raw sql => rfl

theorem Operation.ofJson?_toJson (operation : Operation) :
    ofJson? operation.toJson = some operation := by
  cases operation <;> rfl

theorem ReturningHint.ofJson?_toJson (h : ReturningHint) : ofJson? h.toJson = some h := by
  show (do
    let operation ← Operation.ofJson? h.operation.toJson
    let schema ← Json.optional? Json.string? (some (Json.ofOption .string h.table.schema))
    let columns ← Json.list? Json.string? (Json.ofStrings h.columns)
    return ReturningHint.mk operation ⟨schema, h.table.name⟩ columns) = _
  rw [h.operation.ofJson?_toJson, Json.optional?_ofString, Json.list?_ofStrings]
  rfl

/-- Whether the value is a zero decimal with a sign. -/
def Value.isNegativeZero : Value → Bool
  | .decimal d => d.negative && d.coefficient == 0
  | _ => false

theorem Value.restored_eq_self_iff (v : Value) :
    v.restored = v ↔ v.isNegativeZero = false ∧ v.isInnerLeap = false := by
  cases v with
  | decimal d =>
      obtain ⟨negative, coefficient, scale, _, _⟩ := d
      cases negative <;> simp [restored, Decimal.unsignedZero, isNegativeZero, isInnerLeap]
  | time t => simp [restored, shown_eq_self_iff, isNegativeZero]
  | dateTime dt => simp [restored, shown_eq_self_iff, isNegativeZero]
  | _ => simp [restored, shown, isNegativeZero, isInnerLeap]

/-- What reading gives back of a stored tree `t` with the given values: nothing exactly
if some float is not finite, and else the tree with its values restored. This is the tree
itself exactly if no decimal is a zero with a sign and no time lies in a leap second inside
of a minute. -/
structure Survives {α : Type} (t : α) (values : List Value) (restored : α) (read : Option α) :
    Prop where
  eq_none_iff : read = none ↔ ∃ v ∈ values, v.isFinite = false
  eq_some : (∀ v ∈ values, v.isFinite) → read = some restored
  eq_self_iff : read = some t ↔
    ∀ v ∈ values, v.isFinite ∧ v.isNegativeZero = false ∧ v.isInnerLeap = false

theorem Survives.of_ifFinite {α : Type} {t restored : α} {values : List Value} {read : Option α}
    (hread : read = ifFinite values restored)
    (hself : restored = t ↔ ∀ v ∈ values, v.restored = v) :
    Survives t values restored read where
  eq_none_iff := by rw [hread, ifFinite_eq_none_iff]
  eq_some hfinite := by rw [hread, ifFinite_eq_some_iff.mpr ⟨hfinite, rfl⟩]
  eq_self_iff := by
    simp only [Value.restored_eq_self_iff] at hself
    rw [hread, ifFinite_eq_some_iff, hself]
    constructor
    · rintro ⟨hfinite, hrestored⟩ v hv
      exact ⟨hfinite v hv, hrestored v hv⟩
    · intro h
      exact ⟨fun v hv => (h v hv).1, fun v hv => (h v hv).2⟩

/-- A value, a query, a schema change and a hint are read back from their stored form,
up to the sign of zero decimals and leap seconds inside of a minute, unless one of the
floats inside is not finite. -/
theorem tree_survives :
    (∀ v : Value, Survives v [v] v.restored (Value.ofJson? v.toJson)) ∧
    (∀ q : Query,
      Survives q q.values (q.mapValues Value.restored) (Query.ofJson? q.toJson)) ∧
    (∀ change : SchemaChange, Survives change change.values
      (change.mapValues Value.restored) (SchemaChange.ofJson? change.toJson)) ∧
    ∀ h : ReturningHint, ReturningHint.ofJson? h.toJson = some h := by
  refine ⟨fun v => ?_, fun q => ?_, fun change => ?_, ReturningHint.ofJson?_toJson⟩
  · exact .of_ifFinite v.ofJson?_toJson (by simp)
  · exact .of_ifFinite q.ofJson?_toJson (q.mapValues_eq_self_iff _)
  · exact .of_ifFinite change.ofJson?_toJson (change.mapValues_eq_self_iff _)

/-- The leap second after 23:56:04 comes back as 23:56:05. -/
example : Value.ofJson? (Value.time ⟨86164, 1333333333, by decide, by decide⟩).toJson =
    some (.time ⟨86165, 333333333, by decide, by decide⟩) := by
  rw [Value.ofJson?_toJson]
  rfl

/-- The zero that rounding leaves over of a small negative number. -/
def Decimal.negativeZero : Decimal :=
  ⟨true, 0, 28, by decide, by decide⟩

/-- A zero with a sign can be read from a text with an exponent, and it is not read back
from its own text. -/
theorem negative_zero_loses_sign :
    Value.ofJson? (.variant "decimal" (.string "-0.4e-28")) = some (.decimal .negativeZero) ∧
      (Value.decimal .negativeZero).isFinite ∧
      Value.ofJson? (Value.decimal .negativeZero).toJson ≠ some (.decimal .negativeZero) := by
  refine ⟨by decide +kernel, rfl, ?_⟩
  rw [Value.ofJson?_toJson]
  decide

end LiteSql
