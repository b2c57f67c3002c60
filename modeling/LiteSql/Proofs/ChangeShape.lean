import LiteSql.Proofs.FirstError
import LiteSql.Statement.Change
import Mathlib.Data.List.Basic

/-!
# The shape of schema changes that are accepted

`SchemaChange.violations` lists all that a schema change is refused for, in the order in
which it is looked for. A new table is looked through several times: for directives that
add no column, for a second primary key and for types without a name. A table that is
altered is looked through once, and every change is judged as a whole. The result of
writing a change reflects its list, so a change is written exactly if it has the shape
that leaves nothing to refuse.
-/

namespace LiteSql

/-- The type that a column is given. -/
def ColumnSpec.declaredType : ColumnSpec → ColumnType
  | .type t => t
  | .references r => r.type

namespace ColumnChange

def IsAdd : ColumnChange → Prop
  | .add .. => True
  | _ => False

/-- A column that counts, and so is a primary key by its type. -/
def IsCounting : ColumnChange → Prop
  | .add _ spec _ => spec = .type .serial
  | _ => False

/-- A column that is a primary key by its options. -/
def IsKey : ColumnChange → Prop
  | .add _ spec options => spec ≠ .type .serial ∧ options.primaryKey = true
  | _ => False

def IsArray : ColumnChange → Prop
  | .add _ spec _ => spec.declaredType.isArray = true
  | _ => False

/-- A column that can be added to a table that exists. -/
def FitsAlter : ColumnChange → Prop
  | .add _ spec options =>
    options.primaryKey = false ∧ spec ≠ .type .serial ∧ spec.declaredType.isArray = false
  | _ => False

instance : DecidablePred IsCounting
  | .add _ spec _ => inferInstanceAs (Decidable (spec = .type .serial))
  | .modify .. | .remove .. | .rename .. => .isFalse id

instance : DecidablePred IsKey
  | .add _ spec options =>
    inferInstanceAs (Decidable (spec ≠ .type .serial ∧ options.primaryKey = true))
  | .modify .. | .remove .. | .rename .. => .isFalse id

/-- The wording for a directive that adds no column. -/
def refusalText? : ColumnChange → Option String
  | .add .. => none
  | .modify .. => some "ALTER COLUMN not supported by SQLite"
  | .rename .. => some "RENAME COLUMN not supported by SQLite"
  | .remove .. => some "DROP COLUMN not supported by SQLite"

def directiveViolations : ColumnChange → List Error
  | .add .. => []
  | .modify .. => [.unsupported .alterColumn]
  | .rename .. => [.unsupported .renameColumn]
  | .remove .. => [.unsupported .dropColumn]

def typeViolations : ColumnChange → List Error
  | .add _ spec _ => if spec.declaredType.isArray then [.unsupported .arrayType] else []
  | _ => []

/-- What a change of a table that exists is refused for. -/
def alterViolations : ColumnChange → List Error
  | .add name spec options =>
    (if options.primaryKey ∨ spec = .type .serial then [.unsupported (.addedPrimaryKey name)]
      else []) ++ (ColumnChange.add name spec options).typeViolations
  | change => change.directiveViolations

end ColumnChange

/-- Whether counting columns stand beside other columns of a primary key. -/
def CombinesKeys (columns : List ColumnChange) : Prop :=
  (∃ column ∈ columns, column.IsCounting) ∧ ∃ column ∈ columns, column.IsKey

instance : DecidablePred CombinesKeys :=
  fun _ => inferInstanceAs (Decidable (_ ∧ _))

/-- All that keeps columns from making up a new table, in order. -/
def createViolations (columns : List ColumnChange) : List Error :=
  (if columns = [] then [.invalid .createWithoutColumn] else []) ++
  (columns.flatMap ColumnChange.directiveViolations ++
  ((if CombinesKeys columns then [.unsupported .combinedPrimaryKey] else []) ++
  columns.flatMap ColumnChange.typeViolations))

/-- All that a schema change is refused for, in order. -/
def SchemaChange.violations : SchemaChange → List Error
  | .createTable _ columns _ => createViolations columns
  | .alterTable _ changes =>
    (if changes = [] then [.invalid .alterWithoutChange] else []) ++
      changes.flatMap ColumnChange.alterViolations
  | .createIndex index _ =>
    if index.columns = [] then [.invalid (.indexWithoutColumn index.name)] else []
  | .dropTable .. | .renameTable .. | .dropIndex .. | .raw _ => []

/-- The columns that make up a new table. -/
structure FitsCreate (columns : List ColumnChange) : Prop where
  nonempty : columns ≠ []
  adds : ∀ column ∈ columns, column.IsAdd
  key : ¬ CombinesKeys columns
  types : ∀ column ∈ columns, ¬ column.IsArray

/-- The shape of a schema change that can be written. -/
def SchemaChange.Fits : SchemaChange → Prop
  | .createTable _ columns _ => FitsCreate columns
  | .alterTable _ changes => changes ≠ [] ∧ ∀ change ∈ changes, change.FitsAlter
  | .createIndex index _ => index.columns ≠ []
  | .dropTable .. | .renameTable .. | .dropIndex .. | .raw _ => True

theorem ColumnType.definition_reflects (type : ColumnType) (precision scale : Option UInt32) :
    Reflects (type.definition precision scale)
      (if type.isArray then [.unsupported .arrayType] else []) := by
  cases type with
  | array item => exact .error _ []
  | decimal => cases precision <;> exact .ok _
  | _ => exact .ok _

theorem ColumnSpec.isArray_columnType (spec : ColumnSpec) :
    spec.columnType.isArray = spec.declaredType.isArray := by
  cases spec with
  | type t => rfl
  | references r =>
      cases h : r.type <;>
        simp [ColumnSpec.columnType, ColumnSpec.declaredType, h, ColumnType.isArray]

theorem ColumnSpec.isSerial_iff (spec : ColumnSpec) : spec.isSerial ↔ spec = .type .serial := by
  unfold ColumnSpec.isSerial
  split
  · simp
  · rename_i hother
    simpa using hother

theorem columnDefinition_reflects (table : Table) (inlineKey : Bool) (name : String)
    (spec : ColumnSpec) (options : ColumnOptions) :
    Reflects (columnDefinition table inlineKey name spec options)
      (ColumnChange.add name spec options).typeViolations := by
  have htype := spec.columnType.definition_reflects options.precision options.scale
  rw [spec.isArray_columnType] at htype
  exact htype.map _

theorem columnDefinitions_reflects (table : Table) (inlineKey : Bool)
    (columns : List ColumnChange) :
    Reflects (columnDefinitions table inlineKey columns)
      (columns.flatMap ColumnChange.typeViolations) := by
  induction columns with
  | nil => exact .ok []
  | cons column columns ih =>
      cases column with
      | add name spec options =>
          exact (columnDefinition_reflects table inlineKey name spec options).bind fun first =>
            ih.map (first :: ·)
      | modify name spec options => exact ih
      | remove name => exact ih
      | rename old new => exact ih

/-- The first directive that adds no column decides. -/
theorem head?_directiveViolations (columns : List ColumnChange) :
    (columns.flatMap ColumnChange.directiveViolations).head? =
      (columns.findSome? ColumnChange.refusal?).map .unsupported := by
  induction columns with
  | nil => rfl
  | cons column columns ih =>
      cases column with
      | add name spec options => exact ih
      | modify name spec options => rfl
      | remove name => rfl
      | rename old new => rfl

theorem any_isSerial_iff (columns : List ColumnChange) :
    columns.any ColumnChange.isSerial ↔ ∃ column ∈ columns, column.IsCounting := by
  rw [List.any_eq_true]
  refine exists_congr fun column => and_congr_right fun _ => ?_
  cases column with
  | add name spec options => exact spec.isSerial_iff
  | _ => simp [ColumnChange.isSerial, ColumnChange.IsCounting]

theorem primaryKeyColumns_ne_nil_iff (columns : List ColumnChange) :
    primaryKeyColumns columns ≠ [] ↔ ∃ column ∈ columns, column.IsKey := by
  induction columns with
  | nil => simp [primaryKeyColumns]
  | cons column columns ih =>
      rw [List.exists_mem_cons_iff, ← ih]
      cases column with
      | add name spec options =>
          cases hserial : spec.isSerial with
          | true =>
              obtain rfl := spec.isSerial_iff.mp hserial
              simp [primaryKeyColumns, ColumnChange.IsKey, hserial]
          | false =>
              have hspec : spec ≠ .type .serial := mt spec.isSerial_iff.mpr (by simp [hserial])
              cases hkey : options.primaryKey <;>
                simp [primaryKeyColumns, ColumnChange.IsKey, hserial, hspec, hkey]
      | _ => simp [primaryKeyColumns, ColumnChange.IsKey]

theorem createTable_reflects (table : Table) (columns : List ColumnChange) (ifNotExists : Bool) :
    Reflects (createTable table columns ifNotExists) (createViolations columns) := by
  have hkeys : (columns.any ColumnChange.isSerial && !(primaryKeyColumns columns).isEmpty) ↔
      CombinesKeys columns := by
    rw [Bool.and_eq_true, any_isSerial_iff, Bool.not_eq_true', List.isEmpty_eq_false_iff,
      primaryKeyColumns_ne_nil_iff, CombinesKeys]
  have hhead := head?_directiveViolations columns
  unfold createTable createViolations
  refine .check List.isEmpty_iff ?_
  cases hrefusal : columns.findSome? ColumnChange.refusal? with
  | some reason =>
      rw [hrefusal] at hhead
      obtain ⟨es, hes⟩ := List.head?_eq_some_iff.mp hhead
      rw [hes]
      exact .error _ _
  | none =>
      rw [hrefusal] at hhead
      rw [List.head?_eq_none_iff.mp hhead, List.nil_append]
      exact .check hkeys ((columnDefinitions_reflects table _ columns).map _)

theorem alterColumn_reflects (table : Table) (change : ColumnChange) :
    Reflects (alterColumn table change) change.alterViolations := by
  cases change with
  | add name spec options =>
      have hkey : (options.primaryKey || spec.isSerial) ↔
          options.primaryKey ∨ spec = .type .serial := by
        rw [Bool.or_eq_true, spec.isSerial_iff]
      exact .check hkey ((columnDefinition_reflects table false name spec options).map _)
  | modify name spec options => exact .error _ []
  | remove name => exact .error _ []
  | rename old new => exact .error _ []

theorem alterColumns_reflects (table : Table) (changes : List ColumnChange) :
    Reflects (alterColumns table changes) (changes.flatMap ColumnChange.alterViolations) := by
  induction changes with
  | nil => exact .ok []
  | cons change changes ih =>
      exact (alterColumn_reflects table change).bind fun first => ih.map (first :: ·)

theorem SchemaChange.compile_reflects (change : SchemaChange) :
    Reflects change.compile change.violations := by
  refine Reflects.map ?_ _
  cases change with
  | createTable table columns ifNotExists => exact createTable_reflects table columns ifNotExists
  | alterTable table changes =>
      exact .check List.isEmpty_iff ((alterColumns_reflects table changes).map _)
  | createIndex index ifNotExists =>
      have hcheck : Reflects (LiteSql.createIndex index ifNotExists)
          ((if index.columns = [] then [.invalid (.indexWithoutColumn index.name)] else []) ++
            []) :=
        .check List.isEmpty_iff (.ok _)
      rwa [List.append_nil] at hcheck
  | dropTable table ifExists => exact .ok _
  | renameTable old new => exact .ok _
  | dropIndex index ifExists => exact .ok _
  | raw sql => exact .ok _

theorem ColumnChange.directiveViolations_eq_nil_iff (change : ColumnChange) :
    change.directiveViolations = [] ↔ change.IsAdd := by
  cases change <;> simp [directiveViolations, IsAdd]

theorem ColumnChange.typeViolations_eq_nil_iff (change : ColumnChange) :
    change.typeViolations = [] ↔ ¬ change.IsArray := by
  cases change <;> simp [typeViolations, IsArray]

theorem ColumnChange.alterViolations_eq_nil_iff (change : ColumnChange) :
    change.alterViolations = [] ↔ change.FitsAlter := by
  cases change with
  | add name spec options =>
      rw [alterViolations, List.append_eq_nil_iff, typeViolations_eq_nil_iff]
      simp [FitsAlter, IsArray, and_assoc]
  | _ => simp [alterViolations, directiveViolations, FitsAlter]

theorem createViolations_eq_nil_iff (columns : List ColumnChange) :
    createViolations columns = [] ↔ FitsCreate columns := by
  simp only [createViolations, List.append_eq_nil_iff, List.flatMap_eq_nil_iff,
    ColumnChange.directiveViolations_eq_nil_iff, ColumnChange.typeViolations_eq_nil_iff,
    ite_eq_right_iff, List.cons_ne_nil, imp_false]
  constructor
  · rintro ⟨hsome, hadds, hkey, htypes⟩
    exact ⟨hsome, hadds, hkey, htypes⟩
  · rintro ⟨hsome, hadds, hkey, htypes⟩
    exact ⟨hsome, hadds, hkey, htypes⟩

theorem SchemaChange.violations_eq_nil_iff (change : SchemaChange) :
    change.violations = [] ↔ change.Fits := by
  cases change with
  | createTable table columns ifNotExists => exact createViolations_eq_nil_iff columns
  | alterTable table changes =>
      simp [violations, Fits, ColumnChange.alterViolations_eq_nil_iff]
  | createIndex index ifNotExists => simp [violations, Fits]
  | dropTable table ifExists => exact iff_of_true rfl trivial
  | renameTable old new => exact iff_of_true rfl trivial
  | dropIndex index ifExists => exact iff_of_true rfl trivial
  | raw sql => exact iff_of_true rfl trivial

/-- A directive that adds no column is refused in its own words. -/
theorem ColumnChange.exists_directiveViolation {change : ColumnChange} {text : String}
    (h : change.refusalText? = some text) :
    ∃ e, change.directiveViolations = [e] ∧ e.isUnsupported ∧ e.message = text.toList := by
  cases change with
  | add name spec options => cases h
  | modify name spec options =>
      cases h
      exact ⟨_, rfl, rfl, rfl⟩
  | remove name =>
      cases h
      exact ⟨_, rfl, rfl, rfl⟩
  | rename old new =>
      cases h
      exact ⟨_, rfl, rfl, rfl⟩

/-- Where nothing is found before an item, its own first violation is the first one. -/
theorem flatMap_violations_eq {f : ColumnChange → List Error} {before after : List ColumnChange}
    {change : ColumnChange} {e : Error} (hbefore : ∀ c ∈ before, f c = []) (he : f change = [e]) :
    (before ++ change :: after).flatMap f = e :: after.flatMap f := by
  rw [List.flatMap_append, List.flatMap_eq_nil_iff.mpr hbefore, List.flatMap_cons, he]
  rfl

/-- A schema change is written exactly if it has the right shape, and otherwise the first
violation is reported. A directive that adds no column is refused in its own words: in a
new table wherever it stands, unless another such directive comes before it, and in an
altered table unless a change before it is refused. -/
theorem schemaChange_ok_iff_fits :
    (∀ change : SchemaChange, ((∃ c, change.compile = .ok c) ↔ change.Fits) ∧
      ∀ e, change.compile = .error e ↔ change.violations.head? = some e) ∧
    ∀ (table : Table) (before after : List ColumnChange) (change : ColumnChange) (text : String),
      change.refusalText? = some text →
        ((∀ c ∈ before, c.IsAdd) → ∀ ifNotExists, ∃ e,
          (SchemaChange.createTable table (before ++ change :: after) ifNotExists).compile =
            .error e ∧ e.isUnsupported ∧ e.message = text.toList) ∧
        ((∀ c ∈ before, c.FitsAlter) → ∃ e,
          (SchemaChange.alterTable table (before ++ change :: after)).compile = .error e ∧
            e.isUnsupported ∧ e.message = text.toList) := by
  refine ⟨fun change => ⟨?_, fun e => change.compile_reflects.eq_error_iff e⟩, ?_⟩
  · rw [← change.violations_eq_nil_iff]
    exact change.compile_reflects.exists_ok_iff
  · intro table before after change text htext
    obtain ⟨e, hviolation, hunsupported, hmessage⟩ := change.exists_directiveViolation htext
    refine ⟨fun hbefore ifNotExists => ⟨e, ?_, hunsupported, hmessage⟩,
      fun hbefore => ⟨e, ?_, hunsupported, hmessage⟩⟩
    · have hadds : ∀ c ∈ before, c.directiveViolations = [] := fun c hc =>
        c.directiveViolations_eq_nil_iff.mpr (hbefore c hc)
      rw [(SchemaChange.compile_reflects _).eq_error_iff, SchemaChange.violations,
        createViolations, flatMap_violations_eq hadds hviolation]
      simp
    · have hfits : ∀ c ∈ before, c.alterViolations = [] := fun c hc =>
        c.alterViolations_eq_nil_iff.mpr (hbefore c hc)
      have halter : change.alterViolations = [e] := by
        cases change with
        | add name spec options => cases htext
        | _ => exact hviolation
      rw [(SchemaChange.compile_reflects _).eq_error_iff, SchemaChange.violations,
        flatMap_violations_eq hfits halter]
      simp

/-- A new table is refused for a directive at its end before the two primary keys and the
array in front of it are looked at; an altered table is refused for its first change. -/
theorem schemaChange_ok_iff_fits_in_samples :
    let columns : List ColumnChange :=
      [.add "a" (.type .serial) {}, .add "b" (.type (.array .text)) (.asPrimaryKey {})]
    (∃ e, (SchemaChange.createTable (.ofName "t") (columns ++ [.rename "a" "c"]) false).compile =
      .error e ∧ e.isUnsupported ∧ e.message = "RENAME COLUMN not supported by SQLite".toList) ∧
    (∃ e, (SchemaChange.alterTable (.ofName "t")
        ([.add "d" (.type .text) {}] ++ .remove "a" :: columns)).compile = .error e ∧
      e.isUnsupported ∧ e.message = "DROP COLUMN not supported by SQLite".toList) ∧
    (SchemaChange.alterTable (.ofName "t") columns).compile =
      .error (.unsupported (.addedPrimaryKey "a")) := by
  intro columns
  refine ⟨?_, ?_, ?_⟩
  · have hadds : ∀ c ∈ columns, c.IsAdd := by simp [columns, ColumnChange.IsAdd]
    exact (schemaChange_ok_iff_fits.2 (.ofName "t") columns [] (.rename "a" "c") _ rfl).1 hadds
      false
  · have hfits : ∀ c ∈ [ColumnChange.add "d" (.type .text) {}], c.FitsAlter := by
      simp [ColumnChange.FitsAlter, ColumnSpec.declaredType, ColumnType.isArray]
    exact (schemaChange_ok_iff_fits.2 (.ofName "t") [.add "d" (.type .text) {}] columns
      (.remove "a") _ rfl).2 hfits
  · exact ((schemaChange_ok_iff_fits.1 (.alterTable (.ofName "t") columns)).2 _).mpr rfl

end LiteSql
