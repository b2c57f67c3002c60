import LiteSql.Proofs.PrimaryKey
import LiteSql.Proofs.VisibleText

/-!
# A batch of changes and its single statements

Altering a table by a list of changes is altering it by each of them: the batch fails as
its first change that fails, and otherwise its text is the texts of the changes with
semicolons between them. `splitStatements` cuts a text at the semicolons outside of
quotes. No statement of a batch has such a semicolon, whatever the names and the string
defaults are, so the batch is cut into the statements that it was put together from.
-/

namespace LiteSql

/-- Cuts a text at the semicolons outside of quotes. The quote that is open and the part
so far are carried along. -/
def cutFrom : Option QuoteMark → Text → Text → List Text
  | _, current, [] => [current]
  | none, current, c :: s =>
    if c = ';' then current :: cutFrom none [] s else cutFrom (quoteMark? c) (current ++ [c]) s
  | some mark, current, c :: s =>
    cutFrom (if c = mark.char then none else some mark) (current ++ [c]) s

/-- The text without the one blank that it may start with. -/
def withoutBlank : Text → Text
  | ' ' :: s => s
  | s => s

/-- The statements of a text: what stands between the semicolons outside of quotes, less
one blank after each of them. -/
def splitStatements (sql : Text) : List Text :=
  match cutFrom none [] sql with
  | [] => []
  | first :: rest => first :: rest.map withoutBlank

example : splitStatements "a 'b; c' \"d\"\"; e\"; ; f".toList =
    ["a 'b; c' \"d\"\"; e\"".toList, [], "f".toList] := by
  decide

/-- A text without a visible semicolon is added to the current part. -/
theorem cutFrom_append {q : Option QuoteMark} {s : Text} (h : ';' ∉ visible q s)
    (current t : Text) :
    cutFrom q current (s ++ t) = cutFrom (quoteAfter q s) (current ++ s) t := by
  induction s generalizing q current with
  | nil => cases q <;> simp [quoteAfter]
  | cons c s ih =>
      cases q with
      | none =>
          rw [visible, List.mem_cons, not_or] at h
          have hc : c ≠ ';' := fun heq => h.1 heq.symm
          rw [List.cons_append, cutFrom, if_neg hc, ih h.2, quoteAfter, List.append_assoc,
            List.singleton_append]
      | some mark =>
          rw [visible] at h
          rw [List.cons_append, cutFrom, ih h, quoteAfter, List.append_assoc, List.singleton_append]

theorem cutFrom_joined {s : Text} {ss : List Text} (hs : Calm s []) (hss : ∀ t ∈ ss, Calm t [])
    (current : Text) :
    cutFrom none current (s ++ ss.flatMap ("; ".toList ++ ·)) =
      (current ++ s) :: ss.map (' ' :: ·) := by
  induction ss generalizing s current with
  | nil =>
      rw [cutFrom_append hs.no_semicolon, hs.closed]
      rfl
  | cons t ss ih =>
      rw [List.forall_mem_cons] at hss
      have hnext := ih (s := ' ' :: t) (.append_plain (.plain (s := [' ']) rfl) hss.1) hss.2 []
      rw [cutFrom_append hs.no_semicolon, hs.closed, List.flatMap_cons, List.map_cons]
      exact congrArg ((current ++ s) :: ·) hnext

/-- Statements are found again in their batch. -/
theorem splitStatements_joined {ss : List Text} (hne : ss ≠ []) (h : ∀ s ∈ ss, Calm s []) :
    splitStatements (Text.joined "; " ss) = ss := by
  obtain ⟨s, ss, rfl⟩ := List.exists_cons_of_ne_nil hne
  rw [List.forall_mem_cons] at h
  have hblank : (withoutBlank ∘ fun t => ' ' :: t) = id := rfl
  rw [Text.joined_cons, splitStatements, cutFrom_joined h.1 h.2, List.nil_append]
  simp [hblank]

namespace Calm

theorem columnType {type : ColumnType} (hcustom : ∀ name, type ≠ .custom name)
    {precision scale : Option UInt32} {s : Text} (hs : type.definition precision scale = .ok s) :
    Calm s [] := by
  cases type with
  | custom name => exact absurd rfl (hcustom name)
  | array item => cases hs
  | decimal =>
      cases precision with
      | none =>
          cases hs
          exact .plain (by decide)
      | some p =>
          cases hs
          have hword : Calm "DECIMAL(".toList [] := .plain (by decide)
          have hcomma : Calm [','] [] := .plain (by decide)
          have hclose : Calm [')'] [] := .plain (by decide)
          exact (hword.append_plain (.digits (.digits _))).append_plain
            (hcomma.append_plain (.append_plain (.digits (.digits _)) hclose))
  | _ =>
      cases hs
      exact .plain (by decide)

theorem columnOptions {o : ColumnOptions} (h : ∀ sql, o.default? ≠ some (.raw sql)) :
    Calm o.text [] := by
  have hnull : Calm (if o.nullable = some false then " NOT NULL".toList else []) [] := by
    split
    · exact .plain (by decide)
    · exact .nil
  unfold ColumnOptions.text
  cases hdefault : o.default? with
  | none => exact hnull
  | some d =>
      cases d with
      | raw sql => exact absurd hdefault (h sql)
      | value v =>
          have hword : Calm " DEFAULT ".toList [] := .plain (by decide)
          exact .append_plain (hword.append_plain (.literal v)) hnull

theorem reference (r : Reference) (table : Table) (column : String) :
    Calm (r.text table column) [] := by
  have hconstraint : Calm " CONSTRAINT ".toList [] := .plain (by decide)
  have hreferences : Calm " REFERENCES ".toList [] := .plain (by decide)
  have hopen : Calm ['('] [] := .plain (by decide)
  have hclose : Calm [')'] [] := .plain (by decide)
  have hcolumn : Calm (Text.parenthesized (LiteSql.quoteIdentifier r.column)) [] :=
    hopen.append_plain (.append_plain (.quoteIdentifier r.column) hclose)
  have haction : Calm r.onDelete.text [] := by
    cases r.onDelete with
    | nothing => exact .nil
    | cascade => exact .plain (by decide)
    | setNull => exact .plain (by decide)
  have hname := hconstraint.append_plain (.quoteIdentifier (r.constraintName table column))
  have htarget := (hname.append_plain hreferences).append_plain (.quote (r.target table))
  exact (htarget.append_plain hcolumn).append_plain haction

theorem columnDefinition {table : Table} {inlineKey : Bool} {name : String} {spec : ColumnSpec}
    {options : ColumnOptions} (hplain : (ColumnChange.add name spec options).IsPlain) {s : Text}
    (hs : columnDefinition table inlineKey name spec options = .ok s) : Calm s [] := by
  obtain ⟨hcustom, hraw⟩ := hplain
  obtain ⟨type, htype, rfl⟩ := columnDefinition_eq_ok hs
  have hblank : Calm [' '] [] := .plain (by decide)
  have hkey : Calm (if inlineKey && options.primaryKey && !spec.isSerial then
      " PRIMARY KEY".toList else []) [] := by
    split
    · exact .plain (by decide)
    · exact .nil
  have hreference : Calm (spec.foreignKeyText table name) [] := by
    cases spec with
    | references r => exact .reference r table name
    | type t => exact .nil
  have htyped := (hblank.append_plain (columnType hcustom htype)).append_plain (columnOptions hraw)
  exact (quoteIdentifier name).append_plain ((htyped.append_plain hkey).append_plain hreference)

end Calm

theorem alterColumn_add_eq_ok {table : Table} {name : String} {spec : ColumnSpec}
    {options : ColumnOptions} {s : Text} (h : alterColumn table (.add name spec options) = .ok s) :
    ∃ definition, columnDefinition table false name spec options = .ok definition ∧
      s = "ALTER TABLE ".toList ++ table.name.quote ++ " ADD COLUMN ".toList ++ definition := by
  cases hkey : options.primaryKey || spec.isSerial with
  | true => simp [alterColumn, hkey, bind, Except.bind] at h
  | false =>
      cases hdefinition : columnDefinition table false name spec options with
      | error e => simp [alterColumn, hkey, hdefinition, bind, Except.bind] at h
      | ok definition =>
          simp only [alterColumn, hkey, hdefinition, bind, Except.bind] at h
          cases h
          exact ⟨definition, rfl, rfl⟩

/-- The statement of a change without raw SQL has no semicolon outside of quotes. -/
theorem alterColumn_calm {table : Table} {change : ColumnChange} (hplain : change.IsPlain)
    {s : Text} (hs : alterColumn table change = .ok s) : Calm s [] := by
  cases change with
  | modify name spec options => cases hs
  | remove name => cases hs
  | rename old new => cases hs
  | add name spec options =>
      obtain ⟨definition, hdefinition, rfl⟩ := alterColumn_add_eq_ok hs
      have halter : Calm "ALTER TABLE ".toList [] := .plain (by decide)
      have hadd : Calm " ADD COLUMN ".toList [] := .plain (by decide)
      exact ((halter.append_plain (.quote table.name)).append_plain hadd).append_plain
        (.columnDefinition hplain hdefinition)

theorem alterColumns_cons_eq_ok_iff {table : Table} {change : ColumnChange}
    {changes : List ColumnChange} {ss : List Text} :
    alterColumns table (change :: changes) = .ok ss ↔
      ∃ t ts, alterColumn table change = .ok t ∧ alterColumns table changes = .ok ts ∧
        ss = t :: ts := by
  rw [alterColumns]
  cases alterColumn table change with
  | error e => simp [bind, Except.bind]
  | ok t =>
      cases alterColumns table changes with
      | error e => simp [bind, Except.bind]
      | ok ts => simp [bind, Except.bind, pure, Except.pure, eq_comm]

theorem alterColumns_cons_eq_error_iff {table : Table} {change : ColumnChange}
    {changes : List ColumnChange} {e : Error} :
    alterColumns table (change :: changes) = .error e ↔
      alterColumn table change = .error e ∨
        (∃ t, alterColumn table change = .ok t) ∧ alterColumns table changes = .error e := by
  rw [alterColumns]
  cases alterColumn table change with
  | error e => simp [bind, Except.bind]
  | ok t =>
      cases alterColumns table changes with
      | error e => simp [bind, Except.bind]
      | ok ts => simp [bind, Except.bind, pure, Except.pure]

/-- A list of changes is written one by one. -/
theorem alterColumns_eq_ok_iff {table : Table} {changes : List ColumnChange} {ss : List Text} :
    alterColumns table changes = .ok ss ↔
      List.Forall₂ (fun change s => alterColumn table change = .ok s) changes ss := by
  induction changes generalizing ss with
  | nil =>
      rw [List.forall₂_nil_left_iff]
      exact ⟨fun h => (Except.ok.inj h).symm, fun h => congrArg Except.ok h.symm⟩
  | cons change changes ih =>
      simp only [alterColumns_cons_eq_ok_iff, List.forall₂_cons_left_iff, ih]

/-- A list of changes fails as the first one that fails. -/
theorem alterColumns_eq_error_iff {table : Table} {changes : List ColumnChange} {e : Error} :
    alterColumns table changes = .error e ↔
      ∃ before change after, changes = before ++ change :: after ∧
        (∀ c ∈ before, ∃ s, alterColumn table c = .ok s) ∧ alterColumn table change = .error e := by
  induction changes with
  | nil => simp [alterColumns]
  | cons first changes ih =>
      rw [alterColumns_cons_eq_error_iff, ih]
      constructor
      · rintro (hfirst | ⟨hfirst, before, change, after, rfl, hbefore, hchange⟩)
        · exact ⟨[], first, changes, rfl, by simp, hfirst⟩
        · exact ⟨first :: before, change, after, rfl, List.forall_mem_cons.mpr ⟨hfirst, hbefore⟩,
            hchange⟩
      · rintro ⟨before, change, after, hchanges, hbefore, hchange⟩
        cases before with
        | nil =>
            obtain ⟨rfl, -⟩ := List.cons.inj hchanges
            exact .inl hchange
        | cons c before =>
            obtain ⟨rfl, rfl⟩ := List.cons.inj hchanges
            rw [List.forall_mem_cons] at hbefore
            exact .inr ⟨hbefore.1, before, change, after, rfl, hbefore.2, hchange⟩

theorem forall_calm_of_alterColumns {table : Table} {changes : List ColumnChange} {ss : List Text}
    (hss : List.Forall₂ (fun change s => alterColumn table change = .ok s) changes ss)
    (hplain : ∀ change ∈ changes, change.IsPlain) : ∀ s ∈ ss, Calm s [] := by
  induction hss with
  | nil => simp
  | cons hfirst _ ih =>
      rw [List.forall_mem_cons] at hplain ⊢
      exact ⟨alterColumn_calm hplain.1 hfirst, ih hplain.2⟩

/-- The statement of one change that is made alone. -/
def alterAlone (table : Table) (change : ColumnChange) : Except Error Text :=
  (SchemaChange.alterTable table [change]).text

theorem alterAlone_eq (table : Table) (change : ColumnChange) :
    alterAlone table change = alterColumn table change := by
  have hone : alterAlone table change = (do
      let statements ← alterColumns table [change]
      return Text.joined "; " statements) := rfl
  rw [hone, alterColumns, alterColumns]
  cases alterColumn table change with
  | error e => rfl
  | ok s => simp [bind, Except.bind, pure, Except.pure, Text.joined]

theorem alterTable_text (table : Table) {changes : List ColumnChange} (hne : changes ≠ []) :
    (SchemaChange.alterTable table changes).text =
      (alterColumns table changes).map (Text.joined "; ") := by
  obtain ⟨change, changes, rfl⟩ := List.exists_cons_of_ne_nil hne
  rfl

theorem alterTable_eq_ok_iff (table : Table) {changes : List ColumnChange} (hne : changes ≠ [])
    {sql : Text} : (SchemaChange.alterTable table changes).text = .ok sql ↔
      ∃ ss, List.Forall₂ (fun change s => alterColumn table change = .ok s) changes ss ∧
        sql = Text.joined "; " ss := by
  simp only [alterTable_text table hne, ← alterColumns_eq_ok_iff]
  cases alterColumns table changes <;> simp [Except.map, eq_comm]

/-- A batch of changes is the sequence of its changes. It fails as the first change that
fails when it is made alone, and otherwise it has the statements of the changes made
alone, with semicolons between them. Without raw SQL these statements are found again
between the semicolons outside of quotes. -/
theorem alterTable_eq_sequence (table : Table) {changes : List ColumnChange}
    (hne : changes ≠ []) :
    (∀ e, (SchemaChange.alterTable table changes).text = .error e ↔
      ∃ before change after, changes = before ++ change :: after ∧
        (∀ c ∈ before, ∃ s, alterAlone table c = .ok s) ∧ alterAlone table change = .error e) ∧
    (∀ sql, (SchemaChange.alterTable table changes).text = .ok sql ↔
      ∃ ss, List.Forall₂ (fun change s => alterAlone table change = .ok s) changes ss ∧
        sql = Text.joined "; " ss) ∧
    ((∀ change ∈ changes, change.IsPlain) →
      ∀ sql, (SchemaChange.alterTable table changes).text = .ok sql →
        List.Forall₂ (fun change s => alterAlone table change = .ok s) changes
          (splitStatements sql)) := by
  simp only [alterAlone_eq]
  refine ⟨fun e => ?_, fun sql => alterTable_eq_ok_iff table hne, fun hplain sql hsql => ?_⟩
  · rw [alterTable_text table hne, ← alterColumns_eq_error_iff]
    cases alterColumns table changes <;> simp [Except.map]
  · obtain ⟨ss, hss, rfl⟩ := (alterTable_eq_ok_iff table hne).mp hsql
    have hsome : ss ≠ [] := by
      rintro rfl
      exact hne (List.forall₂_nil_right_iff.mp hss)
    rwa [splitStatements_joined hsome (forall_calm_of_alterColumns hss hplain)]

/-- Semicolons in a table name, in a string default and in a constraint name end no
statement. -/
theorem alterTable_eq_sequence_in_sample :
    let changes : List ColumnChange :=
      [.add "a" (.type .text) (.withDefault {} (.string "; '\"")),
        .add "b\"; " (.references ((Reference.toTable "m").named "c'; ")) {}]
    ∃ sql, (SchemaChange.alterTable (.ofName "t; ") changes).text = .ok sql ∧
      splitStatements sql =
        ["ALTER TABLE \"t; \" ADD COLUMN \"a\" TEXT DEFAULT '; ''\"'".toList,
          ("ALTER TABLE \"t; \" ADD COLUMN \"b\"\"; \" INTEGER CONSTRAINT \"c'; \" " ++
            "REFERENCES \"m\"(\"id\")").toList] := by
  intro changes
  have hne : changes ≠ [] := by simp [changes]
  have hplain : ∀ change ∈ changes, change.IsPlain := by
    simp [changes, ColumnChange.IsPlain, ColumnSpec.columnType, ColumnOptions.withDefault,
      Reference.toTable, Reference.named]
  obtain ⟨sql, hsql⟩ : ∃ sql, (SchemaChange.alterTable (.ofName "t; ") changes).text = .ok sql :=
    ⟨_, rfl⟩
  have hsplit := (alterTable_eq_sequence (.ofName "t; ") hne).2.2 hplain sql hsql
  obtain ⟨s, ss, hs, hss, heq⟩ := List.forall₂_cons_left_iff.mp hsplit
  obtain ⟨t, ts, ht, hts, rfl⟩ := List.forall₂_cons_left_iff.mp hss
  obtain rfl := List.forall₂_nil_left_iff.mp hts
  cases hs
  cases ht
  exact ⟨sql, hsql, heq.trans (by decide +kernel)⟩

end LiteSql
