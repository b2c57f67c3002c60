import LiteSql.Proofs.ReadBack
import LiteSql.Proofs.RowSplitting

/-!
# Statements on one row are read back

A statement on one row is read from the left. Names are taken out of their quotes,
and a placeholder stands for the parameter with its number. What is read is the
operation, its table, every column with its own value, and the columns to return.
An INSERT has its columns and its values in two lists, and these are paired by
position.

Whatever the names are, reading gives back what the statement was written from. So a
text with its parameters is written in one way only.
-/

namespace LiteSql

namespace RowReader

open Reader (after?)

def name? (s : Text) : Option (String × Text) :=
  (HintReader.identifier s).toOption

def table? (s : Text) : Option (QualifiedName × Text) :=
  (HintReader.table s).toOption

/-- The value of a placeholder. -/
def value? (values : Nat → Option Value) (s : Text) : Option (Value × Text) := do
  let s ← after? ['?'] s
  let (number, rest) ← Reader.digits? s
  let v ← values (Text.ofDigits number)
  return (v, rest)

def equation? (values : Nat → Option Value) (s : Text) : Option (ColumnValue × Text) := do
  let (column, s) ← name? s
  let s ← after? " = ".toList s
  let (v, rest) ← value? values s
  return ((column, v), rest)

section Lists

variable {α : Type} (separator : String) (item? : Text → Option (α × Text))

/-- As many items as there are, each after the separator; at most `n`. -/
def moreItems : Nat → Text → List α × Text
  | 0, s => ([], s)
  | n + 1, s =>
    match after? separator.toList s >>= item? with
    | some (a, rest) =>
      let (as, rest) := moreItems n rest
      (a :: as, rest)
    | none => ([], s)

/-- At least one item, with the separator between neighbours. -/
def items? (s : Text) : Option (List α × Text) := do
  let (a, rest) ← item? s
  let (as, rest) := moreItems separator item? rest.length rest
  return (a :: as, rest)

end Lists

section Statements

variable (values : Nat → Option Value)

def insert? (s : Text) : Option (RowStatement × Text) := do
  let (table, s) ← table? s
  match after? " DEFAULT VALUES".toList s with
  | some rest => return (.insert table [], rest)
  | none =>
    let s ← after? " (".toList s
    let (columns, s) ← items? ", " name? s
    let s ← after? ") VALUES (".toList s
    let (vs, s) ← items? ", " (value? values) s
    let rest ← after? [')'] s
    if columns.length = vs.length then return (.insert table (columns.zip vs), rest) else none

def update? (s : Text) : Option (RowStatement × Text) := do
  let (table, s) ← table? s
  let s ← after? " SET ".toList s
  let (fields, s) ← items? ", " (equation? values) s
  let s ← after? " WHERE ".toList s
  let (filters, rest) ← items? " AND " (equation? values) s
  return (.update table fields filters, rest)

def delete? (s : Text) : Option (RowStatement × Text) := do
  let (table, s) ← table? s
  let s ← after? " WHERE ".toList s
  let (filters, rest) ← items? " AND " (equation? values) s
  return (.delete table filters, rest)

def statement? (s : Text) : Option (RowStatement × Text) :=
  match after? "INSERT INTO ".toList s with
  | some s => insert? values s
  | none =>
    match after? "UPDATE ".toList s with
    | some s => update? values s
    | none => after? "DELETE FROM ".toList s >>= delete? values

/-- The columns to return after a statement. The hint repeats the operation and the
table of the statement. -/
def returning? (st : RowStatement) : Text → Option (List String)
  | [] => some []
  | s => do
    let body ← after? returningMarker s
    let h ← (HintReader.wholeHint body).toOption
    if h.operation = st.operation ∧ h.table = st.table then some h.columns else none

/-- The statement that a whole text spells, and the columns that it returns. -/
def whole? (s : Text) : Option (RowStatement × List String) := do
  let (st, rest) ← statement? values s
  let returning ← returning? st rest
  return (st, returning)

end Statements

/-- The reader takes `a` from a text that starts with `t`, whatever follows that ends
a term. -/
def Takes {α : Type} (read? : Text → Option (α × Text)) (t : Text) (a : α) : Prop :=
  ∀ rest, Reader.EndsTerm rest → read? (t ++ rest) = some (a, rest)

/-- The reader takes `a` from a text that starts with `t`, whatever follows that `ends`
allows. -/
def TakesBefore {α : Type} (ends : Text → Prop) (read? : Text → Option (α × Text)) (t : Text)
    (a : α) : Prop :=
  ∀ rest, ends rest → read? (t ++ rest) = some (a, rest)

theorem takes_name (name : String) : Takes name? (quoteIdentifier name) name := by
  intro rest hrest
  have hread : HintReader.identifier (quoteIdentifier name ++ rest) = .ok (name, rest) :=
    HintReader.identifier_eq_ok_iff.mpr ⟨rfl, hrest.head?_ne .double⟩
  rw [name?, hread]
  rfl

theorem takes_table (table : QualifiedName) : Takes table? table.quote table := by
  intro rest hrest
  have hpoint : rest.head? ≠ some '.' := fun hhead =>
    hrest.forall_head (P := (· ≠ '.')) (by decide) (by decide) (by decide) '.' hhead rfl
  rw [table?, HintReader.table_quote table (hrest.head?_ne .double) hpoint]
  rfl

section Values

variable {values : Nat → Option Value}

theorem takes_value {n : Nat} {v : Value} (h : values n = some v) :
    Takes (value? values) (placeholder n) v := by
  intro rest hrest
  have hdigits : Reader.digits? (Text.digits n ++ rest) = some (Text.digits n, rest) :=
    Reader.digits?_append (.digits n) (hrest.forall_head rfl rfl rfl)
  simp [value?, placeholder, after?, hdigits, ofDigits_digits, h]

theorem takes_equation (column : String) {n : Nat} {v : Value} (h : values n = some v) :
    Takes (equation? values) (quoteIdentifier column ++ " = ".toList ++ placeholder n)
      (column, v) := by
  intro rest hrest
  have hname := takes_name column (" = ".toList ++ (placeholder n ++ rest)) (.blank _)
  have hvalue := takes_value h rest hrest
  rw [List.append_assoc, List.append_assoc, equation?, hname]
  simp only [Option.bind_eq_bind, Option.bind_some, Reader.after?_append, hvalue, Option.pure_def]

theorem takes_names (names : List String) :
    List.Forall₂ (Takes name?) (names.map quoteIdentifier) names := by
  induction names with
  | nil => exact .nil
  | cons name names ih => exact .cons (takes_name name) ih

/-- The values are found under the numbers of their placeholders. -/
theorem takes_values {i : Nat} {vs : List Value} (h : Agrees values i vs) :
    List.Forall₂ (Takes (value? values)) ((List.range' (i + 1) vs.length).map placeholder) vs := by
  induction vs generalizing i with
  | nil => exact .nil
  | cons v vs ih =>
      have hcons : Agrees values i ([v] ++ vs) := h
      obtain ⟨hfirst, hrest⟩ := hcons.append
      exact .cons (takes_value (hfirst 0 v rfl)) (ih hrest)

theorem takes_equations {i : Nat} {row : List ColumnValue}
    (h : Agrees values i (columnValues row)) :
    List.Forall₂ (Takes (equation? values)) (equations (i + 1) (columnNames row)) row := by
  induction row generalizing i with
  | nil => exact .nil
  | cons column row ih =>
      have hcons : Agrees values i ([column.2] ++ columnValues row) := h
      obtain ⟨hfirst, hrest⟩ := hcons.append
      exact .cons (takes_equation column.1 (hfirst 0 column.2 rfl)) (ih hrest)

end Values

section Lists

variable {α : Type} {separator : String} {item? : Text → Option (α × Text)}

/-- A separator ends the item before it. -/
def Parts (separator : String) : Prop :=
  ∀ s, Reader.EndsTerm (separator.toList ++ s)

theorem Takes.before {read? : Text → Option (α × Text)} {t : Text} {a : α} (ht : Takes read? t a)
    (hseparator : Parts separator) (s : Text) :
    read? (t ++ (separator.toList ++ s)) = some (a, separator.toList ++ s) :=
  ht _ (hseparator s)

theorem ends_flatMap {ends : Text → Prop} (hseparator : ∀ s, ends (separator.toList ++ s))
    (ts : List Text) {rest : Text} (hrest : ends rest) :
    ends (ts.flatMap (separator.toList ++ ·) ++ rest) := by
  cases ts with
  | nil => exact hrest
  | cons t ts =>
      rw [List.flatMap_cons, List.append_assoc, List.append_assoc]
      exact hseparator _

theorem length_le_flatMap (hne : separator.toList ≠ []) (ts : List Text) :
    ts.length ≤ (ts.flatMap (separator.toList ++ ·)).length := by
  have hpos : 0 < separator.toList.length := List.length_pos_iff.mpr hne
  induction ts with
  | nil => simp
  | cons t ts ih =>
      rw [List.flatMap_cons, List.length_append, List.length_append, List.length_cons]
      omega

theorem Parts.ne_nil (hseparator : Parts separator) : separator.toList ≠ [] := by
  intro hnil
  have hends := hseparator ['x']
  rw [hnil] at hends
  cases hends

section Before

variable {ends : Text → Prop} {ts : List Text} {as : List α}

theorem moreItems_before (h : List.Forall₂ (TakesBefore ends item?) ts as)
    (hseparator : ∀ s, ends (separator.toList ++ s)) {rest : Text} (hrest : ends rest)
    (hstop : (after? separator.toList rest >>= item?) = none) {n : Nat} (hn : ts.length ≤ n) :
    moreItems separator item? n (ts.flatMap (separator.toList ++ ·) ++ rest) = (as, rest) := by
  induction h generalizing n with
  | nil =>
      cases n with
      | zero => rfl
      | succ n => simp only [List.flatMap_nil, List.nil_append, moreItems, hstop]
  | @cons t a ts as ht _ ih =>
      obtain ⟨n, rfl⟩ : ∃ m, n = m + 1 := ⟨n - 1, by rw [List.length_cons] at hn; omega⟩
      have hmore := ih (n := n) (by simpa using hn)
      rw [List.flatMap_cons, List.append_assoc, List.append_assoc, moreItems]
      simp only [Reader.after?_append, Option.bind_eq_bind, Option.bind_some,
        ht _ (ends_flatMap hseparator ts hrest), hmore]

/-- A list is read up to where no further item follows. -/
theorem items?_before (h : List.Forall₂ (TakesBefore ends item?) ts as) (hne : as ≠ [])
    (hsome : separator.toList ≠ []) (hseparator : ∀ s, ends (separator.toList ++ s)) {rest : Text}
    (hrest : ends rest) (hstop : (after? separator.toList rest >>= item?) = none) :
    items? separator item? (Text.joined separator ts ++ rest) = some (as, rest) := by
  cases h with
  | nil => exact absurd rfl hne
  | @cons t a ts as ht hts =>
      have hlength : ts.length ≤ (ts.flatMap (separator.toList ++ ·) ++ rest).length := by
        have hle := length_le_flatMap hsome ts
        rw [List.length_append]
        omega
      have hmore := moreItems_before hts hseparator hrest hstop hlength
      rw [Text.joined_cons, List.append_assoc, items?, ht _ (ends_flatMap hseparator ts hrest)]
      simp only [Option.bind_eq_bind, Option.bind_some, hmore, Option.pure_def]

end Before

/-- A list is read to its end, where no separator follows. -/
theorem items?_joined {ts : List Text} {as : List α} (h : List.Forall₂ (Takes item?) ts as)
    (hne : as ≠ []) (hseparator : Parts separator) {rest : Text} (hrest : Reader.EndsTerm rest)
    (hstop : after? separator.toList rest = none) :
    items? separator item? (Text.joined separator ts ++ rest) = some (as, rest) :=
  items?_before h hne hseparator.ne_nil hseparator hrest (by rw [hstop]; rfl)

end Lists

theorem parts_comma : Parts ", " :=
  fun _ => .comma _

theorem parts_and : Parts " AND " :=
  fun _ => .blank _

theorem parts_set : Parts " SET " :=
  fun _ => .blank _

theorem parts_where : Parts " WHERE " :=
  fun _ => .blank _

theorem parts_default : Parts " DEFAULT VALUES" :=
  fun _ => .blank _

theorem parts_open : Parts " (" :=
  fun _ => .blank _

theorem parts_values : Parts ") VALUES (" :=
  fun _ => .close _

theorem endsTerm_returningClause (operation : Operation) (table : QualifiedName)
    (columns : List String) : Reader.EndsTerm (returningClause operation table columns) := by
  cases columns with
  | nil => exact .nil
  | cons c columns => exact .blank _

theorem after?_and_returningClause (operation : Operation) (table : QualifiedName)
    (columns : List String) :
    after? " AND ".toList (returningClause operation table columns) = none := by
  cases columns with
  | nil => rfl
  | cons c columns => rfl

section Statements

variable {values : Nat → Option Value}

theorem items?_filters {i : Nat} {filters : List ColumnValue}
    (h : Agrees values i (columnValues filters)) (hne : filters ≠ []) (operation : Operation)
    (table : QualifiedName) (returning : List String) :
    items? " AND " (equation? values)
        (Text.joined " AND " (equations (i + 1) (columnNames filters)) ++
          returningClause operation table returning) =
      some (filters, returningClause operation table returning) :=
  items?_joined (takes_equations h) hne parts_and (endsTerm_returningClause _ _ _)
    (after?_and_returningClause _ _ _)

theorem insertBody_append {columns : List String} (h : columns ≠ []) (rest : Text) :
    insertBody 1 columns ++ rest = " (".toList ++ (Text.joined ", " (columns.map quoteIdentifier) ++
      (") VALUES (".toList ++
        (Text.joined ", " ((List.range' 1 columns.length).map placeholder) ++
          ([')'] ++ rest)))) := by
  rw [insertBody_of_ne_nil h]
  simp [Text.parenthesized, quoteIdentifiers]

theorem insert?_eq (table : QualifiedName) {fields : List ColumnValue}
    (h : Agrees values 0 (columnValues fields)) (rest : Text) :
    insert? values (table.quote ++ (insertBody 1 (columnNames fields) ++ rest)) =
      some (.insert table fields, rest) := by
  by_cases hfields : fields = []
  · subst hfields
    have hbody : insertBody 1 (columnNames []) = " DEFAULT VALUES".toList := rfl
    rw [hbody, insert?, (takes_table table).before parts_default]
    simp only [Option.bind_eq_bind, Option.bind_some, Reader.after?_append, Option.pure_def]
  · have hlength : (columnNames fields).length = (columnValues fields).length := by
      simp [columnNames, columnValues]
    have hpairs : (columnNames fields).zip (columnValues fields) = fields := by
      rw [columnNames, columnValues, List.zip_map']
      simp
    have hnames : columnNames fields ≠ [] := by simpa [columnNames] using hfields
    have hvalues : columnValues fields ≠ [] := by simpa [columnValues] using hfields
    have hcolumns (s : Text) := items?_joined (takes_names (columnNames fields)) hnames
      parts_comma (parts_values s) rfl
    have hclose : Reader.EndsTerm ([')'] ++ rest) := .close rest
    have hmarks := items?_joined (takes_values h) hvalues parts_comma hclose rfl
    have hdefault (s : Text) : after? " DEFAULT VALUES".toList (" (".toList ++ s) = none := rfl
    rw [insertBody_append hnames, insert?, (takes_table table).before parts_open]
    simp only [Option.bind_eq_bind, Option.bind_some, hdefault, Reader.after?_append, hcolumns,
      hlength, hmarks, hpairs, if_true, Option.pure_def]

theorem update?_eq (table : QualifiedName) {fields filters : List ColumnValue}
    (h : Agrees values 0 (columnValues fields ++ columnValues filters)) (hfields : fields ≠ [])
    (hfilters : filters ≠ []) (returning : List String) :
    update? values (table.quote ++ (" SET ".toList ++
      (Text.joined ", " (equations 1 (columnNames fields)) ++ (" WHERE ".toList ++
        (Text.joined " AND " (equations (fields.length + 1) (columnNames filters)) ++
          returningClause .update table returning))))) =
      some (.update table fields filters, returningClause .update table returning) := by
  obtain ⟨hfirst, hsecond⟩ := h.append
  have hlength : 0 + (columnValues fields).length = fields.length := by simp [columnValues]
  rw [hlength] at hsecond
  have hset (s : Text) : items? ", " (equation? values)
      (Text.joined ", " (equations 1 (columnNames fields)) ++ (" WHERE ".toList ++ s)) =
        some (fields, " WHERE ".toList ++ s) :=
    items?_joined (takes_equations hfirst) hfields parts_comma (parts_where s) rfl
  rw [update?, (takes_table table).before parts_set]
  simp only [Option.bind_eq_bind, Option.bind_some, Reader.after?_append, hset,
    items?_filters hsecond hfilters, Option.pure_def]

theorem delete?_eq (table : QualifiedName) {filters : List ColumnValue}
    (h : Agrees values 0 (columnValues filters)) (hfilters : filters ≠ [])
    (returning : List String) :
    delete? values (table.quote ++ (" WHERE ".toList ++
      (Text.joined " AND " (equations 1 (columnNames filters)) ++
        returningClause .delete table returning))) =
      some (.delete table filters, returningClause .delete table returning) := by
  rw [delete?, (takes_table table).before parts_where]
  simp only [Option.bind_eq_bind, Option.bind_some, Reader.after?_append,
    items?_filters h hfilters, Option.pure_def]

/-- The statement is taken from its text, up to the clause for the columns to
return. -/
theorem statement?_compile {st : RowStatement} {returning : List String} {c : Compiled}
    (hc : st.compile returning = .ok c) :
    statement? (valueAt 0 c.params) c.sql.toList =
      some (st, returningClause st.operation st.table returning) := by
  obtain ⟨haccepted, rfl⟩ := RowStatement.compile_eq_ok_iff.mp hc
  have hvalues := agrees_valueAt 0 st.values
  rw [RowStatement.compiled, String.toList_ofList]
  cases st with
  | insert table fields =>
      have hread := insert?_eq table hvalues (returningClause .insert table returning)
      simp only [RowStatement.front_insert, List.append_assoc, statement?, Reader.after?_append]
      exact hread
  | update table fields filters =>
      obtain ⟨hfields, hfilters⟩ := RowStatement.refusal?_update_eq_none_iff.mp haccepted
      have hread := update?_eq table hvalues hfields hfilters returning
      have hother (s : Text) : after? "INSERT INTO ".toList ("UPDATE ".toList ++ s) = none := rfl
      simp only [RowStatement.front_update, List.append_assoc, statement?, hother,
        Reader.after?_append]
      exact hread
  | delete table filters =>
      have hfilters := RowStatement.refusal?_delete_eq_none_iff.mp haccepted
      have hread := delete?_eq table hvalues hfilters returning
      have hinsert (s : Text) :
          after? "INSERT INTO ".toList ("DELETE FROM ".toList ++ s) = none := rfl
      have hupdate (s : Text) :
          after? "UPDATE ".toList ("DELETE FROM ".toList ++ s) = none := rfl
      simp only [RowStatement.front_delete, List.append_assoc, statement?, hinsert, hupdate,
        Reader.after?_append, Option.bind_eq_bind, Option.bind_some]
      exact hread

theorem returning?_clause (st : RowStatement) (returning : List String) :
    returning? st (returningClause st.operation st.table returning) = some returning := by
  cases returning with
  | nil => rfl
  | cons r rs =>
      have hne : r :: rs ≠ [] := List.cons_ne_nil r rs
      let h : ReturningHint := ⟨st.operation, st.table, r :: rs⟩
      have hread : HintReader.wholeHint h.body = .ok h :=
        HintReader.wholeHint_eq_ok_iff.mpr ⟨rfl, hne⟩
      have hsome : returningMarker ++ h.body ≠ [] := by simp [returningMarker_ne_nil]
      rw [returningClause_eq_text st.operation st.table hne, ReturningHint.text_eq, returning?]
      · simp only [Reader.after?_append, Option.bind_eq_bind, Option.bind_some]
        change (do
          let h' ← (HintReader.wholeHint h.body).toOption
          if h'.operation = st.operation ∧ h'.table = st.table then some h'.columns else none) = _
        rw [hread]
        simp [Except.toOption, h]
      · exact hsome

theorem whole?_compile {st : RowStatement} {returning : List String} {c : Compiled}
    (hc : st.compile returning = .ok c) :
    whole? (valueAt 0 c.params) c.sql.toList = some (st, returning) := by
  rw [whole?, statement?_compile hc]
  simp [returning?_clause]

end Statements

end RowReader

/-- A compiled statement on one row is read back from its text and its parameters:
the operation, the table, every column with its own value, and the columns to return.
So equal texts with equal parameters come from the same builder with the same
arguments. -/
theorem compiled_row_reads_back :
    (∀ (st : RowStatement) (returning : List String) (c : Compiled),
      st.compile returning = .ok c →
        RowReader.whole? (valueAt 0 c.params) c.sql.toList = some (st, returning)) ∧
    ∀ (st₁ st₂ : RowStatement) (returning₁ returning₂ : List String) (c₁ c₂ : Compiled),
      st₁.compile returning₁ = .ok c₁ → st₂.compile returning₂ = .ok c₂ →
        c₁.sql = c₂.sql → c₁.params = c₂.params → st₁ = st₂ ∧ returning₁ = returning₂ := by
  refine ⟨fun st returning c hc => RowReader.whole?_compile hc, ?_⟩
  intro st₁ st₂ returning₁ returning₂ c₁ c₂ hc₁ hc₂ hsql hparams
  have hread₁ := RowReader.whole?_compile hc₁
  rw [hsql, hparams, RowReader.whole?_compile hc₂] at hread₁
  obtain ⟨hst, hreturning⟩ := Prod.mk.inj (Option.some.inj hread₁)
  exact ⟨hst.symm, hreturning.symm⟩

/-- Equations and keywords inside of a name stay in the name. -/
theorem compiled_row_reads_back_in_samples :
    (∃ c, compileUpdate ⟨some "a\".\"b", "m"⟩ [("x\" = ?2, \"y", .int 1), ("", .null)]
        [("id WHERE", .int 1)] ["r\",\"s"] = .ok c ∧
      RowReader.whole? (valueAt 0 c.params) c.sql.toList =
        some (.update ⟨some "a\".\"b", "m"⟩ [("x\" = ?2, \"y", .int 1), ("", .null)]
          [("id WHERE", .int 1)], ["r\",\"s"])) ∧
    (∃ c, compileInsert ⟨none, "m\" DEFAULT VALUES"⟩ [("a\", \"b", .int 1), ("?1)", .int 2)] [] =
        .ok c ∧
      RowReader.whole? (valueAt 0 c.params) c.sql.toList =
        some (.insert ⟨none, "m\" DEFAULT VALUES"⟩ [("a\", \"b", .int 1), ("?1)", .int 2)], [])) ∧
    ∃ c₁ c₂, compileDelete ⟨none, "m"⟩ [("a\" = ?1 AND \"b", .int 1), ("c", .int 2)] [] = .ok c₁ ∧
      compileDelete ⟨none, "m"⟩ [("a", .int 1), ("b\" = ?2 AND \"c", .int 2)] [] = .ok c₂ ∧
      c₁.params = c₂.params ∧ c₁.sql ≠ c₂.sql := by
  let update : RowStatement := .update ⟨some "a\".\"b", "m"⟩
    [("x\" = ?2, \"y", .int 1), ("", .null)] [("id WHERE", .int 1)]
  obtain ⟨updated, hupdated⟩ : ∃ c, update.compile ["r\",\"s"] = .ok c := ⟨_, rfl⟩
  let insert : RowStatement := .insert ⟨none, "m\" DEFAULT VALUES"⟩
    [("a\", \"b", .int 1), ("?1)", .int 2)]
  obtain ⟨inserted, hinserted⟩ : ∃ c, insert.compile [] = .ok c := ⟨_, rfl⟩
  refine ⟨⟨updated, hupdated, compiled_row_reads_back.1 update _ _ hupdated⟩,
    ⟨inserted, hinserted, compiled_row_reads_back.1 insert _ _ hinserted⟩, ?_⟩
  let st₁ : RowStatement := .delete ⟨none, "m"⟩ [("a\" = ?1 AND \"b", .int 1), ("c", .int 2)]
  let st₂ : RowStatement := .delete ⟨none, "m"⟩ [("a", .int 1), ("b\" = ?2 AND \"c", .int 2)]
  obtain ⟨c₁, hc₁, hparams₁⟩ : ∃ c, st₁.compile [] = .ok c ∧ c.params = [.int 1, .int 2] :=
    ⟨_, rfl, rfl⟩
  obtain ⟨c₂, hc₂, hparams₂⟩ : ∃ c, st₂.compile [] = .ok c ∧ c.params = [.int 1, .int 2] :=
    ⟨_, rfl, rfl⟩
  have hparams : c₁.params = c₂.params := by rw [hparams₁, hparams₂]
  refine ⟨c₁, c₂, hc₁, hc₂, hparams, fun hsql => ?_⟩
  obtain ⟨hst, -⟩ := compiled_row_reads_back.2 st₁ st₂ [] [] c₁ c₂ hc₁ hc₂ hsql hparams
  simp [st₁, st₂] at hst

end LiteSql
