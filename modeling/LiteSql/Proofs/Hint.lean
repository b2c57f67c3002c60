import LiteSql.Proofs.Quoting
import LiteSql.Returning

/-!
# Hints are read back as they are written

Each reader of a part of a hint accepts exactly the written form of that part,
and the reader of a whole hint accepts exactly the hints with at least one
column. The name of a table and the columns are read as far as they go, so what
follows them does not go on with them. The number of columns that are read is
bounded by the length of the text, which is never met: a column takes at least
three characters.

Quoting and reading of names are inverse to each other. A name may hold quotes and
points, and still no two names of tables, with a schema or without, are written in
the same way.
-/

namespace LiteSql

namespace ReturningHint

/-- The columns of a hint, each after a comma. -/
def columnsText (columns : List String) : Text :=
  columns.flatMap fun c => ',' :: quoteIdentifier c

/-- The part of a hint after its marker. -/
def body (h : ReturningHint) : Text :=
  h.operation.keyword.toList ++ ' ' :: (h.table.quote ++ columnsText h.columns)

def names (h : ReturningHint) : List String :=
  h.table.schema.toList ++ h.table.name :: h.columns

theorem text_eq (h : ReturningHint) : h.text = returningMarker ++ h.body := by
  simp [text, body, columnsText]

theorem body_eq (h : ReturningHint) :
    h.body = (h.operation.keyword.toList ++ [' ']) ++
      (h.table.quote ++ columnsText h.columns) := by
  simp [body]

theorem columnsText_cons (c : String) (columns : List String) :
    columnsText (c :: columns) = ',' :: (quoteIdentifier c ++ columnsText columns) := by
  simp [columnsText]

theorem length_le_columnsText (columns : List String) :
    columns.length ≤ (columnsText columns).length := by
  induction columns with
  | nil => simp
  | cons c columns ih =>
      simp only [columnsText_cons, List.length_cons, List.length_append]
      omega

end ReturningHint

namespace HintReader

open ReturningHint

/-- The text starts with a quoted identifier, and `rest` follows it. A further quote would
go on with the identifier. -/
def StartsWithName (s : Text) (name : String) (rest : Text) : Prop :=
  s = quoteIdentifier name ++ rest ∧ rest.head? ≠ some '"'

/-- The text starts with the given character and then with a quoted identifier. -/
def StartsWithItem (c : Char) (s : Text) : Prop :=
  ∃ t name rest, s = c :: t ∧ StartsWithName t name rest

/-- The name of a table ends before `rest`. A point and an identifier would belong to it. -/
def EndsTable (table : QualifiedName) (rest : Text) : Prop :=
  rest.head? ≠ some '"' ∧ (table.schema = none → ¬ StartsWithItem '.' rest)

/-- The columns end before `rest`. -/
def EndsColumns (rest : Text) : Prop :=
  rest.head? ≠ some '"' ∧ ¬ StartsWithItem ',' rest

theorem not_startsWithItem {c : Char} {s : Text} (hs : s.head? ≠ some c) :
    ¬ StartsWithItem c s := by
  rintro ⟨t, name, rest, rfl, -⟩
  exact hs rfl

theorem word_eq_ok_iff {w : String} {s rest : Text} {u : Unit} :
    word w s = .ok (u, rest) ↔ s = w.toList ++ rest := by
  unfold word
  split
  · rename_i hstarts
    obtain ⟨t, rfl⟩ := List.isPrefixOf_iff_prefix.mp hstarts
    have hdrop : (w.toList ++ t).drop w.length = t := by
      rw [← String.length_toList]
      exact List.drop_left
    simp [hdrop]
  · rename_i hstarts
    constructor
    · intro h
      cases h
    · rintro rfl
      exact absurd (List.isPrefixOf_iff_prefix.mpr ⟨rest, rfl⟩) hstarts

theorem operation_eq_ok_iff {s rest : Text} {o : Operation} :
    operation s = .ok (o, rest) ↔ s = o.keyword.toList ++ rest := by
  constructor
  · intro h
    unfold operation at h
    split at h
    · rename_i hw
      cases h
      exact word_eq_ok_iff.mp hw
    · split at h
      · rename_i hw
        cases h
        exact word_eq_ok_iff.mp hw
      · split at h
        · rename_i hw
          cases h
          exact word_eq_ok_iff.mp hw
        · cases h
  · rintro rfl
    cases o with
    | insert => rfl
    | update => rfl
    | delete => rfl

theorem identifier_eq_ok_iff {s rest : Text} {name : String} :
    identifier s = .ok (name, rest) ↔
      s = quoteIdentifier name ++ rest ∧ rest.head? ≠ some '"' := by
  unfold identifier
  constructor
  · intro h
    split at h
    · rename_i inner r hread
      cases h
      simpa [quoteIdentifier] using Text.readQuoted_eq_ok_iff.mp hread
    · cases h
  · intro h
    have hread := Text.readQuoted_eq_ok_iff.mpr h
    simp [hread]

theorem bind_eq_ok_iff {α β : Type} {x : Except Text α} {next : α → Except Text β} {b : β} :
    (x >>= next) = .ok b ↔ ∃ a, x = .ok a ∧ next a = .ok b := by
  cases x with
  | error e => simp [bind, Except.bind]
  | ok a => simp [bind, Except.bind]

theorem identifierAfter_eq_ok_iff {w : String} {s rest : Text} {name : String} :
    identifierAfter w s = .ok (name, rest) ↔
      s = w.toList ++ (quoteIdentifier name ++ rest) ∧ rest.head? ≠ some '"' := by
  simp only [identifierAfter, bind_eq_ok_iff, Prod.exists, word_eq_ok_iff,
    identifier_eq_ok_iff]
  constructor
  · rintro ⟨_, r, rfl, rfl, hhead⟩
    exact ⟨rfl, hhead⟩
  · rintro ⟨rfl, hhead⟩
    exact ⟨(), _, rfl, rfl, hhead⟩

theorem exists_identifierAfter_error {c : Char} {w : String} (hw : w.toList = [c]) {s : Text} :
    (∃ stop, identifierAfter w s = .error stop) ↔ ¬ StartsWithItem c s := by
  cases hread : identifierAfter w s with
  | error stop =>
      refine iff_of_true ⟨stop, rfl⟩ ?_
      rintro ⟨t, name, rest, rfl, hname⟩
      have hok : identifierAfter w (c :: t) = .ok (name, rest) :=
        identifierAfter_eq_ok_iff.mpr ⟨by rw [hw, hname.1]; rfl, hname.2⟩
      rw [hok] at hread
      cases hread
  | ok r =>
      obtain ⟨name, rest⟩ := r
      obtain ⟨hs, hhead⟩ := identifierAfter_eq_ok_iff.mp hread
      rw [hw] at hs
      refine iff_of_false ?_ fun h => h ⟨_, name, rest, hs, rfl, hhead⟩
      rintro ⟨stop, hstop⟩
      cases hstop

theorem table_eq_ok_iff {s rest : Text} {t : QualifiedName} :
    HintReader.table s = .ok (t, rest) ↔ s = t.quote ++ rest ∧ EndsTable t rest := by
  constructor
  · intro h
    simp only [HintReader.table, bind_eq_ok_iff, Prod.exists, identifier_eq_ok_iff] at h
    obtain ⟨first, r, ⟨rfl, hhead⟩, h⟩ := h
    split at h
    · rename_i second r' hsecond
      cases h
      obtain ⟨rfl, hend⟩ := identifierAfter_eq_ok_iff.mp hsecond
      exact ⟨by simp [QualifiedName.quote], hend, fun hnone => by cases hnone⟩
    · rename_i stop hstop
      cases h
      exact ⟨rfl, hhead, fun _ => (exists_identifierAfter_error rfl).mp ⟨stop, hstop⟩⟩
  · rintro ⟨rfl, hhead, hpoint⟩
    obtain ⟨schema, name⟩ := t
    cases schema with
    | none =>
        have hread : identifier (quoteIdentifier name ++ rest) = .ok (name, rest) :=
          identifier_eq_ok_iff.mpr ⟨rfl, hhead⟩
        obtain ⟨stop, hstop⟩ : ∃ stop, identifierAfter "." rest = .error stop :=
          (exists_identifierAfter_error rfl).mpr (hpoint rfl)
        simp [HintReader.table, QualifiedName.quote, hread, hstop, bind, Except.bind]
    | some schema =>
        have hread :
            identifier (quoteIdentifier schema ++ '.' :: (quoteIdentifier name ++ rest)) =
              .ok (schema, '.' :: (quoteIdentifier name ++ rest)) :=
          identifier_eq_ok_iff.mpr ⟨rfl, by simp⟩
        have hafter : identifierAfter "." ('.' :: (quoteIdentifier name ++ rest)) =
            .ok (name, rest) :=
          identifierAfter_eq_ok_iff.mpr ⟨rfl, hhead⟩
        simp [HintReader.table, QualifiedName.quote, hread, hafter, bind, Except.bind]

theorem table_quote {rest : Text} (t : QualifiedName) (hquote : rest.head? ≠ some '"')
    (hpoint : rest.head? ≠ some '.') :
    HintReader.table (t.quote ++ rest) = .ok (t, rest) :=
  table_eq_ok_iff.mpr ⟨rfl, hquote, fun _ => not_startsWithItem hpoint⟩

theorem table_quote_eq_ok (t : QualifiedName) : HintReader.table t.quote = .ok (t, []) := by
  have hread : HintReader.table (t.quote ++ []) = .ok (t, []) :=
    table_quote t (by simp) (by simp)
  rwa [List.append_nil] at hread

theorem columnsText_of_moreColumns {fuel : Nat} {s rest : Text} {columns : List String}
    (h : moreColumns fuel s = (columns, rest)) : s = columnsText columns ++ rest := by
  induction fuel generalizing s columns with
  | zero =>
      cases h
      rfl
  | succ fuel ih =>
      unfold moreColumns at h
      split at h
      · rename_i c r hread
        obtain ⟨rfl, rfl⟩ := Prod.mk.inj h
        obtain ⟨hs, -⟩ := identifierAfter_eq_ok_iff.mp hread
        have hr : r = columnsText (moreColumns fuel r).1 ++ (moreColumns fuel r).2 := ih rfl
        rw [hs, columnsText_cons, List.cons_append, List.append_assoc, ← hr]
        rfl
      · cases h
        rfl

/-- Enough steps are made for all columns, so reading ends where no further one begins. -/
theorem endsColumns_moreColumns {fuel : Nat} {s : Text} (hfuel : s.length ≤ fuel)
    (hhead : s.head? ≠ some '"') : EndsColumns (moreColumns fuel s).2 := by
  induction fuel generalizing s with
  | zero =>
      have hnil : s = [] := List.eq_nil_of_length_eq_zero (by omega)
      rw [hnil]
      exact ⟨by simp [moreColumns], not_startsWithItem (by simp [moreColumns])⟩
  | succ fuel ih =>
      unfold moreColumns
      split
      · rename_i c r hread
        obtain ⟨hs, hnext⟩ := identifierAfter_eq_ok_iff.mp hread
        have hlength : s.length = 1 + ((quoteIdentifier c).length + r.length) := by
          rw [hs, List.length_append, List.length_append]
          rfl
        exact ih (by omega) hnext
      · rename_i stop hstop
        exact ⟨hhead, (exists_identifierAfter_error rfl).mp ⟨stop, hstop⟩⟩

theorem head?_columnsText_append {columns : List String} {rest : Text}
    (hrest : rest.head? ≠ some '"') : (columnsText columns ++ rest).head? ≠ some '"' := by
  cases columns with
  | nil => exact hrest
  | cons c columns => simp [columnsText_cons]

theorem moreColumns_append {fuel : Nat} {columns : List String} {rest : Text}
    (hfuel : columns.length ≤ fuel) (hend : EndsColumns rest) :
    moreColumns fuel (columnsText columns ++ rest) = (columns, rest) := by
  induction columns generalizing fuel with
  | nil =>
      cases fuel with
      | zero => rfl
      | succ fuel =>
          obtain ⟨stop, hstop⟩ : ∃ stop, identifierAfter "," rest = .error stop :=
            (exists_identifierAfter_error rfl).mpr hend.2
          have hnone : columnsText [] ++ rest = rest := rfl
          simp only [hnone, moreColumns, hstop]
  | cons c columns ih =>
      obtain ⟨fuel, rfl⟩ : ∃ n, fuel = n + 1 := ⟨fuel - 1, by simp at hfuel; omega⟩
      have hshape : columnsText (c :: columns) ++ rest =
          ",".toList ++ (quoteIdentifier c ++ (columnsText columns ++ rest)) := by
        simp [columnsText_cons]
      have hread : identifierAfter "," (columnsText (c :: columns) ++ rest) =
          .ok (c, columnsText columns ++ rest) :=
        identifierAfter_eq_ok_iff.mpr ⟨hshape, head?_columnsText_append hend.1⟩
      have hrest : moreColumns fuel (columnsText columns ++ rest) = (columns, rest) :=
        ih (by simpa using hfuel)
      simp only [moreColumns, hread, hrest]

theorem columns_eq_ok_iff {s rest : Text} {columns : List String} :
    HintReader.columns s = .ok (columns, rest) ↔
      columns ≠ [] ∧ s = columnsText columns ++ rest ∧ EndsColumns rest := by
  simp only [HintReader.columns, bind_eq_ok_iff, Prod.exists, identifierAfter_eq_ok_iff]
  constructor
  · rintro ⟨c, r, ⟨rfl, hhead⟩, h⟩
    obtain ⟨hcolumns, hrest⟩ := Prod.mk.inj (Except.ok.inj h)
    have hr : r = columnsText (moreColumns r.length r).1 ++ (moreColumns r.length r).2 :=
      columnsText_of_moreColumns rfl
    refine ⟨by simp [← hcolumns], ?_, ?_⟩
    · rw [← hcolumns, ← hrest, columnsText_cons, List.cons_append, List.append_assoc, ← hr]
      rfl
    · rw [← hrest]
      exact endsColumns_moreColumns le_rfl hhead
  · rintro ⟨hne, rfl, hend⟩
    obtain ⟨c, cs, rfl⟩ := List.exists_cons_of_ne_nil hne
    refine ⟨c, columnsText cs ++ rest, ⟨by simp [columnsText_cons], ?_⟩, ?_⟩
    · exact head?_columnsText_append hend.1
    · -- A column takes up more of the text than the one unit of the bound that it uses.
      have hfuel : cs.length ≤ (columnsText cs ++ rest).length := by
        have hle := length_le_columnsText cs
        rw [List.length_append]
        omega
      rw [moreColumns_append hfuel hend]
      rfl

theorem hint_eq_ok_iff {s rest : Text} {h : ReturningHint} :
    hint s = .ok (h, rest) ↔
      s = h.operation.keyword.toList ++
          ' ' :: (h.table.quote ++ (columnsText h.columns ++ rest)) ∧
        EndsTable h.table (columnsText h.columns ++ rest) ∧ h.columns ≠ [] ∧
        EndsColumns rest := by
  obtain ⟨o, t, columns⟩ := h
  simp only [hint, bind_eq_ok_iff, Prod.exists, operation_eq_ok_iff, word_eq_ok_iff,
    table_eq_ok_iff, columns_eq_ok_iff]
  constructor
  · rintro ⟨o', _, rfl, _, _, rfl, t', _, ⟨rfl, ht⟩, columns', rest', ⟨hne, rfl, hend⟩, heq⟩
    cases heq
    exact ⟨rfl, ht, hne, hend⟩
  · rintro ⟨rfl, ht, hne, hend⟩
    exact ⟨o, _, rfl, (), _, rfl, t, _, ⟨rfl, ht⟩, columns, rest, ⟨hne, rfl, hend⟩, rfl⟩

/-- A text is a hint if and only if it is written as one that has a column. -/
theorem wholeHint_eq_ok_iff {s : Text} {h : ReturningHint} :
    wholeHint s = .ok h ↔ s = h.body ∧ h.columns ≠ [] := by
  have hwhole : wholeHint s = .ok h ↔ hint s = .ok (h, []) := by
    simp only [wholeHint, bind_eq_ok_iff, Prod.exists]
    constructor
    · rintro ⟨h', rest, hread, hrest⟩
      cases rest with
      | nil =>
          cases hrest
          exact hread
      | cons c rest => cases hrest
    · intro hread
      exact ⟨h, [], hread, rfl⟩
  rw [hwhole, hint_eq_ok_iff, List.append_nil]
  constructor
  · rintro ⟨hs, -, hcolumns, -⟩
    exact ⟨hs, hcolumns⟩
  · rintro ⟨hs, hcolumns⟩
    refine ⟨hs, ?_, hcolumns, ?_⟩
    · obtain ⟨c, columns, hcons⟩ := List.exists_cons_of_ne_nil hcolumns
      rw [hcons, columnsText_cons]
      exact ⟨by simp, fun _ => not_startsWithItem (by simp)⟩
    · exact ⟨by simp, not_startsWithItem (by simp)⟩

/-- Without columns, reading goes up to the end of the text and stops there. -/
theorem wholeHint_without_columns (o : Operation) (t : QualifiedName) :
    wholeHint (body ⟨o, t, []⟩) = .error [] := by
  have ho : operation (o.keyword.toList ++ ' ' :: t.quote) = .ok (o, ' ' :: t.quote) :=
    operation_eq_ok_iff.mpr rfl
  have hw : word " " (' ' :: t.quote) = .ok ((), t.quote) := word_eq_ok_iff.mpr rfl
  have ht : HintReader.table t.quote = .ok (t, []) := table_quote_eq_ok t
  have hcs : HintReader.columns [] = .error [] := rfl
  simp [wholeHint, hint, body, columnsText, ho, hw, ht, hcs, bind, Except.bind]

end HintReader

/-- A written name is read back as its schema and its name, so no two names share a text. -/
theorem QualifiedName.quote_injective : Function.Injective QualifiedName.quote := by
  intro t u hsame
  have hread : HintReader.table t.quote = .ok (t, []) := HintReader.table_quote_eq_ok t
  rw [hsame, HintReader.table_quote_eq_ok u] at hread
  cases hread
  rfl

/-- Reading a name inverts quoting it, whatever follows but a further quote, and accepts
nothing else. Quoted names of tables are equal only if their schemas and names are. -/
theorem identifier_inverts_quoting (s rest : Text) (name : String) (t u : QualifiedName) :
    (rest.head? ≠ some '"' →
      HintReader.identifier (quoteIdentifier name ++ rest) = .ok (name, rest)) ∧
    (HintReader.identifier s = .ok (name, rest) →
      s = quoteIdentifier name ++ rest ∧ rest.head? ≠ some '"') ∧
    (t.quote = u.quote → t = u) := by
  refine ⟨?_, ?_, ?_⟩
  · intro hhead
    exact HintReader.identifier_eq_ok_iff.mpr ⟨rfl, hhead⟩
  · intro hread
    exact HintReader.identifier_eq_ok_iff.mp hread
  · intro hsame
    exact QualifiedName.quote_injective hsame

/-- A name of two quotes before a point, and two names of tables that differ by two quotes
only: a schema `a` with the name `b`, and the name `a"."b` without a schema. -/
theorem identifier_inverts_quoting_in_sample :
    HintReader.identifier "\"\"\"\"\"\".\"b\"".toList = .ok ("\"\"", ".\"b\"".toList) ∧
    "\"\"\"\"\"\".\"b\"".toList = quoteIdentifier "\"\"" ++ ".\"b\"".toList ∧
    QualifiedName.quote ⟨some "a", "b"⟩ = "\"a\".\"b\"".toList ∧
    QualifiedName.quote ⟨none, "a\".\"b"⟩ = "\"a\"\".\"\"b\"".toList ∧
    QualifiedName.quote ⟨some "a", "b"⟩ ≠ QualifiedName.quote ⟨none, "a\".\"b"⟩ := by
  obtain ⟨hread, hback, hname⟩ :=
    identifier_inverts_quoting "\"\"\"\"\"\".\"b\"".toList ".\"b\"".toList "\"\""
      ⟨some "a", "b"⟩ ⟨none, "a\".\"b"⟩
  have hok := hread (by decide)
  refine ⟨hok, (hback hok).1, rfl, rfl, fun hsame => ?_⟩
  exact absurd (hname hsame) (by decide)

end LiteSql
