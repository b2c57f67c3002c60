import LiteSql.Proofs.Comment
import LiteSql.Proofs.Splitting
import Mathlib.Data.List.Forall2

/-!
# Splitting statements on one row

A statement on one row is made of quoted names and of other text that has neither
quotes nor semicolons. A marker can therefore occur only inside of a name, and an
odd number of quotes follows it there. So a statement is split as it was written,
into the statement without its hint and the hint itself, exactly if no name has a
marker in it behind which no hint follows any more: no name at all if the
statement has no hint, and no name of the hint otherwise. In all other cases
splitting fails.

The hint is printed by the statement and by a hint on its own in the same way, so a
statement with columns to return is the one without them and the printed hint.
-/

namespace LiteSql

/-- The text is made of the names in quotes, in order, and of other text without
quotes and semicolons. -/
inductive Spells : List String → Text → Prop
  | plain {s : Text} : '"' ∉ s → ';' ∉ s → Spells [] s
  | name {before rest : Text} {names : List String} (name : String) :
      '"' ∉ before → ';' ∉ before → Spells names rest →
        Spells (name :: names) (before ++ (quoteIdentifier name ++ rest))

namespace Spells

theorem quoteIdentifier (name : String) : Spells [name] (quoteIdentifier name) := by
  have hend : Spells [] [] := plain (by simp) (by simp)
  have hname : Spells [name] ([] ++ (LiteSql.quoteIdentifier name ++ [])) :=
    .name name (by simp) (by simp) hend
  simpa using hname

theorem append {names names' : List String} {s t : Text} (hs : Spells names s)
    (ht : Spells names' t) : Spells (names ++ names') (s ++ t) := by
  induction hs with
  | @plain s hquote hsemicolon =>
      cases ht with
      | plain hquote' hsemicolon' =>
          exact plain (by simp [hquote, hquote']) (by simp [hsemicolon, hsemicolon'])
      | @name before rest names n hquote' hsemicolon' hrest =>
          have hquotes : '"' ∉ s ++ before := by simp [hquote, hquote']
          have hsemicolons : ';' ∉ s ++ before := by simp [hsemicolon, hsemicolon']
          simpa using Spells.name n hquotes hsemicolons hrest
  | name n hquote hsemicolon hrest ih =>
      simpa using Spells.name n hquote hsemicolon ih

theorem quote (table : QualifiedName) :
    Spells (table.schema.toList ++ [table.name]) table.quote := by
  cases hschema : table.schema with
  | none => simpa [QualifiedName.quote, hschema] using quoteIdentifier table.name
  | some schema =>
      have hpoint : Spells [] ['.'] := plain (by decide) (by decide)
      have hboth := (quoteIdentifier schema).append (hpoint.append (quoteIdentifier table.name))
      simpa [QualifiedName.quote, hschema] using hboth

theorem placeholder (n : Nat) : Spells [] (placeholder n) := by
  have hdigits (c : Char) (hc : c.isDigit = false) : c ∉ Text.digits n := by
    intro hmem
    have hdigit : c.isDigit := Nat.isDigit_of_mem_toDigits (by decide) (by decide) hmem
    rw [hc] at hdigit
    cases hdigit
  refine plain ?_ ?_
  · simpa [LiteSql.placeholder] using hdigits '"' rfl
  · simpa [LiteSql.placeholder] using hdigits ';' rfl

theorem joined {separator : String} (hseparator : Spells [] separator.toList)
    {namess : List (List String)} {parts : List Text}
    (hparts : List.Forall₂ Spells namess parts) :
    Spells namess.flatten (Text.joined separator parts) := by
  unfold Text.joined
  induction hparts with
  | nil => exact plain (by simp) (by simp)
  | @cons names s namess parts hs hrest ih =>
      cases hrest with
      | nil => simpa using hs
      | cons ht hrest =>
          rw [List.intercalate_cons_cons, List.append_assoc, List.flatten_cons]
          exact hs.append (hseparator.append ih)

theorem joined_singletons {separator : String} (hseparator : Spells [] separator.toList)
    {names : List String} {parts : List Text}
    (hparts : List.Forall₂ (fun n s => Spells [n] s) names parts) :
    Spells names (Text.joined separator parts) := by
  have hsingle : List.Forall₂ Spells (names.map fun n => [n]) parts :=
    List.forall₂_map_left_iff.mpr hparts
  have hflat : (names.map fun n => [n]).flatten = names := by
    rw [← List.flatMap_def, List.flatMap_singleton']
  have hjoined := joined hseparator hsingle
  rwa [hflat] at hjoined

theorem quoteIdentifiers {separator : String} (hseparator : Spells [] separator.toList)
    (names : List String) : Spells names (quoteIdentifiers separator names) := by
  apply joined_singletons hseparator
  induction names with
  | nil => exact .nil
  | cons n names ih => exact .cons (quoteIdentifier n) ih

theorem equations {separator : String} (hseparator : Spells [] separator.toList) (next : Nat)
    (columns : List String) :
    Spells columns (Text.joined separator (LiteSql.equations next columns)) := by
  apply joined_singletons hseparator
  induction columns generalizing next with
  | nil => exact .nil
  | cons c columns ih =>
      have hequals : Spells [] " = ".toList := plain (by decide) (by decide)
      have hfirst := ((quoteIdentifier c).append hequals).append (placeholder next)
      exact .cons hfirst (ih (next + 1))

theorem placeholders {separator : String} (hseparator : Spells [] separator.toList)
    (numbers : List Nat) :
    Spells [] (Text.joined separator (numbers.map LiteSql.placeholder)) := by
  have hparts : List.Forall₂ Spells (numbers.map fun _ => [])
      (numbers.map LiteSql.placeholder) := by
    induction numbers with
    | nil => exact .nil
    | cons n numbers ih => exact .cons (placeholder n) ih
  have hflat : (numbers.map fun _ => ([] : List String)).flatten = [] := by
    simp
  have hjoined := joined hseparator hparts
  rwa [hflat] at hjoined

theorem even_quotes {names : List String} {s : Text} (hs : Spells names s) :
    Even (s.count '"') := by
  induction hs with
  | plain hquote _ => simp [List.count_eq_zero_of_not_mem hquote]
  | name n hquote _ _ ih =>
      have hname := Text.even_count_quoted '"' n.toList
      rw [List.count_append, List.count_append, List.count_eq_zero_of_not_mem hquote, zero_add]
      exact hname.add ih

/-- A marker in the text is in one of its names, and an odd number of quotes
follows it. -/
theorem marker_in_name {names : List String} {s x y : Text} (hs : Spells names s)
    (hx : s = x ++ (returningMarker ++ y)) :
    (∃ n ∈ names, returningMarker <:+: n.toList) ∧ Odd (y.count '"') := by
  have hmark : ';' ∈ returningMarker := by decide
  induction hs generalizing x with
  | plain _ hsemicolon => exact absurd (by simp [hx, hmark]) hsemicolon
  | @name before rest names n hquote hsemicolon hrest ih =>
      obtain ⟨inner, hinner⟩ : ∃ inner, LiteSql.quoteIdentifier n ++ rest = '"' :: inner := ⟨_, rfl⟩
      rw [hinner] at hx
      rcases Text.occurs_before_or_after quote_not_mem_returningMarker hx with
        ⟨y', hbefore, -⟩ | ⟨x', hafter⟩
      · exact absurd (by simp [hbefore, hmark]) hsemicolon
      · have hname : LiteSql.quoteIdentifier n ++ rest =
            ('"' :: x') ++ (returningMarker ++ y) := by
          rw [hinner, hafter, List.cons_append]
        rcases ReturningHint.marker_in_quoted_append hrest.even_quotes hname with
          ⟨hwithin, hodd⟩ | ⟨x'', hx''⟩
        · exact ⟨⟨n, by simp, hwithin⟩, hodd⟩
        · obtain ⟨⟨m, hm, hwithin⟩, hodd⟩ := ih hx''
          exact ⟨⟨m, by simp [hm], hwithin⟩, hodd⟩

theorem infix_of_mem {names : List String} {s : Text} (hs : Spells names s) {n : String}
    (hn : n ∈ names) {w : Text} (hw : '"' ∉ w) (hwithin : w <:+: n.toList) : w <:+: s := by
  induction hs with
  | plain _ _ => cases hn
  | @name before rest names m _ _ _ ih =>
      refine List.infix_append_of_infix_right ?_
      rcases List.mem_cons.mp hn with rfl | hmem
      · exact List.infix_append_of_infix_left (Text.infix_quoted hw hwithin)
      · exact List.infix_append_of_infix_right (ih hmem)

theorem splitAtLastMarker_eq_none {names : List String} {s : Text} (hs : Spells names s)
    (hnames : ∀ n ∈ names, ¬ returningMarker <:+: n.toList) : splitAtLastMarker s = none := by
  rw [splitAtLastMarker_eq_none_iff]
  rintro ⟨x, y, hx⟩
  rw [List.append_assoc] at hx
  obtain ⟨⟨n, hn, hwithin⟩, -⟩ := hs.marker_in_name hx.symm
  exact hnames n hn hwithin

/-- After the last marker of the text there is no hint. -/
theorem wholeHint_of_marker {names : List String} {s : Text} (hs : Spells names s) {n : String}
    (hn : n ∈ names) (hwithin : returningMarker <:+: n.toList) :
    ∃ before after stop, splitAtLastMarker s = some (before, after) ∧
      HintReader.wholeHint after = .error stop := by
  have hinfix := hs.infix_of_mem hn quote_not_mem_returningMarker hwithin
  cases hsplit : splitAtLastMarker s with
  | none => exact absurd hinfix (splitAtLastMarker_eq_none_iff.mp hsplit)
  | some r =>
      obtain ⟨before, after⟩ := r
      have hodd := (hs.marker_in_name (eq_of_splitAtLastMarker hsplit)).2
      cases hread : HintReader.wholeHint after with
      | error stop => exact ⟨before, after, stop, rfl, hread⟩
      | ok h =>
          -- A hint has an even number of quotes.
          obtain ⟨hbody, -⟩ := HintReader.wholeHint_eq_ok_iff.mp hread
          have heven := h.even_quotes_body
          rw [← hbody] at heven
          exact absurd heven (Nat.not_even_iff_odd.mpr hodd)

end Spells

namespace RowStatement

def hint? (st : RowStatement) : List String → Option ReturningHint
  | [] => none
  | returning => some ⟨st.operation, st.table, returning⟩

/-- The names behind which no hint begins: all of them in a statement without a
hint, those of the hint otherwise. -/
def lastNames (st : RowStatement) (returning : List String) : List String :=
  st.table.schema.toList ++ st.table.name :: if returning = [] then st.columns else returning

theorem spells_insertBody (next : Nat) (columns : List String) :
    Spells columns (insertBody next columns) := by
  have hcomma : Spells [] ", ".toList := .plain (by decide) (by decide)
  cases columns with
  | nil =>
      have hdefault : Spells [] " DEFAULT VALUES".toList := .plain (by decide) (by decide)
      exact hdefault
  | cons c columns =>
      have hopen : Spells [] [' ', '('] := .plain (by decide) (by decide)
      have hvalues : Spells [] (')' :: (" VALUES ".toList ++ ['('])) :=
        .plain (by decide) (by decide)
      have hclose : Spells [] [')'] := .plain (by decide) (by decide)
      have hnames := Spells.quoteIdentifiers hcomma (c :: columns)
      have hmarks := Spells.placeholders hcomma (List.range' next (c :: columns).length)
      have hall := hopen.append (hnames.append (hvalues.append (hmarks.append hclose)))
      rw [insertBody_of_ne_nil (List.cons_ne_nil c columns)]
      simpa [Text.parenthesized] using hall

theorem spells_front (st : RowStatement) :
    Spells (st.table.schema.toList ++ st.table.name :: st.columns) st.front := by
  have hcomma : Spells [] ", ".toList := .plain (by decide) (by decide)
  have hand : Spells [] " AND ".toList := .plain (by decide) (by decide)
  have hwhere : Spells [] " WHERE ".toList := .plain (by decide) (by decide)
  cases st with
  | insert table fields =>
      have hlead : Spells [] "INSERT INTO ".toList := .plain (by decide) (by decide)
      have hfront := (hlead.append (.quote table)).append
        (spells_insertBody 1 (columnNames fields))
      simpa [front_insert, RowStatement.table, columns] using hfront
  | update table fields filters =>
      have hlead : Spells [] "UPDATE ".toList := .plain (by decide) (by decide)
      have hset : Spells [] " SET ".toList := .plain (by decide) (by decide)
      have hfields := Spells.equations hcomma 1 (columnNames fields)
      have hfilters := Spells.equations hand (fields.length + 1) (columnNames filters)
      have hfront := ((((hlead.append (.quote table)).append hset).append hfields).append
        hwhere).append hfilters
      simpa [front_update, RowStatement.table, columns] using hfront
  | delete table filters =>
      have hlead : Spells [] "DELETE FROM ".toList := .plain (by decide) (by decide)
      have hfilters := Spells.equations hand 1 (columnNames filters)
      have hfront := ((hlead.append (.quote table)).append hwhere).append hfilters
      simpa [front_delete, RowStatement.table, columns] using hfront

end RowStatement

/-- Asking for columns changes nothing but the end of a statement: the text goes on with
the hint as it is printed on its own, the parameters stay, and a statement that is
refused is refused for the same reason. -/
theorem compile_returning_eq_map (st : RowStatement) {returning : List String}
    (hreturning : returning ≠ []) :
    st.compile returning = (st.compile []).map fun c =>
      { c with
        sql := c.sql ++
          String.ofList (ReturningHint.mk st.operation st.table returning).text } := by
  have hclause := returningClause_eq_text st.operation st.table hreturning
  rw [RowStatement.compile_eq, RowStatement.compile_eq]
  cases st.refusal? with
  | none =>
      rw [st.compiled_nil, RowStatement.compiled, hclause, String.ofList_append]
      rfl
  | some e => rfl

/-- A DELETE with quotes in its schema and in a column to return, an INSERT of a row of
defaults, and a statement that is refused. -/
theorem compile_returning_eq_map_in_samples :
    (∃ c, compileDelete ⟨some "s\"", "m"⟩ [("id", .null)] [] = .ok c ∧
      compileDelete ⟨some "s\"", "m"⟩ [("id", .null)] ["a\"b", ""] =
        .ok ⟨c.sql ++ " ;--RETURNING ON DELETE \"s\"\"\".\"m\",\"a\"\"b\",\"\"", c.params⟩) ∧
    compileInsert ⟨none, "m"⟩ [] ["id"] =
      .ok ⟨"INSERT INTO \"m\" DEFAULT VALUES" ++ " ;--RETURNING ON INSERT \"m\",\"id\"", []⟩ ∧
    compileDelete ⟨none, "m"⟩ [] ["id"] = compileDelete ⟨none, "m"⟩ [] [] := by
  have hcolumns : ["a\"b", ""] ≠ [] := List.cons_ne_nil _ _
  have hcolumn : ["id"] ≠ [] := List.cons_ne_nil _ _
  refine ⟨⟨_, rfl, ?_⟩, ?_, compile_returning_eq_map (.delete ⟨none, "m"⟩ []) hcolumn⟩
  · exact compile_returning_eq_map (.delete ⟨some "s\"", "m"⟩ [("id", .null)]) hcolumns
  · exact compile_returning_eq_map (.insert ⟨none, "m"⟩ []) hcolumn

theorem splitReturning_of_stop {s before after stop : Text}
    (hsplit : splitAtLastMarker s = some (before, after))
    (hread : HintReader.wholeHint after = .error stop) :
    ∃ position hint, splitReturning (String.ofList s) = .error (.malformedHint position hint) := by
  simp [splitReturning, hsplit, hread]

theorem Spells.splitReturning_eq {names : List String} {s : Text} (hs : Spells names s)
    (hnames : ∀ n ∈ names, ¬ returningMarker <:+: n.toList) :
    splitReturning (String.ofList s) = .ok (String.ofList s, none) := by
  simp [splitReturning, hs.splitAtLastMarker_eq_none hnames]

theorem Spells.splitReturning_stops {names : List String} {s : Text} (hs : Spells names s)
    {n : String} (hn : n ∈ names) (hwithin : returningMarker <:+: n.toList) :
    ∃ position hint, splitReturning (String.ofList s) = .error (.malformedHint position hint) := by
  obtain ⟨before, after, stop, hsplit, hread⟩ := hs.wholeHint_of_marker hn hwithin
  exact splitReturning_of_stop hsplit hread

theorem ReturningHint.splitReturning_eq {h : ReturningHint} (s : Text) (hcolumns : h.columns ≠ [])
    (hnames : ∀ n ∈ h.names, ¬ returningMarker <:+: n.toList) :
    splitReturning (String.ofList (s ++ h.text)) = .ok (String.ofList s, some h) := by
  have hsplit := splitAtLastMarker_append s (h.splitAtLastMarker_text hnames)
  have hread := HintReader.wholeHint_eq_ok_iff.mpr ⟨rfl, hcolumns⟩
  simp [splitReturning, hsplit, hread]

theorem ReturningHint.splitReturning_stops {h : ReturningHint} (s : Text) {n : String}
    (hn : n ∈ h.names) (hwithin : returningMarker <:+: n.toList) :
    ∃ position hint, splitReturning (String.ofList (s ++ h.text)) =
      .error (.malformedHint position hint) := by
  obtain ⟨before, after, stop, hsplit, hread⟩ := wholeHint_of_marker_in_names hn hwithin
  exact splitReturning_of_stop (splitAtLastMarker_append s hsplit) hread

/-- A compiled statement on one row splits into itself without a hint and the hint
that was asked for, exactly if none of the names behind which no hint begins has a
marker in it. If one of them has, splitting fails. -/
theorem compiled_splits_iff (st : RowStatement) {returning : List String} {c : Compiled}
    (hc : st.compile returning = .ok c) :
    ∃ c₀, st.compile [] = .ok c₀ ∧
      (splitReturning c.sql = .ok (c₀.sql, st.hint? returning) ↔
        ∀ n ∈ st.lastNames returning, ¬ returningMarker <:+: n.toList) ∧
      ((∃ n ∈ st.lastNames returning, returningMarker <:+: n.toList) →
        ∃ position hint, splitReturning c.sql = .error (.malformedHint position hint)) := by
  obtain ⟨haccepted, rfl⟩ := RowStatement.compile_eq_ok_iff.mp hc
  have hfront := st.spells_front
  have hplain : st.compile [] = .ok (st.compiled []) :=
    RowStatement.compile_eq_ok_iff.mpr ⟨haccepted, rfl⟩
  -- Success without a marker and failure with one; the equivalence follows from the two.
  have hcases :
      ((∀ n ∈ st.lastNames returning, ¬ returningMarker <:+: n.toList) →
        splitReturning (st.compiled returning).sql =
          .ok ((st.compiled []).sql, st.hint? returning)) ∧
      ∀ n ∈ st.lastNames returning, returningMarker <:+: n.toList → ∃ position hint,
        splitReturning (st.compiled returning).sql = .error (.malformedHint position hint) := by
    rw [st.compiled_nil]
    cases returning with
    | nil =>
        rw [st.compiled_nil]
        exact ⟨hfront.splitReturning_eq, fun n hn hwithin => hfront.splitReturning_stops hn hwithin⟩
    | cons r rs =>
        let hint : ReturningHint := ⟨st.operation, st.table, r :: rs⟩
        have hne : r :: rs ≠ [] := List.cons_ne_nil r rs
        rw [RowStatement.compiled, returningClause_eq_text st.operation st.table hne]
        exact ⟨hint.splitReturning_eq st.front hne,
          fun n hn hwithin => hint.splitReturning_stops st.front hn hwithin⟩
  obtain ⟨hsplits, hstops⟩ := hcases
  refine ⟨_, hplain, ⟨fun hok n hn hwithin => ?_, hsplits⟩, ?_⟩
  · obtain ⟨position, hint, herror⟩ := hstops n hn hwithin
    rw [herror] at hok
    cases hok
  · rintro ⟨n, hn, hwithin⟩
    exact hstops n hn hwithin

/-- A marker in a column that is written does no harm when a hint follows. -/
theorem compiled_splits_in_sample :
    ∃ c c₀, compileInsert ⟨none, "m"⟩ [("a ;--RETURNING ON b", .int 1)] ["id"] = .ok c ∧
      compileInsert ⟨none, "m"⟩ [("a ;--RETURNING ON b", .int 1)] [] = .ok c₀ ∧
      splitReturning c.sql = .ok (c₀.sql, some ⟨.insert, ⟨none, "m"⟩, ["id"]⟩) := by
  let st : RowStatement := .insert ⟨none, "m"⟩ [("a ;--RETURNING ON b", .int 1)]
  obtain ⟨c, hc⟩ : ∃ c, st.compile ["id"] = .ok c := ⟨_, rfl⟩
  obtain ⟨c₀, hplain, hiff, -⟩ := compiled_splits_iff st hc
  refine ⟨c, c₀, hc, hplain, hiff.mpr ?_⟩
  intro n hn
  rw [← splitAtLastMarker_eq_none_iff]
  have hnames : st.lastNames ["id"] = ["m", "id"] := rfl
  rw [hnames] at hn
  rcases List.mem_cons.mp hn with rfl | hn
  · rfl
  · rcases List.mem_singleton.mp hn with rfl
    rfl

/-- Without a hint, the same column keeps the statement from being split. -/
theorem marker_in_column_stops_splitting :
    ∃ c, compileInsert ⟨none, "m"⟩ [("a ;--RETURNING ON b", .int 1)] [] = .ok c ∧
      splitReturning c.sql = .error (.malformedHint 36 "b\") VALUES (?1)".toList) :=
  ⟨_, rfl, by decide⟩

end LiteSql
