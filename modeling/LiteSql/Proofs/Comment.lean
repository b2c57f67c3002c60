import LiteSql.Proofs.Hint
import LiteSql.Proofs.RowText
import LiteSql.Proofs.Tokens

/-!
# Hints as comments

A hint ends its statement as a comment, and a comment ends at a line feed. The
quotes around a name mean nothing there, so an engine goes on reading at every
line feed in a name of the hint, and what it reads is no longer hidden. A
statement with a hint is read as the statement without it and a semicolon
exactly if each line feed in a name leads into the next comment, with nothing but
blanks before it. Names without line feeds are always safe.
-/

namespace LiteSql

/-- Whether a comment starts the text, apart from blanks. -/
def resumesComment (s : Text) : Bool :=
  "--".toList.isPrefixOf (s.dropWhile isSqlSpace)

/-- Whether a comment starts after every line feed, apart from blanks. -/
def staysInComment : Text → Bool
  | [] => true
  | c :: s => (c != '\n' || resumesComment s) && staysInComment s

theorem resumesComment_space {c : Char} (hc : isSqlSpace c) (s : Text) :
    resumesComment (c :: s) = resumesComment s := by
  simp [resumesComment, hc]

theorem resumesComment_cons {c : Char} (hc : isSqlSpace c = false) (s : Text) :
    resumesComment (c :: s) = (c == '-' && s.head? == some '-') := by
  have hdrop : (c :: s).dropWhile isSqlSpace = c :: s := by simp [hc]
  have hpair : "--".toList = ['-', '-'] := rfl
  rw [resumesComment, hdrop, hpair]
  cases s with
  | nil => simp [List.isPrefixOf]
  | cons d s => simp [List.isPrefixOf, Bool.beq_comm]

namespace Scanner

/-- Whether the scanner is in a token, so that it gives a token sooner or later. -/
def inToken : Scanner → Bool
  | word _ | quoted _ _ | closing _ _ => true
  | ready | dash | comment => false

theorem restart_ne_nil {q : Scanner} (hq : q.pending ≠ []) (c : Char) :
    (q.restart c).1 ≠ [] := by
  unfold restart
  split
  · exact hq
  · split
    · exact hq
    · split
      · exact hq
      · split
        · exact hq
        · simp

theorem step_inToken {q : Scanner} (hq : q.inToken) (c : Char) :
    (q.step c).1 ≠ [] ∨ (q.step c).2.inToken := by
  cases q with
  | ready => cases hq
  | dash => cases hq
  | comment => cases hq
  | word s =>
      by_cases hc : isWordChar c
      · exact .inr (by simp [step, hc, inToken])
      · have hrestart := restart_ne_nil (q := word s) (by simp [pending]) c
        exact .inl (by simpa [step, hc] using hrestart)
  | quoted mark content =>
      by_cases hc : c = mark.char
      · exact .inr (by simp [step, hc, inToken])
      · exact .inr (by simp [step, hc, inToken])
  | closing mark content =>
      by_cases hc : c = mark.char
      · exact .inr (by simp [step, hc, inToken])
      · have hrestart := restart_ne_nil (q := closing mark content) (by simp [pending]) c
        exact .inl (by simpa [step, hc] using hrestart)

theorem tokens_ne_nil {q : Scanner} (hq : q.inToken) (s : Text) : q.tokens s ≠ [] := by
  induction s generalizing q with
  | nil => cases q <;> simp_all [inToken, pending]
  | cons c s ih =>
      rw [tokens_cons]
      rcases step_inToken hq c with hstep | hnext
      · simp [hstep]
      · simp [ih hnext]

theorem step_ready {c : Char} (hspace : isSqlSpace c = false) (hdash : c ≠ '-') :
    (ready.step c).1 ≠ [] ∨ (ready.step c).2.inToken := by
  cases hmark : quoteMark? c with
  | some mark => exact .inr (by simp [step, restart, hspace, hmark, inToken])
  | none =>
      by_cases hword : isWordChar c
      · exact .inr (by simp [step_wordChar hword, inToken])
      · exact .inl (by simp [step, restart, hspace, hmark, hdash, hword])

theorem step_dash {c : Char} (hc : c ≠ '-') : (dash.step c).1 ≠ [] := by
  have hrestart := restart_ne_nil (q := dash) (by simp [pending]) c
  simpa [step, hc] using hrestart

/-- Whether a text that starts in the state `q` gives no token and ends in a
comment. -/
def hides (q : Scanner) (s : Text) : Bool :=
  match q with
  | comment => staysInComment s
  | ready => resumesComment s && staysInComment s
  | dash => s.head? == some '-' && staysInComment s
  | word _ | quoted _ _ | closing _ _ => false

theorem hides_of_inToken {q : Scanner} (hq : q.inToken) (s : Text) : q.hides s = false := by
  cases q <;> first | rfl | cases hq

theorem not_hides_of_step {q : Scanner} {c : Char}
    (h : (q.step c).1 ≠ [] ∨ (q.step c).2.inToken) (s : Text) :
    ¬ ((q.step c).1 = [] ∧ (q.step c).2.hides s) := by
  rintro ⟨hnil, hhides⟩
  rcases h with hstep | hnext
  · exact hstep hnil
  · rw [hides_of_inToken hnext] at hhides
    cases hhides

/-- Each character of a hidden text keeps the rest hidden. -/
theorem hides_cons (q : Scanner) (c : Char) (s : Text) :
    q.hides (c :: s) ↔ (q.step c).1 = [] ∧ (q.step c).2.hides s := by
  by_cases hq : q.inToken
  · have hstep := not_hides_of_step (step_inToken hq c) s
    simpa [hides_of_inToken hq] using hstep
  · cases q with
    | word _ | quoted _ _ | closing _ _ => exact absurd rfl hq
    | comment =>
        by_cases hc : c = '\n'
        · simp [hides, step, staysInComment, hc]
        · simp [hides, step, staysInComment, hc]
    | dash =>
        by_cases hc : c = '-'
        · simp [hides, step, staysInComment, hc]
        · simp [hides, step_dash hc, hc]
    | ready =>
        by_cases hspace : isSqlSpace c
        · -- A line feed asks for nothing new here: a comment has to follow anyway.
          have hstep : ready.step c = ([], ready) := by simp [step, restart, hspace, pending]
          simp only [hstep, hides, staysInComment, resumesComment_space hspace,
            Bool.and_eq_true, Bool.or_eq_true, true_and]
          exact ⟨fun h => ⟨h.1, h.2.2⟩, fun h => ⟨h.1, .inr h.1, h.2⟩⟩
        · rw [Bool.not_eq_true] at hspace
          by_cases hdash : c = '-'
          · subst hdash
            have hstep : ready.step '-' = ([], dash) := rfl
            simp [hides, hstep, staysInComment, resumesComment_cons hspace]
          · have hstep := not_hides_of_step (step_ready hspace hdash) s
            simpa [hides, resumesComment_cons hspace, hdash] using hstep

theorem tokens_quote_eq_nil_iff (q : Scanner) (t : Text) :
    q.tokens ('"' :: t) = [] ↔ q.hides [] ∧ comment.tokens t = [] := by
  by_cases hq : q.inToken
  · simp [tokens_ne_nil hq, hides_of_inToken hq]
  · cases q with
    | word _ | quoted _ _ | closing _ _ => exact absurd rfl hq
    | comment => simp [tokens_cons, step, hides, staysInComment]
    | dash => simp [tokens_cons, step_dash, hides]
    | ready =>
        have hopened : ready.tokens ('"' :: t) ≠ [] :=
          tokens_ne_nil (q := quoted .double []) rfl t
        simpa [hides, resumesComment] using hopened

theorem tokens_append_quote_eq_nil_iff (q : Scanner) (s t : Text) :
    q.tokens (s ++ '"' :: t) = [] ↔ q.hides s ∧ comment.tokens t = [] := by
  induction s generalizing q with
  | nil => exact tokens_quote_eq_nil_iff q t
  | cons c s ih =>
      rw [List.cons_append, tokens_cons, List.append_eq_nil_iff, ih, hides_cons, and_assoc]

theorem tokens_comment_append {s : Text} (hs : '\n' ∉ s) (t : Text) :
    comment.tokens (s ++ t) = comment.tokens t := by
  induction s with
  | nil => rfl
  | cons c s ih =>
      have hc : c ≠ '\n' := fun heq => hs (by simp [heq])
      have hrest : '\n' ∉ s := fun hmem => hs (by simp [hmem])
      simp [tokens_cons, step, hc, ih hrest]

end Scanner

theorem resumesComment_doubled (s : Text) :
    resumesComment (Text.doubled '"' s) = resumesComment s := by
  induction s with
  | nil => rfl
  | cons c s ih =>
      by_cases hquote : c = '"'
      · subst hquote
        simp [Text.doubled_cons, resumesComment_cons (c := '"') rfl]
      · rw [Text.doubled_cons, if_neg hquote]
        by_cases hspace : isSqlSpace c
        · rw [resumesComment_space hspace, resumesComment_space hspace, ih]
        · rw [Bool.not_eq_true] at hspace
          rw [resumesComment_cons hspace, resumesComment_cons hspace]
          cases s with
          | nil => rfl
          | cons d s => by_cases hd : d = '"' <;> simp [Text.doubled_cons, hd]

theorem staysInComment_doubled (s : Text) :
    staysInComment (Text.doubled '"' s) = staysInComment s := by
  induction s with
  | nil => rfl
  | cons c s ih =>
      by_cases hquote : c = '"'
      · simp [Text.doubled_cons, staysInComment, hquote, ih]
      · simp [Text.doubled_cons, staysInComment, hquote, ih, resumesComment_doubled]

namespace Scanner

theorem tokens_quoteIdentifier_eq_nil_iff (name : String) (t : Text) :
    comment.tokens (quoteIdentifier name ++ t) = [] ↔
      staysInComment name.toList ∧ comment.tokens t = [] := by
  have hopened : comment.tokens (quoteIdentifier name ++ t) =
      comment.tokens (Text.doubled '"' name.toList ++ '"' :: t) := by
    simp [quoteIdentifier, Text.quoted, tokens_cons, step]
  rw [hopened, tokens_append_quote_eq_nil_iff, hides, staysInComment_doubled]

theorem tokens_quote_append_eq_nil_iff (table : QualifiedName) (t : Text) :
    comment.tokens (table.quote ++ t) = [] ↔
      (∀ name ∈ table.schema.toList ++ [table.name], staysInComment name.toList) ∧
        comment.tokens t = [] := by
  cases hschema : table.schema with
  | none => simp [QualifiedName.quote, hschema, tokens_quoteIdentifier_eq_nil_iff]
  | some schema =>
      have hpoint : ∀ s : Text, comment.tokens ('.' :: s) = comment.tokens s := fun s => rfl
      simp [QualifiedName.quote, hschema, tokens_quoteIdentifier_eq_nil_iff, hpoint, and_assoc]

theorem tokens_columnsText_eq_nil_iff (columns : List String) :
    comment.tokens (ReturningHint.columnsText columns) = [] ↔
      ∀ name ∈ columns, staysInComment name.toList := by
  induction columns with
  | nil => simp [ReturningHint.columnsText, pending]
  | cons c columns ih =>
      have hcomma : ∀ s : Text, comment.tokens (',' :: s) = comment.tokens s := fun s => rfl
      simp [ReturningHint.columnsText_cons, hcomma, tokens_quoteIdentifier_eq_nil_iff, ih]

theorem tokens_body_eq_nil_iff (h : ReturningHint) :
    comment.tokens h.body = [] ↔ ∀ name ∈ h.names, staysInComment name.toList := by
  have hfront : '\n' ∉ h.operation.keyword.toList ++ [' '] := by
    cases h.operation <;> decide
  rw [h.body_eq, tokens_comment_append hfront, tokens_quote_append_eq_nil_iff,
    tokens_columnsText_eq_nil_iff, ← List.forall_mem_append]
  simp [ReturningHint.names]

/-- A hint is read as a semicolon and what escapes from its comment. -/
theorem tokens_append_text {s : Text} (hs : Settled s) (h : ReturningHint) :
    ready.tokens (s ++ h.text) = ready.tokens s ++ .symbol ';' :: comment.tokens h.body := by
  have hfront : '\n' ∉ "RETURNING ON ".toList := by decide
  have hmarker : returningMarker = ' ' :: ';' :: '-' :: '-' :: "RETURNING ON ".toList := by decide
  have htext : h.text = ' ' :: ';' :: '-' :: '-' :: ("RETURNING ON ".toList ++ h.body) := by
    rw [h.text_eq, hmarker]
    rfl
  rw [htext, tokens_append_separator hs rfl, ← tokens_comment_append hfront h.body]
  rfl

end Scanner

theorem comma_quoteIdentifiers (c : String) (columns : List String) :
    ',' :: quoteIdentifiers "," (c :: columns) = ReturningHint.columnsText (c :: columns) := by
  induction columns generalizing c with
  | nil => simp [quoteIdentifiers, Text.joined, ReturningHint.columnsText]
  | cons d columns ih =>
      rw [ReturningHint.columnsText_cons, ← ih d]
      simp [quoteIdentifiers, Text.joined]

theorem returningClause_eq_text (operation : Operation) (table : QualifiedName)
    {columns : List String} (h : columns ≠ []) :
    returningClause operation table columns =
      (ReturningHint.mk operation table columns).text := by
  cases columns with
  | nil => exact absurd rfl h
  | cons c columns =>
      have hclause : returningClause operation table (c :: columns) =
          returningMarker ++ operation.keyword.toList ++ ' ' ::
            (table.quote ++ ',' :: quoteIdentifiers "," (c :: columns)) := rfl
      rw [hclause, comma_quoteIdentifiers, ReturningHint.text_eq, ReturningHint.body,
        List.append_assoc]

theorem separates_comma : Separates ", ".toList :=
  separates_cons rfl rfl

theorem separates_and : Separates " AND ".toList :=
  separates_cons rfl rfl

theorem separates_where : Separates " WHERE ".toList :=
  separates_cons rfl rfl

theorem settled_equations (next : Nat) (columns : List String) :
    ∀ s ∈ equations next columns, Settled s := by
  induction columns generalizing next with
  | nil => simp [equations]
  | cons c columns ih =>
      have hequals : Separates " = ".toList := separates_cons rfl rfl
      have hfirst := (Settled.quoteIdentifier c).separated hequals (.placeholder next)
      intro s hs
      rw [equations, List.mem_cons] at hs
      rcases hs with rfl | hs
      · simpa using hfirst
      · exact ih (next + 1) s hs

theorem settled_insertBody (table : QualifiedName) (next : Nat) (columns : List String) :
    Settled (table.quote ++ insertBody next columns) := by
  cases columns with
  | nil =>
      have hdefault : Separates " DEFAULT ".toList := separates_cons rfl rfl
      have hvalues : Settled "VALUES".toList := rfl
      exact (Settled.quote table).separated hdefault hvalues
  | cons c columns =>
      have hopen : Separates [' ', '('] := separates_cons rfl rfl
      have hvalues : Separates (')' :: (" VALUES ".toList ++ ['('])) := separates_cons rfl rfl
      have hclose : Separates [')'] := separates_cons rfl rfl
      have hnames := Settled.joined separates_comma
        (List.forall_mem_map.mpr fun name (_ : name ∈ c :: columns) => .quoteIdentifier name)
      have hmarks := Settled.joined separates_comma
        (List.forall_mem_map.mpr fun n (_ : n ∈ List.range' next (c :: columns).length) =>
          .placeholder n)
      have hempty : Settled [] := rfl
      have hbody := (Settled.quote table).separated hopen
        (hnames.separated hvalues (hmarks.separated hclose hempty))
      have hshape : ∀ names values marks : Text,
          ' ' :: (Text.parenthesized names ++ values ++ Text.parenthesized marks) =
            [' ', '('] ++ (names ++ (')' :: (values ++ ['(']) ++ (marks ++ ([')'] ++ [])))) := by
        intro names values marks
        simp [Text.parenthesized]
      rw [insertBody_of_ne_nil (List.cons_ne_nil c columns), hshape]
      exact hbody

theorem RowStatement.settled_front (st : RowStatement) : Settled st.front := by
  cases st with
  | insert table fields =>
      have hlead : Scanner.ready.after "INSERT INTO ".toList = .ready := rfl
      have hfront := Settled.led hlead (settled_insertBody table 1 (columnNames fields))
      rwa [front_insert, List.append_assoc]
  | update table fields filters =>
      have hlead : Scanner.ready.after "UPDATE ".toList = .ready := rfl
      have hset : Separates " SET ".toList := separates_cons rfl rfl
      have hassigned := Settled.joined separates_comma (settled_equations 1 (columnNames fields))
      have hfiltered := Settled.joined separates_and
        (settled_equations (fields.length + 1) (columnNames filters))
      have hfront := Settled.led hlead
        ((Settled.quote table).separated hset (hassigned.separated separates_where hfiltered))
      rw [front_update]
      simpa only [List.append_assoc] using hfront
  | delete table filters =>
      have hlead : Scanner.ready.after "DELETE FROM ".toList = .ready := rfl
      have hfiltered := Settled.joined separates_and (settled_equations 1 (columnNames filters))
      have hfront := Settled.led hlead ((Settled.quote table).separated separates_where hfiltered)
      rw [front_delete]
      simpa only [List.append_assoc] using hfront

def Compiled.tokens (c : Compiled) : List Token :=
  Scanner.ready.tokens c.sql.toList

theorem RowStatement.tokens_iff (st : RowStatement) {returning : List String}
    (hreturning : returning ≠ []) {c : Compiled} (hc : st.compile returning = .ok c) :
    ∃ c₀, st.compile [] = .ok c₀ ∧
      (c.tokens = c₀.tokens ++ [.symbol ';'] ↔
        ∀ name ∈ st.table.schema.toList ++ st.table.name :: returning,
          staysInComment name.toList) := by
  obtain ⟨haccepted, rfl⟩ := compile_eq_ok_iff.mp hc
  refine ⟨st.compiled [], compile_eq_ok_iff.mpr ⟨haccepted, rfl⟩, ?_⟩
  let hint : ReturningHint := ⟨st.operation, st.table, returning⟩
  have htokens := Scanner.tokens_append_text st.settled_front hint
  have hnames := Scanner.tokens_body_eq_nil_iff hint
  rw [Compiled.tokens, Compiled.tokens, st.compiled_nil, compiled,
    returningClause_eq_text st.operation st.table hreturning, String.toList_ofList,
    String.toList_ofList, htokens, List.append_cancel_left_eq, List.cons_inj_right, hnames]
  rfl

/-- A statement with columns to return is read as the statement without them and a
semicolon, and as nothing else, exactly if no line feed in its table name, its
schema or these columns leads out of the comment. -/
theorem returning_inert_iff (table : QualifiedName) (fields filters : List ColumnValue)
    {build : List String → Except Error Compiled}
    (hbuild : build = compileInsert table fields ∨ build = compileUpdate table fields filters ∨
      build = compileDelete table filters)
    {returning : List String} (hreturning : returning ≠ []) {c : Compiled}
    (hc : build returning = .ok c) :
    ∃ c₀, build [] = .ok c₀ ∧
      (c.tokens = c₀.tokens ++ [.symbol ';'] ↔
        ∀ name ∈ table.schema.toList ++ table.name :: returning, staysInComment name.toList) := by
  rcases hbuild with rfl | rfl | rfl
  · exact (RowStatement.insert table fields).tokens_iff hreturning hc
  · exact (RowStatement.update table fields filters).tokens_iff hreturning hc
  · exact (RowStatement.delete table filters).tokens_iff hreturning hc

/-- A line feed does no harm where the name itself goes on with a comment. -/
theorem returning_inert_in_sample :
    ∃ c c₀, compileUpdate ⟨some "main", "m"⟩ [("x", .bool true)] [("id", .null)]
        ["id", "a\n --b"] = .ok c ∧
      compileUpdate ⟨some "main", "m"⟩ [("x", .bool true)] [("id", .null)] [] = .ok c₀ ∧
      c.tokens = c₀.tokens ++ [.symbol ';'] := by
  have hreturning : ["id", "a\n --b"] ≠ [] := by simp
  obtain ⟨c₀, hplain, hiff⟩ := returning_inert_iff ⟨some "main", "m"⟩ [("x", .bool true)]
    [("id", .null)] (.inr (.inl rfl)) hreturning rfl
  exact ⟨_, c₀, rfl, hplain, hiff.mpr (by decide)⟩

/-- The name of a column to return that is executed as a statement of its own. -/
theorem returning_runs_after_line_feed :
    ∃ c c₀, compileInsert ⟨none, "m"⟩ [] ["id\n;DROP TABLE m;--"] = .ok c ∧
      compileInsert ⟨none, "m"⟩ [] [] = .ok c₀ ∧
      c.tokens = c₀.tokens ++ [.symbol ';', .symbol ';', .word "DROP".toList,
        .word "TABLE".toList, .word "m".toList, .symbol ';'] := by
  refine ⟨_, _, rfl, rfl, ?_⟩
  rw [Compiled.tokens, Compiled.tokens, String.toList_ofList, String.toList_ofList]
  decide

end LiteSql
