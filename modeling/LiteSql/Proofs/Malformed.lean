import LiteSql.Proofs.Splitting

/-!
# Where a malformed hint is refused

`StopsAt s n` lists the ways in which a text is not a hint, and the byte `n` at which
reading it stops in each of them. It says so in terms of the text alone: what an
identifier is that closes, which part of the text names the table, and how far the
columns go. Each reader of a part of a hint fails exactly in the way that concerns
its part, so the reader of hints fails exactly if the text stops somewhere.

The part that has been read is always the beginning of a hint. The position that is
reported for a whole text counts on from its last marker.
-/

namespace LiteSql

namespace Text

@[simp] theorem byteLength_append (s t : Text) :
    byteLength (s ++ t) = byteLength s + byteLength t := by
  induction s with
  | nil => simp [byteLength]
  | cons c s ih => simp [byteLength, ih, Nat.add_assoc]

theorem byteLength_ofList (s : Text) : (String.ofList s).utf8ByteSize = byteLength s := by
  induction s with
  | nil => rfl
  | cons c s ih =>
      have hsplit : String.ofList (c :: s) = String.singleton c ++ String.ofList s := by
        rw [String.singleton_eq_ofList, ← String.ofList_append]
        rfl
      rw [hsplit, String.utf8ByteSize_append, String.utf8ByteSize_singleton, ih, byteLength]

end Text

theorem Operation.byteLength_keyword (o : Operation) : Text.byteLength o.keyword.toList = 6 := by
  cases o <;> rfl

theorem Operation.byteLength_keyword_append (o : Operation) (s : Text) :
    Text.byteLength (o.keyword.toList ++ ' ' :: s) = 7 + Text.byteLength s := by
  have hblank : Text.byteLength (' ' :: s) = 1 + Text.byteLength s := rfl
  rw [Text.byteLength_append, byteLength_keyword, hblank]
  omega

namespace HintReader

open ReturningHint

/-- The text starts with a quote that is never closed. -/
def NeverClosed (s : Text) : Prop :=
  s.head? = some '"' ∧ ∀ name rest, ¬ StartsWithName s name rest

/-- The text is not a hint, and it can be read up to the byte `n`. -/
inductive StopsAt (s : Text) : Nat → Prop
  /-- No operation is named. -/
  | operation (h : ∀ o : Operation, ¬ o.keyword.toList <+: s) : StopsAt s 0
  /-- No blank follows the operation. -/
  | blank (o : Operation) (rest : Text) (hs : s = o.keyword.toList ++ rest)
      (h : rest.head? ≠ some ' ') : StopsAt s 6
  /-- No quote follows where the table is expected. -/
  | table (o : Operation) (rest : Text) (hs : s = o.keyword.toList ++ ' ' :: rest)
      (h : rest.head? ≠ some '"') : StopsAt s 7
  /-- The first identifier runs to the end of the text. -/
  | openTable (o : Operation) (rest : Text) (hs : s = o.keyword.toList ++ ' ' :: rest)
      (h : NeverClosed rest) : StopsAt s (Text.byteLength s)
  /-- No column follows the table. -/
  | comma (o : Operation) (t : QualifiedName) (rest : Text)
      (hs : s = o.keyword.toList ++ ' ' :: (t.quote ++ rest)) (ht : EndsTable t rest)
      (h : rest.head? ≠ some ',') : StopsAt s (7 + Text.byteLength t.quote)
  /-- No quote follows where the first column is expected. -/
  | column (o : Operation) (t : QualifiedName) (rest : Text)
      (hs : s = o.keyword.toList ++ ' ' :: (t.quote ++ ',' :: rest))
      (ht : EndsTable t (',' :: rest)) (h : rest.head? ≠ some '"') :
      StopsAt s (7 + Text.byteLength t.quote + 1)
  /-- The first column runs to the end of the text. -/
  | openColumn (o : Operation) (t : QualifiedName) (rest : Text)
      (hs : s = o.keyword.toList ++ ' ' :: (t.quote ++ ',' :: rest))
      (ht : EndsTable t (',' :: rest)) (h : NeverClosed rest) : StopsAt s (Text.byteLength s)
  /-- Something follows the last column that is complete. -/
  | remainder (o : Operation) (t : QualifiedName) (columns : List String) (rest : Text)
      (hs : s = o.keyword.toList ++ ' ' :: (t.quote ++ (columnsText columns ++ rest)))
      (ht : EndsTable t (columnsText columns ++ rest)) (hcolumns : columns ≠ [])
      (hend : EndsColumns rest) (hrest : rest ≠ []) :
      StopsAt s (7 + Text.byteLength t.quote + Text.byteLength (columnsText columns))

theorem bind_eq_error_iff {α β : Type} {x : Except Text α} {next : α → Except Text β}
    {stop : Text} : (x >>= next) = .error stop ↔
      x = .error stop ∨ ∃ a, x = .ok a ∧ next a = .error stop := by
  cases x with
  | error e => simp [bind, Except.bind]
  | ok a => simp [bind, Except.bind]

theorem word_eq_error_iff {w : String} {s stop : Text} :
    word w s = .error stop ↔ stop = s ∧ ¬ w.toList <+: s := by
  unfold word
  split
  · rename_i hstarts
    simp [List.isPrefixOf_iff_prefix.mp hstarts]
  · rename_i hstarts
    simp [mt List.isPrefixOf_iff_prefix.mpr hstarts, eq_comm]

theorem operation_eq_error_iff {s stop : Text} :
    operation s = .error stop ↔ stop = s ∧ ∀ o : Operation, ¬ o.keyword.toList <+: s := by
  constructor
  · intro h
    unfold operation at h
    split at h
    · cases h
    · rename_i hinsert
      split at h
      · cases h
      · rename_i hupdate
        split at h
        · cases h
        · rename_i hdelete
          cases h
          obtain ⟨rfl, hdelete⟩ := word_eq_error_iff.mp hdelete
          refine ⟨rfl, fun o => ?_⟩
          cases o with
          | insert => exact (word_eq_error_iff.mp hinsert).2
          | update => exact (word_eq_error_iff.mp hupdate).2
          | delete => exact hdelete
  · rintro ⟨rfl, h⟩
    have hword (o : Operation) : word o.keyword stop = .error stop :=
      word_eq_error_iff.mpr ⟨rfl, h o⟩
    simp only [operation, hword]

theorem singleton_prefix_iff {c : Char} {s : Text} : [c] <+: s ↔ s.head? = some c := by
  cases s with
  | nil => simp
  | cons d s => simp [eq_comm]

/-- An identifier is missing, or it is not closed. -/
theorem identifier_eq_error_iff {s stop : Text} :
    identifier s = .error stop ↔
      (s.head? ≠ some '"' ∧ stop = s) ∨ (NeverClosed s ∧ stop = []) := by
  cases hread : identifier s with
  | ok r =>
      obtain ⟨name, rest⟩ := r
      have hname : StartsWithName s name rest := identifier_eq_ok_iff.mp hread
      have hquote : s.head? = some '"' := by
        rw [hname.1]
        rfl
      refine iff_of_false (fun h => by cases h) ?_
      rintro (⟨hmissing, -⟩ | ⟨hopen, -⟩)
      · exact hmissing hquote
      · exact hopen.2 name rest hname
  | error t =>
      have hopen : s.head? = some '"' → NeverClosed s := by
        refine fun hquote => ⟨hquote, fun name rest hname => ?_⟩
        rw [identifier_eq_ok_iff.mpr hname] at hread
        cases hread
      have hstop : t = if s.head? = some '"' then [] else s := by
        unfold identifier at hread
        split at hread
        · cases hread
        · rename_i stop hquoted
          cases hread
          exact Text.eq_of_readQuoted_eq_error hquoted
      rw [hstop, Except.error.injEq]
      by_cases hquote : s.head? = some '"'
      · simp [hquote, hopen hquote, eq_comm]
      · simp [hquote, NeverClosed, eq_comm]

theorem identifierAfter_eq_error_iff {c : Char} {w : String} (hw : w.toList = [c])
    {s stop : Text} : identifierAfter w s = .error stop ↔
      (s.head? ≠ some c ∧ stop = s) ∨
        ∃ t, s = c :: t ∧
          ((t.head? ≠ some '"' ∧ stop = t) ∨ (NeverClosed t ∧ stop = [])) := by
  simp only [identifierAfter, bind_eq_error_iff, Prod.exists, word_eq_error_iff, word_eq_ok_iff,
    identifier_eq_error_iff, hw, singleton_prefix_iff, List.singleton_append]
  constructor
  · rintro (⟨rfl, h⟩ | ⟨_, t, h⟩)
    · exact .inl ⟨h, rfl⟩
    · exact .inr ⟨t, h⟩
  · rintro (⟨h, rfl⟩ | ⟨t, h⟩)
    · exact .inl ⟨rfl, h⟩
    · exact .inr ⟨(), t, h⟩

theorem table_eq_error_iff {s stop : Text} :
    HintReader.table s = .error stop ↔ identifier s = .error stop := by
  rw [HintReader.table, bind_eq_error_iff, or_iff_left]
  rintro ⟨⟨first, rest⟩, -, h⟩
  dsimp only at h
  split at h <;> cases h

theorem columns_eq_error_iff {s stop : Text} :
    HintReader.columns s = .error stop ↔ identifierAfter "," s = .error stop := by
  rw [HintReader.columns, bind_eq_error_iff, or_iff_left]
  rintro ⟨a, -, h⟩
  cases h

/-- The parts of a hint are read one after the other, and the first one that is malformed
stops the reading. -/
theorem hint_eq_error_iff {s stop : Text} :
    hint s = .error stop ↔
      (stop = s ∧ ∀ o : Operation, ¬ o.keyword.toList <+: s) ∨
      ∃ (o : Operation) (r : Text), s = o.keyword.toList ++ r ∧
        ((stop = r ∧ r.head? ≠ some ' ') ∨ ∃ r', r = ' ' :: r' ∧
          (identifier r' = .error stop ∨ ∃ t r'', (r' = t.quote ++ r'' ∧ EndsTable t r'') ∧
            identifierAfter "," r'' = .error stop)) := by
  have hpure (x : ReturningHint × Text) : (pure x : Except Text _) = .error stop ↔ False :=
    iff_of_false (fun h => by cases h) id
  have hblank : " ".toList = [' '] := rfl
  simp only [hint, bind_eq_error_iff, Prod.exists, operation_eq_error_iff, operation_eq_ok_iff,
    word_eq_error_iff, word_eq_ok_iff, table_eq_error_iff, table_eq_ok_iff, columns_eq_error_iff,
    hpure, and_false, exists_false, or_false, hblank, List.singleton_append, singleton_prefix_iff,
    exists_const]

theorem wholeHint_eq_error_iff {s stop : Text} :
    wholeHint s = .error stop ↔
      hint s = .error stop ∨ ∃ h, hint s = .ok (h, stop) ∧ stop ≠ [] := by
  rw [wholeHint, bind_eq_error_iff]
  refine or_congr_right ?_
  constructor
  · rintro ⟨⟨h, rest⟩, hread, hrest⟩
    dsimp only at hrest
    split at hrest
    · cases hrest
    · rename_i hne
      cases hrest
      exact ⟨h, hread, by simpa using hne⟩
  · rintro ⟨h, hread, hne⟩
    exact ⟨(h, stop), hread, by simp [hne]⟩

/-- What has been read when reading fails, and where that is. -/
theorem stopsAt_of_wholeHint {s stop : Text} (h : wholeHint s = .error stop) :
    ∃ read, s = read ++ stop ∧ StopsAt s (Text.byteLength read) := by
  rw [wholeHint_eq_error_iff, hint_eq_error_iff] at h
  rcases h with (⟨rfl, ho⟩ | ⟨o, r, rfl, ⟨rfl, hblank⟩ | ⟨r, rfl, h⟩⟩) | ⟨h, hread, hne⟩
  · exact ⟨[], rfl, .operation ho⟩
  · refine ⟨o.keyword.toList, rfl, ?_⟩
    rw [o.byteLength_keyword]
    exact .blank o stop rfl hblank
  · rw [identifier_eq_error_iff] at h
    rcases h with (⟨hquote, rfl⟩ | ⟨hopen, rfl⟩) | ⟨t, r, ⟨rfl, ht⟩, h⟩
    · refine ⟨o.keyword.toList ++ ' ' :: [], by simp, ?_⟩
      rw [o.byteLength_keyword_append]
      exact .table o stop rfl hquote
    · exact ⟨_, (List.append_nil _).symm, .openTable o r rfl hopen⟩
    · rw [identifierAfter_eq_error_iff (c := ',') rfl] at h
      rcases h with ⟨hcomma, rfl⟩ | ⟨r, rfl, ⟨hquote, rfl⟩ | ⟨hopen, rfl⟩⟩
      · refine ⟨o.keyword.toList ++ ' ' :: t.quote, by simp, ?_⟩
        rw [o.byteLength_keyword_append]
        exact .comma o t stop rfl ht hcomma
      · refine ⟨o.keyword.toList ++ ' ' :: (t.quote ++ [',']), by simp, ?_⟩
        rw [o.byteLength_keyword_append, Text.byteLength_append, ← Nat.add_assoc]
        exact .column o t stop rfl ht hquote
      · exact ⟨_, (List.append_nil _).symm, .openColumn o t r rfl ht hopen⟩
  · obtain ⟨rfl, ht, hcolumns, hend⟩ := hint_eq_ok_iff.mp hread
    refine ⟨h.operation.keyword.toList ++ ' ' :: (h.table.quote ++ columnsText h.columns),
      by simp, ?_⟩
    rw [h.operation.byteLength_keyword_append, Text.byteLength_append, ← Nat.add_assoc]
    exact .remainder h.operation h.table h.columns stop rfl ht hcolumns hend hne

/-- A quote that is never closed is the beginning of an identifier. -/
theorem NeverClosed.prefix_quoteIdentifier {s : Text} (hs : NeverClosed s) :
    ∃ name, s <+: quoteIdentifier name := by
  obtain ⟨s, rfl⟩ : ∃ t, s = '"' :: t := by
    obtain ⟨hhead, -⟩ := hs
    obtain ⟨t, ht⟩ := List.head?_eq_some_iff.mp hhead
    exact ⟨t, ht⟩
  obtain ⟨hsplit, hend | ⟨rest, hend, hrest⟩⟩ := Text.splitAtMark_spec '"' s
  · rw [hend, List.append_nil] at hsplit
    refine ⟨String.ofList (Text.splitAtMark '"' s).1, ['"'], ?_⟩
    rw [quoteIdentifier, Text.quoted, String.toList_ofList, ← hsplit]
    rfl
  · rw [hend] at hsplit
    refine absurd ⟨?_, hrest⟩ (hs.2 (String.ofList (Text.splitAtMark '"' s).1) rest)
    rw [quoteIdentifier, Text.quoted, String.toList_ofList]
    nth_rewrite 1 [hsplit]
    simp

/-- The text is the beginning of a hint. -/
def Begins (read : Text) : Prop :=
  ∃ h : ReturningHint, h.columns ≠ [] ∧ read <+: h.body

theorem begins_of_prefix {o : Operation} {t : QualifiedName} {columns : List String} {read : Text}
    (hcolumns : columns ≠ []) (hread : read <+: ' ' :: (t.quote ++ columnsText columns)) :
    Begins (o.keyword.toList ++ read) :=
  ⟨⟨o, t, columns⟩, hcolumns, (List.prefix_append_right_inj _).mpr hread⟩

theorem wholeHint_of_identifier_error {o : Operation} {s stop : Text}
    (h : identifier s = .error stop) : wholeHint (o.keyword.toList ++ ' ' :: s) = .error stop :=
  wholeHint_eq_error_iff.mpr (.inl (hint_eq_error_iff.mpr
    (.inr ⟨o, _, rfl, .inr ⟨s, rfl, .inl h⟩⟩)))

theorem wholeHint_of_column_error {o : Operation} {t : QualifiedName} {s stop : Text}
    (ht : EndsTable t s) (h : identifierAfter "," s = .error stop) :
    wholeHint (o.keyword.toList ++ ' ' :: (t.quote ++ s)) = .error stop :=
  wholeHint_eq_error_iff.mpr (.inl (hint_eq_error_iff.mpr
    (.inr ⟨o, _, rfl, .inr ⟨_, rfl, .inr ⟨t, s, ⟨rfl, ht⟩, h⟩⟩⟩)))

/-- Reading fails where a text stops, and up to there it reads like a hint. -/
theorem StopsAt.wholeHint_eq {s : Text} {n : Nat} (h : StopsAt s n) :
    ∃ read stop, s = read ++ stop ∧ Text.byteLength read = n ∧ wholeHint s = .error stop ∧
      Begins read := by
  cases h with
  | operation ho =>
      refine ⟨[], s, rfl, rfl, ?_, ⟨⟨.insert, ⟨none, ""⟩, [""]⟩, by simp, List.nil_prefix⟩⟩
      exact wholeHint_eq_error_iff.mpr (.inl (hint_eq_error_iff.mpr (.inl ⟨rfl, ho⟩)))
  | blank o rest hs hblank =>
      refine ⟨o.keyword.toList ++ [], rest, by simpa using hs, ?_, ?_, ?_⟩
      · rw [List.append_nil, o.byteLength_keyword]
      · rw [hs]
        exact wholeHint_eq_error_iff.mpr (.inl (hint_eq_error_iff.mpr
          (.inr ⟨o, rest, rfl, .inl ⟨rfl, hblank⟩⟩)))
      · exact begins_of_prefix (t := ⟨none, ""⟩) (List.cons_ne_nil "" []) List.nil_prefix
  | table o rest hs hquote =>
      refine ⟨o.keyword.toList ++ ' ' :: [], rest, by simpa using hs, ?_, ?_, ?_⟩
      · exact o.byteLength_keyword_append []
      · rw [hs]
        exact wholeHint_of_identifier_error (identifier_eq_error_iff.mpr (.inl ⟨hquote, rfl⟩))
      · refine begins_of_prefix (t := ⟨none, ""⟩) (List.cons_ne_nil "" []) ?_
        exact List.prefix_cons_inj _ |>.mpr List.nil_prefix
  | openTable o rest hs hopen =>
      obtain ⟨name, hname⟩ := hopen.prefix_quoteIdentifier
      refine ⟨s, [], (List.append_nil s).symm, rfl, ?_, ?_⟩
      · rw [hs]
        exact wholeHint_of_identifier_error (identifier_eq_error_iff.mpr (.inr ⟨hopen, rfl⟩))
      · rw [hs]
        refine begins_of_prefix (t := ⟨none, name⟩) (List.cons_ne_nil "" []) ?_
        exact (List.prefix_cons_inj _).mpr (hname.trans (List.prefix_append _ _))
  | comma o t rest hs ht hcomma =>
      refine ⟨o.keyword.toList ++ ' ' :: t.quote, rest, by simpa using hs, ?_, ?_, ?_⟩
      · exact o.byteLength_keyword_append _
      · rw [hs]
        exact wholeHint_of_column_error ht
          ((identifierAfter_eq_error_iff (c := ',') rfl).mpr (.inl ⟨hcomma, rfl⟩))
      · refine begins_of_prefix (t := t) (List.cons_ne_nil "" []) ?_
        exact (List.prefix_cons_inj _).mpr (List.prefix_append _ _)
  | column o t rest hs ht hquote =>
      refine ⟨o.keyword.toList ++ ' ' :: (t.quote ++ [',']), rest, by simpa using hs, ?_, ?_, ?_⟩
      · rw [o.byteLength_keyword_append, Text.byteLength_append, ← Nat.add_assoc]
        rfl
      · rw [hs]
        exact wholeHint_of_column_error ht ((identifierAfter_eq_error_iff (c := ',') rfl).mpr
          (.inr ⟨rest, rfl, .inl ⟨hquote, rfl⟩⟩))
      · refine begins_of_prefix (t := t) (List.cons_ne_nil "" []) ?_
        rw [List.prefix_cons_inj, List.prefix_append_right_inj, columnsText_cons,
          List.prefix_cons_inj]
        exact List.nil_prefix
  | openColumn o t rest hs ht hopen =>
      obtain ⟨name, hname⟩ := hopen.prefix_quoteIdentifier
      refine ⟨s, [], (List.append_nil s).symm, rfl, ?_, ?_⟩
      · rw [hs]
        exact wholeHint_of_column_error ht ((identifierAfter_eq_error_iff (c := ',') rfl).mpr
          (.inr ⟨rest, rfl, .inr ⟨hopen, rfl⟩⟩))
      · rw [hs]
        refine begins_of_prefix (t := t) (List.cons_ne_nil name []) ?_
        rw [List.prefix_cons_inj, List.prefix_append_right_inj, columnsText_cons,
          List.prefix_cons_inj]
        exact hname.trans (List.prefix_append _ _)
  | remainder o t columns rest hs ht hcolumns hend hrest =>
      refine ⟨o.keyword.toList ++ ' ' :: (t.quote ++ columnsText columns), rest,
        by simpa using hs, ?_, ?_, begins_of_prefix hcolumns (List.prefix_refl _)⟩
      · rw [o.byteLength_keyword_append, Text.byteLength_append, Nat.add_assoc]
      · have hread : hint s = .ok (⟨o, t, columns⟩, rest) :=
          hint_eq_ok_iff.mpr ⟨hs, ht, hcolumns, hend⟩
        exact wholeHint_eq_error_iff.mpr (.inr ⟨_, hread, hrest⟩)

end HintReader

theorem isValid_byteLength (s t : Text) :
    String.Pos.Raw.IsValid (String.ofList (s ++ t)) ⟨Text.byteLength s⟩ := by
  rw [String.Pos.Raw.isValid_iff_exists_append]
  refine ⟨String.ofList s, String.ofList t, String.ofList_append, ?_⟩
  rw [String.Pos.Raw.ext_iff]
  exact (Text.byteLength_ofList s).symm

theorem splitReturning_eq_error_iff {sql : String} {p : Nat} {hint : Text} :
    splitReturning sql = .error (.malformedHint p hint) ↔
      ∃ before stop, SplitsAtLastMarker sql.toList before hint ∧
        HintReader.wholeHint hint = .error stop ∧
        p = Text.byteLength sql.toList - Text.byteLength stop := by
  simp only [← splitAtLastMarker_eq_some_iff]
  rw [splitReturning]
  cases splitAtLastMarker sql.toList with
  | none => simp
  | some r =>
      obtain ⟨before, after⟩ := r
      constructor
      · intro h
        dsimp only at h
        split at h
        · cases h
        · rename_i stop hread
          cases h
          exact ⟨before, stop, rfl, hread, rfl⟩
      · rintro ⟨before', stop, hsplit, hread, rfl⟩
        cases hsplit
        simp only [hread]

/-- The position of an error is in the part after the last marker, at the byte at which
that part stops being a hint. It is the end of a character, and what stands between the
marker and the position is the beginning of a hint. -/
theorem splitReturning_error_position (sql : String) (p : Nat) (hint : Text) :
    (splitReturning sql = .error (.malformedHint p hint) ↔
      ∃ before n, SplitsAtLastMarker sql.toList before hint ∧ HintReader.StopsAt hint n ∧
        p = Text.byteLength (before ++ returningMarker) + n) ∧
    (splitReturning sql = .error (.malformedHint p hint) →
      p ≤ sql.utf8ByteSize ∧ String.Pos.Raw.IsValid sql ⟨p⟩ ∧
      ∃ before read rest, SplitsAtLastMarker sql.toList before hint ∧ hint = read ++ rest ∧
        p = Text.byteLength (before ++ returningMarker) + Text.byteLength read ∧
        HintReader.Begins read) := by
  -- The bytes before the rest are those of the text without the bytes of the rest.
  have hbytes {before read rest : Text} (hlast : SplitsAtLastMarker sql.toList before hint)
      (hhint : hint = read ++ rest) :
      Text.byteLength sql.toList - Text.byteLength rest =
        Text.byteLength (before ++ returningMarker) + Text.byteLength read := by
    rw [hlast.1, hhint]
    simp only [Text.byteLength_append]
    omega
  have hstops : splitReturning sql = .error (.malformedHint p hint) ↔
      ∃ before n, SplitsAtLastMarker sql.toList before hint ∧ HintReader.StopsAt hint n ∧
        p = Text.byteLength (before ++ returningMarker) + n := by
    rw [splitReturning_eq_error_iff]
    constructor
    · rintro ⟨before, stop, hlast, hread, rfl⟩
      obtain ⟨read, hhint, hstops⟩ := HintReader.stopsAt_of_wholeHint hread
      exact ⟨before, _, hlast, hstops, hbytes hlast hhint⟩
    · rintro ⟨before, n, hlast, hstops, rfl⟩
      obtain ⟨read, stop, hhint, rfl, hread, -⟩ := hstops.wholeHint_eq
      exact ⟨before, stop, hlast, hread, (hbytes hlast hhint).symm⟩
  refine ⟨hstops, fun herror => ?_⟩
  obtain ⟨before, n, hlast, hn, rfl⟩ := hstops.mp herror
  obtain ⟨read, rest, hhint, rfl, -, hbegins⟩ := hn.wholeHint_eq
  have hsql : sql = String.ofList ((before ++ returningMarker ++ read) ++ rest) := by
    rw [← String.ofList_toList (s := sql), hlast.1, hhint]
    simp
  rw [← Text.byteLength_append]
  refine ⟨?_, ?_, before, read, rest, hlast, hhint, Text.byteLength_append _ _, hbegins⟩
  · rw [hsql, Text.byteLength_ofList, Text.byteLength_append _ rest]
    exact Nat.le_add_right _ _
  · rw [hsql]
    exact isValid_byteLength _ _

/-- The second column is not quoted, so reading stops before its comma. -/
theorem splitReturning_error_position_in_sample :
    ∃ hint : Text, hint = "DELETE \"é\",\"b\",c".toList ∧
      splitReturning ("x ;--RETURNING ON " ++ String.ofList hint) =
        .error (.malformedHint 33 hint) ∧
      String.Pos.Raw.IsValid ("x ;--RETURNING ON " ++ String.ofList hint) ⟨33⟩ := by
  let hint : Text := "DELETE \"é\",\"b\",c".toList
  let sql : String := "x ;--RETURNING ON " ++ String.ofList hint
  have hlast : SplitsAtLastMarker sql.toList "x".toList hint := by
    have htext : sql.toList = "x ;--RETURNING ON ".toList ++ hint := by
      rw [String.toList_append, String.toList_ofList (l := hint)]
    rw [← splitAtLastMarker_eq_some_iff, htext]
    rfl
  have hstops : HintReader.StopsAt hint 15 := by
    have hend : ¬ HintReader.StartsWithItem ',' [',', 'c'] := by
      rintro ⟨t, name, rest, ht, hname, -⟩
      cases ht
      cases hname
    exact .remainder .delete ⟨none, "é"⟩ ["b"] [',', 'c'] rfl
      ⟨by decide, fun _ => HintReader.not_startsWithItem (by decide)⟩ (by simp)
      ⟨by decide, hend⟩ (by simp)
  have herror : splitReturning sql = .error (.malformedHint 33 hint) :=
    (splitReturning_error_position sql 33 hint).1.mpr ⟨"x".toList, 15, hlast, hstops, rfl⟩
  exact ⟨hint, rfl, herror, ((splitReturning_error_position sql 33 hint).2 herror).2.1⟩

end LiteSql
