import LiteSql.Proofs.Hint
import Mathlib.Algebra.Ring.Parity

/-!
# Splitting a statement from its hint

A text is split at its last marker. After a statement and a hint this is the
marker of the hint, unless a name in the hint has a marker of its own: no other
part of a hint can hold one. In that case the text after the last marker starts
inside a quoted name, so it has an odd number of quotes, while a hint has an even
number of them. It is therefore not a hint, and splitting fails. No choice of
names leads to another statement or to another hint.

Nor is there a second way to write a hint: whatever splitting accepts is written
with the same characters as the statement and the hint that it gives.
-/

namespace LiteSql

theorem returningMarker_ne_nil : returningMarker ≠ [] := by decide

theorem quote_not_mem_returningMarker : '"' ∉ returningMarker := by decide

theorem splitAtLastMarker_eq_none_iff {t : Text} :
    splitAtLastMarker t = none ↔ ¬ returningMarker <:+: t := by
  induction t with
  | nil => simp [splitAtLastMarker, returningMarker_ne_nil]
  | cons c t ih =>
      rw [List.infix_cons_iff, splitAtLastMarker]
      cases hsplit : splitAtLastMarker t with
      | some r =>
          have hwithin : returningMarker <:+: t := by
            rw [hsplit] at ih
            simpa using ih
          simp [hwithin]
      | none =>
          have hwithin := ih.mp hsplit
          by_cases hstarts : returningMarker.isPrefixOf (c :: t)
          · simp [hstarts, List.isPrefixOf_iff_prefix.mp hstarts]
          · have hno : ¬ returningMarker <+: c :: t := fun h =>
              hstarts (List.isPrefixOf_iff_prefix.mpr h)
            simp [hstarts, hwithin, hno]

theorem splitAtLastMarker_append {t before after : Text} (s : Text)
    (h : splitAtLastMarker t = some (before, after)) :
    splitAtLastMarker (s ++ t) = some (s ++ before, after) := by
  induction s with
  | nil => exact h
  | cons c s ih => simp [splitAtLastMarker, ih]

theorem eq_of_splitAtLastMarker {t before after : Text}
    (h : splitAtLastMarker t = some (before, after)) :
    t = before ++ (returningMarker ++ after) := by
  induction t generalizing before with
  | nil => cases h
  | cons c t ih =>
      unfold splitAtLastMarker at h
      split at h
      · rename_i b a hsplit
        cases h
        rw [ih hsplit]
        rfl
      · split at h
        · rename_i hstarts
          obtain ⟨rest, hrest⟩ := List.isPrefixOf_iff_prefix.mp hstarts
          cases h
          rw [← hrest, List.drop_left]
          rfl
        · cases h

/-- A marker that no other marker follows is the last one. -/
theorem splitAtLastMarker_marker {after : Text}
    (h : ¬ returningMarker <:+: (returningMarker ++ after).tail) :
    splitAtLastMarker (returningMarker ++ after) = some ([], after) := by
  obtain ⟨c, m, hm⟩ := List.exists_cons_of_ne_nil returningMarker_ne_nil
  have htail : splitAtLastMarker (m ++ after) = none := by
    rw [splitAtLastMarker_eq_none_iff]
    simpa [hm] using h
  have hstarts : returningMarker.isPrefixOf (c :: (m ++ after)) = true :=
    List.isPrefixOf_iff_prefix.mpr ⟨after, by simp [hm]⟩
  have hdrop : (c :: (m ++ after)).drop returningMarker.length = after := by
    rw [hm, ← List.cons_append, List.drop_left]
  have heq : returningMarker ++ after = c :: (m ++ after) := by simp [hm]
  rw [heq, splitAtLastMarker, htail]
  simp only [hstarts, if_true, hdrop]

namespace ReturningHint

theorem even_quotes_columnsText (columns : List String) :
    Even ((columnsText columns).count '"') := by
  induction columns with
  | nil => simp [columnsText]
  | cons c columns ih =>
      have hc := Text.even_count_quoted '"' c.toList
      simpa [columnsText_cons, quoteIdentifier] using hc.add ih

theorem even_quotes_body (h : ReturningHint) : Even (h.body.count '"') := by
  have hcolumns := even_quotes_columnsText h.columns
  have hname := Text.even_count_quoted '"' h.table.name.toList
  have hfront : (h.operation.keyword.toList ++ [' ']).count '"' = 0 := by
    cases h.operation <;> decide
  rw [body_eq, List.count_append, hfront, List.count_append, Nat.zero_add]
  cases hschema : h.table.schema with
  | none => simpa [QualifiedName.quote, hschema, quoteIdentifier] using hname.add hcolumns
  | some schema =>
      have hfirst := Text.even_count_quoted '"' schema.toList
      simpa [QualifiedName.quote, hschema, quoteIdentifier, Nat.add_assoc] using
        hfirst.add (hname.add hcolumns)

/-- A marker at or after a quoted name, when an even number of quotes follows
the name: it is in the name, and an odd number of quotes follows it, or it comes
later. -/
theorem marker_in_quoted_append {name : String} {rest x y : Text}
    (heven : Even (rest.count '"'))
    (h : quoteIdentifier name ++ rest = x ++ (returningMarker ++ y)) :
    (returningMarker <:+: name.toList ∧ Odd (y.count '"')) ∨
      ∃ x', rest = x' ++ (returningMarker ++ y) := by
  rcases Text.occurs_in_quoted_append quote_not_mem_returningMarker
    returningMarker_ne_nil h with ⟨x', y', hname, rfl⟩ | hrest
  · refine .inl ⟨⟨x', y', by simp [hname]⟩, ?_⟩
    obtain ⟨k, hk⟩ := heven
    refine ⟨y'.count '"' + k, ?_⟩
    simp [Text.count_doubled, hk]
    omega
  · exact .inr hrest

theorem marker_after_separator {c : Char} {rest x y : Text} (hc : c ≠ ' ')
    (h : c :: rest = x ++ (returningMarker ++ y)) :
    ∃ x', rest = x' ++ (returningMarker ++ y) := by
  cases x with
  | nil => exact absurd (List.cons.inj h).1 hc
  | cons d x => exact ⟨x, (List.cons.inj h).2⟩

theorem marker_in_columnsText {columns : List String} {x y : Text}
    (h : columnsText columns = x ++ (returningMarker ++ y)) :
    (∃ n ∈ columns, returningMarker <:+: n.toList) ∧ Odd (y.count '"') := by
  induction columns generalizing x with
  | nil => simp [columnsText, returningMarker_ne_nil] at h
  | cons c columns ih =>
      rw [columnsText_cons] at h
      obtain ⟨x', hx⟩ := marker_after_separator (by decide) h
      rcases marker_in_quoted_append (even_quotes_columnsText columns) hx with
        ⟨hname, hodd⟩ | ⟨x'', hrest⟩
      · exact ⟨⟨c, by simp, hname⟩, hodd⟩
      · obtain ⟨⟨n, hn, hwithin⟩, hodd⟩ := ih hrest
        exact ⟨⟨n, by simp [hn], hwithin⟩, hodd⟩

theorem marker_in_names {h : ReturningHint} {x y : Text}
    (hx : h.table.quote ++ columnsText h.columns = x ++ (returningMarker ++ y)) :
    (∃ n ∈ h.names, returningMarker <:+: n.toList) ∧ Odd (y.count '"') := by
  have hcolumns := even_quotes_columnsText h.columns
  -- The part from the name of the table on is the same with and without a schema.
  have htable {x : Text}
      (hx : quoteIdentifier h.table.name ++ columnsText h.columns =
        x ++ (returningMarker ++ y)) :
      (∃ n ∈ h.names, returningMarker <:+: n.toList) ∧ Odd (y.count '"') := by
    rcases marker_in_quoted_append hcolumns hx with ⟨hname, hodd⟩ | ⟨x', hrest⟩
    · exact ⟨⟨h.table.name, by simp [names], hname⟩, hodd⟩
    · obtain ⟨⟨n, hn, hwithin⟩, hodd⟩ := marker_in_columnsText hrest
      exact ⟨⟨n, by simp [names, hn], hwithin⟩, hodd⟩
  cases hschema : h.table.schema with
  | none => exact htable (by simpa [QualifiedName.quote, hschema] using hx)
  | some schema =>
      have heven : Even
          (('.' :: (quoteIdentifier h.table.name ++ columnsText h.columns)).count '"') := by
        have hname := Text.even_count_quoted '"' h.table.name.toList
        simpa [quoteIdentifier] using hname.add hcolumns
      have hx' : quoteIdentifier schema ++
          '.' :: (quoteIdentifier h.table.name ++ columnsText h.columns) =
            x ++ (returningMarker ++ y) := by
        simpa [QualifiedName.quote, hschema] using hx
      rcases marker_in_quoted_append heven hx' with ⟨hfirst, hodd⟩ | ⟨x', hrest⟩
      · exact ⟨⟨schema, by simp [names, hschema], hfirst⟩, hodd⟩
      · obtain ⟨x'', hname⟩ := marker_after_separator (by decide) hrest
        exact htable hname

theorem marker_not_before_names (o : Operation) :
    ¬ returningMarker <:+: returningMarker.tail ++ o.keyword.toList ++ [' '] := by
  rw [← splitAtLastMarker_eq_none_iff]
  cases o with
  | insert => rfl
  | update => rfl
  | delete => rfl

theorem tail_text (h : ReturningHint) :
    h.text.tail = (returningMarker.tail ++ h.operation.keyword.toList ++ [' ']) ++
      (h.table.quote ++ columnsText h.columns) := by
  rw [text_eq, body, List.tail_append_of_ne_nil returningMarker_ne_nil]
  simp

/-- A further marker in a hint is in one of its names, and an odd number of
quotes follows it. -/
theorem marker_in_tail {h : ReturningHint} {x y : Text}
    (hx : h.text.tail = x ++ (returningMarker ++ y)) :
    (∃ n ∈ h.names, returningMarker <:+: n.toList) ∧ Odd (y.count '"') := by
  obtain ⟨rest, hrest⟩ : ∃ rest, h.table.quote = '"' :: rest := by
    obtain ⟨schema, name⟩ := h.table
    cases schema with
    | none => exact ⟨_, rfl⟩
    | some schema => exact ⟨_, rfl⟩
  rw [tail_text, hrest, List.cons_append] at hx
  rcases Text.occurs_before_or_after quote_not_mem_returningMarker hx with
    ⟨y', hbefore, -⟩ | ⟨x', hafter⟩
  · exact absurd ⟨x, y', by simp [hbefore]⟩ (marker_not_before_names h.operation)
  · have hnames : h.table.quote ++ columnsText h.columns =
        ('"' :: x') ++ (returningMarker ++ y) := by
      rw [hrest, List.cons_append, hafter, List.cons_append]
    exact marker_in_names hnames

theorem infix_tail_of_mem_names {h : ReturningHint} {n : String} (hn : n ∈ h.names)
    (hwithin : returningMarker <:+: n.toList) : returningMarker <:+: h.text.tail := by
  have hquoted : returningMarker <:+: quoteIdentifier n :=
    Text.infix_quoted quote_not_mem_returningMarker hwithin
  have hnames : quoteIdentifier n <:+: h.table.quote ++ columnsText h.columns := by
    simp only [names, List.mem_append, Option.mem_toList, List.mem_cons] at hn
    rcases hn with hschema | rfl | hmem
    · refine List.infix_append_of_infix_left ?_
      rw [QualifiedName.quote, hschema]
      exact List.infix_append_left
    · refine List.infix_append_of_infix_left ?_
      unfold QualifiedName.quote
      split
      · exact List.infix_append_of_infix_right (List.infix_cons (List.infix_refl _))
      · exact List.infix_refl _
    · obtain ⟨before, after, hcolumns⟩ := List.append_of_mem hmem
      refine List.infix_append_of_infix_right ?_
      exact ⟨columnsText before ++ [','], columnsText after, by simp [columnsText, hcolumns]⟩
  rw [tail_text]
  exact hquoted.trans (List.infix_append_of_infix_right hnames)

end ReturningHint

/-- The hint can be told apart from any statement before it. -/
def ReturningHint.Separable (h : ReturningHint) : Prop :=
  h.columns ≠ [] ∧ ∀ n ∈ h.names, ¬ returningMarker <:+: n.toList

theorem ReturningHint.splitAtLastMarker_text {h : ReturningHint}
    (hnames : ∀ n ∈ h.names, ¬ returningMarker <:+: n.toList) :
    splitAtLastMarker h.text = some ([], h.body) := by
  rw [text_eq]
  refine splitAtLastMarker_marker ?_
  rw [← text_eq]
  rintro ⟨x, y, hx⟩
  rw [List.append_assoc] at hx
  obtain ⟨⟨n, hn, hwithin⟩, -⟩ := marker_in_tail hx.symm
  exact hnames n hn hwithin

/-- After the last of several markers in a hint there is no hint. -/
theorem ReturningHint.wholeHint_of_marker_in_names {h : ReturningHint} {n : String}
    (hn : n ∈ h.names) (hwithin : returningMarker <:+: n.toList) :
    ∃ before after stop, splitAtLastMarker h.text = some (before, after) ∧
      HintReader.wholeHint after = .error stop := by
  have htail := infix_tail_of_mem_names hn hwithin
  cases hsplit : splitAtLastMarker h.text.tail with
  | none => exact absurd htail (splitAtLastMarker_eq_none_iff.mp hsplit)
  | some r =>
      obtain ⟨before, after⟩ := r
      have hodd := (marker_in_tail (eq_of_splitAtLastMarker hsplit)).2
      obtain ⟨c, rest, htext⟩ : ∃ c rest, h.text = c :: rest := ⟨_, _, rfl⟩
      have hwhole : splitAtLastMarker h.text = some (c :: before, after) := by
        rw [htext] at hsplit ⊢
        exact splitAtLastMarker_append [c] hsplit
      cases hread : HintReader.wholeHint after with
      | error stop => exact ⟨c :: before, after, stop, hwhole, hread⟩
      | ok h' =>
          obtain ⟨hbody, -⟩ := HintReader.wholeHint_eq_ok_iff.mp hread
          have heven := even_quotes_body h'
          rw [← hbody] at heven
          exact absurd heven (Nat.not_even_iff_odd.mpr hodd)

/-- Splitting undoes writing, and never gives anything else. -/
theorem splitReturning_append_text (s : String) (h : ReturningHint) :
    (h.Separable ∧ splitReturning (s ++ String.ofList h.text) = .ok (s, some h)) ∨
      (¬ h.Separable ∧ ∃ position hint,
        splitReturning (s ++ String.ofList h.text) = .error (.malformedHint position hint)) := by
  have htext : (s ++ String.ofList h.text).toList = s.toList ++ h.text := by simp
  by_cases hnames : ∀ n ∈ h.names, ¬ returningMarker <:+: n.toList
  · have hsplit := splitAtLastMarker_append s.toList (h.splitAtLastMarker_text hnames)
    rw [List.append_nil] at hsplit
    by_cases hcolumns : h.columns = []
    · have hread : HintReader.wholeHint h.body = .error [] := by
        obtain ⟨o, t, columns⟩ := h
        subst hcolumns
        exact HintReader.wholeHint_without_columns o t
      refine .inr ⟨fun hsep => hsep.1 hcolumns, ?_⟩
      simp [splitReturning, htext, hsplit, hread]
    · have hread := HintReader.wholeHint_eq_ok_iff.mpr ⟨rfl, hcolumns⟩
      refine .inl ⟨⟨hcolumns, hnames⟩, ?_⟩
      simp [splitReturning, htext, hsplit, hread]
  · simp only [not_forall, not_not] at hnames
    obtain ⟨n, hn, hwithin⟩ := hnames
    obtain ⟨before, after, stop, hsplit, hread⟩ :=
      ReturningHint.wholeHint_of_marker_in_names hn hwithin
    refine .inr ⟨fun hsep => hsep.2 n hn hwithin, ?_⟩
    simp [splitReturning, htext, splitAtLastMarker_append s.toList hsplit, hread]

/-- The text has a marker between `before` and `after`, and none that begins further
to the right. -/
def SplitsAtLastMarker (t before after : Text) : Prop :=
  t = before ++ (returningMarker ++ after) ∧
    ∀ x y, t = x ++ (returningMarker ++ y) → x.length ≤ before.length

theorem exists_splitAtLastMarker {t x y : Text} (h : t = x ++ (returningMarker ++ y)) :
    ∃ z after, splitAtLastMarker t = some (x ++ z, after) := by
  cases hsplit : splitAtLastMarker (returningMarker ++ y) with
  | none => exact absurd List.infix_append_left (splitAtLastMarker_eq_none_iff.mp hsplit)
  | some r =>
      obtain ⟨z, after⟩ := r
      exact ⟨z, after, by rw [h, splitAtLastMarker_append x hsplit]⟩

theorem splitAtLastMarker_eq_some_iff {t before after : Text} :
    splitAtLastMarker t = some (before, after) ↔ SplitsAtLastMarker t before after := by
  have hlast {b a : Text} (h : splitAtLastMarker t = some (b, a)) : SplitsAtLastMarker t b a := by
    refine ⟨eq_of_splitAtLastMarker h, fun x y hxy => ?_⟩
    obtain ⟨z, after, hz⟩ := exists_splitAtLastMarker hxy
    rw [h] at hz
    cases hz
    rw [List.length_append]
    omega
  refine ⟨hlast, fun h => ?_⟩
  obtain ⟨z, a, hsplit⟩ := exists_splitAtLastMarker h.1
  obtain ⟨heq, -⟩ := hlast hsplit
  -- Both are marker positions, and neither is to the right of the other.
  have hlength : (before ++ z).length ≤ before.length := h.2 _ _ heq
  obtain rfl : z = [] := by
    rw [List.length_append] at hlength
    exact List.eq_nil_of_length_eq_zero (by omega)
  rw [h.1, List.append_nil] at heq
  have hafter : after = a := List.append_cancel_left (List.append_cancel_left heq)
  rw [hsplit, List.append_nil, hafter]

theorem splitReturning_eq_none_iff {sql s : String} :
    splitReturning sql = .ok (s, none) ↔ s = sql ∧ ¬ returningMarker <:+: sql.toList := by
  rw [← splitAtLastMarker_eq_none_iff, splitReturning]
  cases splitAtLastMarker sql.toList with
  | none => simp [eq_comm]
  | some r =>
      obtain ⟨before, after⟩ := r
      cases hread : HintReader.wholeHint after with
      | ok h => simp [hread]
      | error stop => simp [hread]

theorem splitReturning_eq_some_iff {sql s : String} {h : ReturningHint} :
    splitReturning sql = .ok (s, some h) ↔
      h.columns ≠ [] ∧ SplitsAtLastMarker sql.toList s.toList h.body := by
  have hread : splitReturning sql = .ok (s, some h) ↔ ∃ after,
      splitAtLastMarker sql.toList = some (s.toList, after) ∧
        HintReader.wholeHint after = .ok h := by
    rw [splitReturning]
    cases splitAtLastMarker sql.toList with
    | none => simp
    | some r =>
        obtain ⟨before, after⟩ := r
        have hbefore : before = s.toList ↔ String.ofList before = s := by
          rw [← String.ofList_inj, String.ofList_toList]
        cases hread : HintReader.wholeHint after with
        | ok h' => simp [hread, hbefore]
        | error stop => simp [hread]
  simp only [hread, splitAtLastMarker_eq_some_iff, HintReader.wholeHint_eq_ok_iff]
  constructor
  · rintro ⟨after, hsplit, rfl, hcolumns⟩
    exact ⟨hcolumns, hsplit⟩
  · rintro ⟨hcolumns, hsplit⟩
    exact ⟨h.body, hsplit, rfl, hcolumns⟩

theorem ReturningHint.eq_of_body_eq {h h' : ReturningHint} (hcolumns : h.columns ≠ [])
    (hcolumns' : h'.columns ≠ []) (heq : h.body = h'.body) : h = h' := by
  have hread := HintReader.wholeHint_eq_ok_iff.mpr ⟨rfl, hcolumns⟩
  have hread' := HintReader.wholeHint_eq_ok_iff.mpr ⟨rfl, hcolumns'⟩
  rw [heq, hread'] at hread
  exact (Except.ok.inj hread).symm

/-- Reading and writing share one form. What is split off is, byte for byte, the
written form of a hint with columns after the last marker, a text without a hint has
no marker, and the text after the last marker is accepted exactly if it is the
written form of one hint. -/
theorem splitReturning_canonical (sql : String) :
    (∀ (s : String) (h : ReturningHint), splitReturning sql = .ok (s, some h) ↔
      h.columns ≠ [] ∧ s ++ String.ofList h.text = sql ∧
        ∃ after, SplitsAtLastMarker sql.toList s.toList after) ∧
    (∀ s : String, splitReturning sql = .ok (s, none) ↔
      s = sql ∧ ¬ returningMarker <:+: sql.toList) ∧
    ∀ before after : Text, SplitsAtLastMarker sql.toList before after →
      ((∃ s h, splitReturning sql = .ok (s, some h)) ↔
        ∃! h : ReturningHint, h.columns ≠ [] ∧ returningMarker ++ after = h.text) := by
  have htext (s : String) (h : ReturningHint) : s ++ String.ofList h.text = sql ↔
      sql.toList = s.toList ++ (returningMarker ++ h.body) := by
    rw [← String.toList_inj, String.toList_append, String.toList_ofList, h.text_eq, eq_comm]
  refine ⟨fun s h => ?_, fun s => splitReturning_eq_none_iff, fun before after hlast => ?_⟩
  · rw [splitReturning_eq_some_iff, htext]
    refine and_congr_right fun _ => ⟨fun hsplit => ⟨hsplit.1, h.body, hsplit⟩, ?_⟩
    rintro ⟨heq, after, -, hlast⟩
    exact ⟨heq, hlast⟩
  · constructor
    · rintro ⟨s, h, hsplit⟩
      obtain ⟨hcolumns, hsplit⟩ := splitReturning_eq_some_iff.mp hsplit
      have hsame : (before, after) = (s.toList, h.body) := by
        rw [← Option.some_inj, ← splitAtLastMarker_eq_some_iff.mpr hlast,
          splitAtLastMarker_eq_some_iff.mpr hsplit]
      obtain ⟨-, rfl⟩ := Prod.mk.inj hsame
      refine ⟨h, ⟨hcolumns, h.text_eq.symm⟩, fun h' ⟨hcolumns', heq⟩ => ?_⟩
      rw [h'.text_eq, List.append_cancel_left_eq] at heq
      exact (ReturningHint.eq_of_body_eq hcolumns hcolumns' heq).symm
    · rintro ⟨h, ⟨hcolumns, heq⟩, -⟩
      rw [h.text_eq, List.append_cancel_left_eq] at heq
      subst heq
      exact ⟨String.ofList before, h,
        splitReturning_eq_some_iff.mpr ⟨hcolumns, by simpa using hlast⟩⟩

/-- A marker before the last one belongs to the statement. -/
theorem splitReturning_canonical_in_sample :
    ∃ h : ReturningHint, h.text = returningMarker ++ "UPDATE \"a\".\"we\"\"ird\",\"id\"".toList ∧
      SplitsAtLastMarker ("x ;--RETURNING ON y" ++ String.ofList h.text).toList
        "x ;--RETURNING ON y".toList h.body ∧
      ∃! h' : ReturningHint, h'.columns ≠ [] ∧ returningMarker ++ h.body = h'.text := by
  let h : ReturningHint := ⟨.update, ⟨some "a", "we\"ird"⟩, ["id"]⟩
  have hnames : ∀ n ∈ h.names, ¬ returningMarker <:+: n.toList := by
    have hshow : h.names = ["a", "we\"ird", "id"] := rfl
    simp only [hshow, ← splitAtLastMarker_eq_none_iff, List.forall_mem_cons]
    exact ⟨rfl, rfl, rfl, by simp⟩
  have hlast : SplitsAtLastMarker ("x ;--RETURNING ON y" ++ String.ofList h.text).toList
      "x ;--RETURNING ON y".toList h.body := by
    rw [← splitAtLastMarker_eq_some_iff, String.toList_append, String.toList_ofList]
    simpa using splitAtLastMarker_append "x ;--RETURNING ON y".toList
      (h.splitAtLastMarker_text hnames)
  have hsplit := splitReturning_eq_some_iff.mpr ⟨List.cons_ne_nil "id" [], hlast⟩
  exact ⟨h, by decide, hlast, ((splitReturning_canonical _).2.2 _ _ hlast).mp ⟨_, _, hsplit⟩⟩

end LiteSql
