import LiteSql.Proofs.Phrases
import LiteSql.Proofs.Signs

/-!
# Operands

An operator is applied to texts that should be single terms: outside of quotes and
parentheses such a text has no comma and no operator, apart from the sign of a number.
An operator next to it then applies to all of it.

Compound expressions are put in parentheses, and so they are single terms as soon as
their own quotes and parentheses are closed. All other expressions have to be single
terms by themselves. A row is one only if it has one field, and a call only if the name
of the function is not an operator.
-/

namespace LiteSql

/-- The words that are operators. -/
def operatorWords : List Text :=
  ["AND".toList, "OR".toList, "NOT".toList, "IS".toList, "IN".toList, "LIKE".toList]

/-- The comma and the characters of operators. -/
def operatorChars : Text :=
  ",=!<>+-*/%|&~".toList

def isOperatorWord (w : Text) : Bool :=
  operatorWords.contains (w.map Char.toUpper)

/-- A text without commas and operators. Its words are the longest runs of characters of
names. -/
def OperatorFree (s : Text) : Prop :=
  Avoids operatorChars s ∧ ∀ w ∈ s.splitOnP (!isWordChar ·), ¬ isOperatorWord w

instance (s : Text) : Decidable (OperatorFree s) :=
  inferInstanceAs (Decidable (_ ∧ _))

/-- What follows the sign of a number at the front of a text. -/
def dropSign : Text → Text
  | '-' :: c :: s => if c.isDigit then c :: s else '-' :: c :: s
  | s => s

/-- A text whose quotes and parentheses are closed. -/
structure Balanced (s : Text) : Prop where
  closed : quoteAfter none s = none
  nested : Nested (visible none s)

/-- A text that is a single term: it is not empty, its quotes and parentheses are closed,
and outside of them are no commas and no operators other than the sign of a number. -/
structure IsTerm (s : Text) : Prop extends Balanced s where
  ne_nil : s ≠ []
  free : OperatorFree (dropSign (outerText 0 (visible none s)))

namespace OperatorFree

theorem nil : OperatorFree [] := by
  decide

/-- A character that is in no word and no operator separates two texts. -/
theorem append_cons_iff {c : Char} (hword : isWordChar c = false) (hc : c ∉ operatorChars)
    {s t : Text} : OperatorFree (s ++ c :: t) ↔ OperatorFree s ∧ OperatorFree t := by
  have hsplit : (s ++ c :: t).splitOnP (!isWordChar ·) =
      s.splitOnP (!isWordChar ·) ++ t.splitOnP (!isWordChar ·) :=
    List.splitOnP_append_cons s t (by simp [hword])
  simp only [OperatorFree, Avoids, hsplit, List.forall_mem_append, List.forall_mem_cons]
  tauto

theorem cons_iff {c : Char} (hword : isWordChar c = false) (hc : c ∉ operatorChars) {s : Text} :
    OperatorFree (c :: s) ↔ OperatorFree s :=
  (append_cons_iff hword hc (s := [])).trans (and_iff_right nil)

theorem word_iff {w : Text} (hw : ∀ c ∈ w, isWordChar c) :
    OperatorFree w ↔ ¬ isOperatorWord w := by
  have hsplit : w.splitOnP (!isWordChar ·) = [w] :=
    List.splitOnP_eq_singleton fun c hc => by simp [hw c hc]
  have hchars : Avoids operatorChars w := .of_class (by decide) hw
  simp [OperatorFree, hsplit, hchars]

end OperatorFree

theorem toUpper_of_isDigit {c : Char} (hc : c.isDigit) : c.toUpper = c := by
  have hdigit : c.val ≤ '9'.val := of_decide_eq_true (Bool.and_eq_true_iff.mp hc).2
  refine dif_neg fun hletter => ?_
  exact absurd (UInt32.le_trans hletter.1 hdigit) (by decide)

/-- No operator has a digit in it. -/
theorem not_isOperatorWord_of_isDigit {w : Text} {c : Char} (hc : c ∈ w) (hdigit : c.isDigit) :
    ¬ isOperatorWord w := by
  intro hw
  have hall : operatorWords.all (·.all (!·.isDigit)) := by decide
  have hmem : w.map Char.toUpper ∈ operatorWords := List.contains_iff_mem.mp hw
  have hupper : c ∈ w.map Char.toUpper := by
    rw [← toUpper_of_isDigit hdigit]
    exact List.mem_map_of_mem hc
  have hnone := List.all_eq_true.mp (List.all_eq_true.mp hall _ hmem) c hupper
  rw [hdigit] at hnone
  cases hnone

namespace OperatorFree

theorem marks {mark : QuoteMark} {s : Text} (hs : ∀ c ∈ s, c = mark.char) : OperatorFree s := by
  induction s with
  | nil => exact nil
  | cons c s ih =>
      rw [List.forall_mem_cons] at hs
      obtain ⟨rfl, hs⟩ := hs
      refine (cons_iff ?_ ?_).mpr (ih hs)
      · cases mark <;> decide
      · cases mark <;> decide

theorem quoted (mark : QuoteMark) (s : Text) :
    OperatorFree (visible none (Text.quoted mark.char s)) :=
  marks (visible_quoted mark s).1

theorem append_quoted {s : Text} (hs : OperatorFree s) (mark : QuoteMark) (t : Text) :
    OperatorFree (s ++ visible none (Text.quoted mark.char t)) := by
  obtain ⟨rest, hrest⟩ : ∃ rest, visible none (Text.quoted mark.char t) = mark.char :: rest :=
    ⟨_, rfl⟩
  have hmarks := (visible_quoted mark t).1
  rw [hrest] at hmarks ⊢
  refine (append_cons_iff ?_ ?_).mpr ⟨hs, marks (List.forall_mem_cons.mp hmarks).2⟩
  · cases mark <;> decide
  · cases mark <;> decide

/-- A word that starts with digits. -/
theorem digits_append {s t : Text} (hs : IsDigits s) (ht : ∀ c ∈ t, isWordChar c) :
    OperatorFree (s ++ t) := by
  obtain ⟨c, hc⟩ := List.exists_mem_of_ne_nil s hs.1
  have hword : ∀ c ∈ s ++ t, isWordChar c := by
    rw [List.forall_mem_append]
    exact ⟨fun c hc => by simp [isWordChar, Char.isAlphanum, hs.2 c hc], ht⟩
  exact (word_iff hword).mpr
    (not_isOperatorWord_of_isDigit (List.mem_append_left t hc) (hs.2 c hc))

theorem digits {s : Text} (hs : IsDigits s) : OperatorFree s := by
  simpa using digits_append (t := []) hs (by simp)

theorem dropSign_number {n : Numeral} (hexponent : ∀ e ∈ n.exponent, e.1 = false) :
    OperatorFree (dropSign n.text) := by
  have hword : ∀ c ∈ Numeral.exponentText n.exponent, isWordChar c := by
    cases h : n.exponent with
    | none => simp [Numeral.exponentText]
    | some e =>
        obtain ⟨negative, ds⟩ := e
        obtain rfl : negative = false := hexponent _ h
        rw [Numeral.exponentText, Numeral.signText, if_neg (by decide), List.nil_append,
          List.forall_mem_cons]
        refine ⟨by decide, fun c hc => ?_⟩
        simp [isWordChar, Char.isAlphanum, (n.exponent_digits _ h).2 c hc]
  have hunsigned : dropSign n.text =
      n.whole ++ (Numeral.fractionText n.fraction ++ Numeral.exponentText n.exponent) := by
    obtain ⟨c, whole, hwhole⟩ := List.exists_cons_of_ne_nil n.whole_digits.1
    have hdigit : c.isDigit := n.whole_digits.2 c (by simp [hwhole])
    have hdash : c ≠ '-' := by
      rintro rfl
      cases hdigit
    rw [Numeral.text, hwhole]
    cases n.negative with
    | true => simp [Numeral.signText, dropSign, hdigit]
    | false => simp [Numeral.signText, dropSign, hdash]
  rw [hunsigned]
  -- What stands on either side of the point is one word, and it starts with a digit.
  cases h : n.fraction with
  | none => exact digits_append n.whole_digits hword
  | some ds =>
      exact (append_cons_iff (by decide) (by decide)).mpr
        ⟨digits n.whole_digits, digits_append (n.fraction_digits ds h) hword⟩

end OperatorFree

theorem mem_dropSign {s : Text} {c : Char} (hc : c ∈ s) (hne : c ≠ '-') : c ∈ dropSign s := by
  unfold dropSign
  split
  · split
    · exact (List.mem_cons.mp hc).resolve_left hne
    · exact hc
  · exact hc

theorem dropSign_of_not_mem {s : Text} (hs : '-' ∉ s) : dropSign s = s := by
  unfold dropSign
  split
  · exact absurd List.mem_cons_self hs
  · rfl

theorem OperatorFree.dropSign {s : Text} (hs : OperatorFree s) : OperatorFree (dropSign s) := by
  rwa [dropSign_of_not_mem fun hmem => hs.1 _ hmem (by decide)]

namespace IsTerm

theorem of_compact {s : Text} (hs : Compact s) (hne : s ≠ [])
    (hfree : OperatorFree (dropSign (visible none s))) : IsTerm s := by
  have hopen : '(' ∉ visible none s := fun hmem => hs.avoids.ne hmem (by decide) rfl
  refine ⟨⟨hs.closed, .of_avoids (hs.avoids.part (by decide))⟩, hne, ?_⟩
  rwa [outerText_of_not_mem hopen]

theorem literal (v : Value) : IsTerm v.literal := by
  have hform := v.literalForm
  generalize hv : v.literal = s at hform
  cases hform with
  | null => exact of_compact (.plain (by decide)) (by decide) (by decide)
  | number n =>
      refine of_compact (.number n) ?_ ?_
      · simp [Numeral.text, n.whole_digits.1]
      · rw [(IsUnbroken.number n).visible_eq.1]
        exact .dropSign_number (exponent_unsigned_of_literal hv)
  | string s =>
      exact of_compact (.quoted .single s) (List.cons_ne_nil _ _)
        (OperatorFree.quoted .single s).dropSign
  | blob s =>
      have hletter : Compact ['X'] := .plain (by decide)
      have hfree : OperatorFree (visible none (['X'] ++ Text.quoted '\'' s)) := by
        rw [hletter.visible_append]
        exact .append_quoted (by decide) .single s
      exact of_compact (hletter.append (.quoted .single s)) (List.cons_ne_nil _ _) hfree.dropSign

theorem placeholder (n : Nat) : IsTerm (placeholder n) := by
  have hmark : Compact ['?'] := .plain (by decide)
  have hcompact : Compact ('?' :: Text.digits n) := hmark.append (.digits (.digits n))
  have hfree : OperatorFree (visible none ('?' :: Text.digits n)) := by
    have hquotes : Avoids "'\"".toList ('?' :: Text.digits n) :=
      Avoids.append (s := ['?']) (by decide) (.of_class (by decide) (IsDigits.digits n).2)
    rw [hquotes.visible_eq.1]
    exact (OperatorFree.cons_iff (by decide) (by decide)).mpr (.digits (.digits n))
  exact of_compact hcompact (List.cons_ne_nil _ _) hfree.dropSign

end IsTerm

/-- The text by which expressions reach a source: a handle, or the name of a table. -/
inductive IsReference : Text → Prop
  | handle {s : Text} (hs : IsHandle s) : IsReference s
  | name (name : QualifiedName) : IsReference name.quote

namespace IsReference

theorem compact {s : Text} (hs : IsReference s) : Compact s := by
  cases hs with
  | handle hs => exact hs.compact
  | name name => exact .quote name

theorem free {s : Text} (hs : IsReference s) : OperatorFree (visible none s) := by
  cases hs with
  | handle hs =>
      rw [hs.isUnbroken.visible_eq.1]
      refine (OperatorFree.word_iff fun c hc => ?_).mpr ?_
      · simp [isWordChar, hs.isAlphanum_of_mem hc]
      · obtain ⟨letter, k, -, rfl⟩ := hs
        obtain ⟨hne, hdigits⟩ := IsDigits.digits k
        obtain ⟨c, hc⟩ := List.exists_mem_of_ne_nil _ hne
        exact not_isOperatorWord_of_isDigit (List.mem_cons_of_mem letter hc) (hdigits c hc)
  | name name =>
      have hlast : OperatorFree (visible none (quoteIdentifier name.name)) :=
        .quoted .double name.name.toList
      unfold QualifiedName.quote
      split
      · rename_i schema hschema
        have hfirst : OperatorFree (visible none (quoteIdentifier schema)) :=
          .quoted .double schema.toList
        rw [(Compact.quoteIdentifier schema).visible_append]
        exact (OperatorFree.append_cons_iff (by decide) (by decide)).mpr ⟨hfirst, hlast⟩
      · exact hlast

end IsReference

theorem IsTerm.column {s : NamedSource} (hs : IsReference s.handle) (name : String) :
    IsTerm (s.column name) := by
  have hpoint : Compact ['.'] := .plain (by decide)
  have hcompact : Compact (s.handle ++ '.' :: quoteIdentifier name) :=
    hs.compact.append (hpoint.append (.quoteIdentifier name))
  have hfree : OperatorFree (visible none (s.handle ++ '.' :: quoteIdentifier name)) := by
    rw [hs.compact.visible_append]
    exact (OperatorFree.append_cons_iff (by decide) (by decide)).mpr
      ⟨hs.free, .quoted .double name.toList⟩
  exact of_compact hcompact (by simp [NamedSource.column]) hfree.dropSign

namespace Balanced

theorem visible_append {s : Text} (hs : Balanced s) (t : Text) :
    visible none (s ++ t) = visible none s ++ visible none t := by
  rw [LiteSql.visible_append, hs.closed]

theorem append {s t : Text} (hs : Balanced s) (ht : Balanced t) : Balanced (s ++ t) := by
  constructor
  · rw [quoteAfter_append, hs.closed, ht.closed]
  · rw [hs.visible_append]
    exact hs.nested.append ht.nested

/-- A text without quotes and parentheses. -/
theorem plain {s : Text} (h : Avoids "'\"()".toList s) : Balanced s := by
  obtain ⟨hvisible, hclosed⟩ := (h.part (by decide)).visible_eq
  refine ⟨hclosed, ?_⟩
  rw [hvisible]
  exact .of_avoids (h.part (by decide))

theorem visible_parenthesized {s : Text} (hs : Balanced s) :
    visible none (Text.parenthesized s) = '(' :: (visible none s ++ [')']) := by
  have hinner : visible none (s ++ [')']) = visible none s ++ [')'] := hs.visible_append [')']
  exact congrArg ('(' :: ·) hinner

theorem parenthesized {s : Text} (hs : Balanced s) : Balanced (Text.parenthesized s) := by
  constructor
  · have hinner : quoteAfter none (s ++ [')']) = none := by
      rw [quoteAfter_append, hs.closed]
      rfl
    exact hinner
  · rw [hs.visible_parenthesized]
    exact hs.nested.parenthesized

theorem asOperand {s : Text} (hs : Balanced s) (e : Expr) : Balanced (e.asOperand s) := by
  unfold Expr.asOperand
  split
  · exact hs.parenthesized
  · exact hs

theorem joined {ss : List Text} (hss : ∀ s ∈ ss, Balanced s) : Balanced (Text.joined ", " ss) := by
  have hcomma : Balanced ", ".toList := .plain (by decide)
  unfold Text.joined
  induction ss with
  | nil => exact .plain (by decide)
  | cons s ss ih =>
      rw [List.forall_mem_cons] at hss
      cases ss with
      | nil => simpa using hss.1
      | cons t ss =>
          rw [List.intercalate_cons_cons, List.append_assoc]
          exact hss.1.append (hcomma.append (ih hss.2))

theorem of_each {α : Type} {as : List α} {i : Nat} {ss : List Text} {vs : List Value}
    (h : Emit.Each (fun _ _ s _ => Balanced s) as i ss vs) : ∀ s ∈ ss, Balanced s := by
  induction h with
  | nil i => simp
  | cons hs _ ih => exact List.forall_mem_cons.mpr ⟨hs, ih⟩

end Balanced

/-- Outside of a group in parentheses is what stands before it. -/
theorem isTerm_group_iff {front s : Text} (hfront : Avoids "'\"()-".toList front)
    (hs : Balanced s) : IsTerm (front ++ Text.parenthesized s) ↔ OperatorFree front := by
  have hbalanced : Balanced front := .plain (hfront.part (by decide))
  have hvisible : visible none (front ++ Text.parenthesized s) =
      front ++ '(' :: (visible none s ++ [')']) := by
    rw [hbalanced.visible_append, (hfront.part (by decide)).visible_eq.1,
      hs.visible_parenthesized]
  have houter : outerText 0 (front ++ '(' :: (visible none s ++ [')'])) = front ++ ['(', ')'] := by
    have hnested : Nested front := .of_avoids (hfront.part (by decide))
    rw [hnested.outerText_append, hs.nested.outerText_group,
      outerText_of_not_mem fun hmem => hfront.ne hmem (by decide) rfl]
    rfl
  have hsign : '-' ∉ front ++ ['(', ')'] := by
    rw [List.mem_append, not_or]
    exact ⟨fun hmem => hfront.ne hmem (by decide) rfl, by decide⟩
  have hfree : OperatorFree (dropSign (outerText 0
      (visible none (front ++ Text.parenthesized s)))) ↔ OperatorFree front := by
    rw [hvisible, houter, dropSign_of_not_mem hsign,
      OperatorFree.append_cons_iff (by decide) (by decide), and_iff_left (by decide)]
  exact ⟨fun hterm => hfree.mp hterm.free, fun h =>
    ⟨hbalanced.append hs.parenthesized, by simp [Text.parenthesized], hfree.mpr h⟩⟩

theorem IsTerm.parenthesized {s : Text} (hs : Balanced s) : IsTerm (Text.parenthesized s) := by
  have hnone : Avoids "'\"()-".toList [] := by decide
  exact (isTerm_group_iff hnone hs).mpr .nil

theorem avoids_of_isWordChar {w : Text} (hw : ∀ c ∈ w, isWordChar c) :
    Avoids "'\"()-".toList w :=
  .of_class (by decide) hw

theorem isWordChar_of_isPlain {name : String} {args : List Expr} {distinct : Bool}
    (h : (Node.expr (.call name args distinct)).IsPlain) {c : Char} (hc : c ∈ name.toList) :
    isWordChar c := by
  rcases h c hc with hletter | rfl
  · simp [isWordChar, hletter]
  · rfl

/-- The arguments of a call are a group after its name. -/
theorem exists_callText_eq (name : String) (distinct : Bool) {ss : List Text}
    (hss : ∀ s ∈ ss, Balanced s) :
    ∃ list, callText name distinct ss = name.toList ++ Text.parenthesized list ∧ Balanced list := by
  refine ⟨_, rfl, .append ?_ ?_⟩
  · cases distinct <;> exact .plain (by decide)
  · split
    · exact .plain (by decide)
    · exact .joined hss

theorem Balanced.castTarget {type : ColumnType} (h : ∀ name, type ≠ .custom name) {sql : Text}
    (hsql : type.castTarget = .ok sql) : Balanced sql := by
  cases type with
  | custom name => exact absurd rfl (h name)
  | array item => cases hsql
  | _ =>
      cases hsql
      exact .plain (by decide)

theorem Balanced.row {s : NamedSource} (hs : IsReference s.handle) {sql : Text}
    (hsql : s.row = .ok sql) : Balanced sql := by
  unfold NamedSource.row at hsql
  split at hsql
  · cases hsql
    refine .joined fun t ht => ?_
    obtain ⟨field, -, rfl⟩ := List.mem_map.mp ht
    exact (IsTerm.column hs field).toBalanced
  · cases hsql

mutual

theorem Expr.emit_balanced {sources : List NamedSource}
    (hsources : ∀ s ∈ sources, IsReference s.handle) :
    ∀ e : Expr, (∀ node ∈ e.nodes, node.IsPlain) →
      (e.emit sources).Ensures fun _ s _ => Balanced s
  | .field source column, _ => by
      rw [Expr.emit]
      refine .ofExcept_bind fun s hs => .pure fun _ => ?_
      exact (IsTerm.column (hsources s (mem_of_sourceAt hs)) column).toBalanced
  | .row source, _ => by
      rw [Expr.emit]
      refine .ofExcept_bind fun s hs => .ofExcept fun sql hsql _ => ?_
      exact .row (hsources s (mem_of_sourceAt hs)) hsql
  | .literal value, _ => by
      rw [Expr.emit]
      exact .pure fun _ => (IsTerm.literal value).toBalanced
  | .param value, _ => by
      rw [Expr.emit]
      exact .bindValue fun i => (IsTerm.placeholder (i + 1)).toBalanced
  | .binary op left right, h => by
      rw [Expr.nodes, List.forall_mem_cons, List.forall_mem_append] at h
      rw [Expr.emit]
      have hop : Balanced (' ' :: (op.symbol.toList ++ [' '])) := by
        cases op <;> exact .plain (by decide)
      refine (left.emit_balanced hsources h.2.1).map₂ (right.emit_balanced hsources h.2.2)
        fun _ l _ r _ hl hr => ?_
      have hboth := (hl.asOperand left).append (hop.append (hr.asOperand right))
      simpa using hboth
  | .not inner, h => by
      rw [Expr.nodes, List.forall_mem_cons] at h
      rw [Expr.emit]
      have hword : Balanced "NOT ".toList := .plain (by decide)
      exact (inner.emit_balanced hsources h.2).map fun _ s _ hs => hword.append hs.parenthesized
  | .isNull inner, h => by
      rw [Expr.nodes, List.forall_mem_cons] at h
      rw [Expr.emit]
      have hword : Balanced " IS NULL".toList := .plain (by decide)
      exact (inner.emit_balanced hsources h.2).map fun _ s _ hs => (hs.asOperand inner).append hword
  | .cast inner target, h => by
      rw [Expr.nodes, List.forall_mem_cons] at h
      rw [Expr.emit]
      have hcast : Balanced "CAST ".toList := .plain (by decide)
      have has : Balanced " AS ".toList := .plain (by decide)
      have htype : (Emit.ofExcept target.castTarget).Ensures fun _ s _ => Balanced s :=
        .ofExcept fun type htype _ => .castTarget h.1 htype
      exact .refuseIf_bind fun _ => (inner.emit_balanced hsources h.2).map₂ htype
        fun _ s _ type _ hs ht => hcast.append ((hs.append has).append ht).parenthesized
  | .isIn left right, h => by
      rw [Expr.nodes, List.forall_mem_cons, List.forall_mem_append] at h
      rw [Expr.emit]
      have hword : Balanced " IN ".toList := .plain (by decide)
      exact (left.emit_balanced hsources h.2.1).map₂ (right.emit_balanced hsources h.2.2)
        fun _ l _ items _ hl hitems => ((hl.asOperand left).append hword).append
          hitems.parenthesized
  | .fragment body, h => by
      rw [Expr.nodes, List.forall_mem_cons] at h
      exact absurd h.2 body.not_isPlain
  | .call name args distinct, h => by
      rw [Expr.nodes, List.forall_mem_cons] at h
      rw [Expr.emit]
      have hname : Balanced name.toList :=
        .plain ((avoids_of_isWordChar fun _ => isWordChar_of_isPlain h.1).part (by decide))
      refine (emitEach_balanced hsources args h.2).map fun _ ss _ hss => ?_
      obtain ⟨list, hcall, hlist⟩ := exists_callText_eq name distinct (Balanced.of_each hss)
      rw [hcall]
      exact hname.append hlist.parenthesized

theorem InList.emit_balanced {sources : List NamedSource}
    (hsources : ∀ s ∈ sources, IsReference s.handle) :
    ∀ l : InList, (∀ node ∈ l.nodes, node.IsPlain) →
      (l.emit sources).Ensures fun _ s _ => Balanced s
  | .exprs items, h => by
      rw [InList.nodes] at h
      rw [InList.emit]
      exact (emitEach_balanced hsources items h).map fun _ ss _ hss => .joined (.of_each hss)
  | .params values, _ => by
      rw [InList.emit]
      have hvalues : (Emit.bindValues values).Ensures
          (Emit.Each (fun _ _ s _ => Balanced s) values) :=
        .bindValues (fun _ i => (IsTerm.placeholder (i + 1)).toBalanced) values
      exact hvalues.map fun _ ss _ hss => .joined (.of_each hss)
  | .fragment body, h => by
      rw [InList.nodes] at h
      exact absurd h body.not_isPlain

theorem emitEach_balanced {sources : List NamedSource}
    (hsources : ∀ s ∈ sources, IsReference s.handle) :
    ∀ es : List Expr, (∀ node ∈ nodesOfEach es, node.IsPlain) →
      (emitEach sources es).Ensures (Emit.Each (fun _ _ s _ => Balanced s) es)
  | [], _ => by
      rw [emitEach]
      exact .each_nil
  | e :: es, h => by
      rw [nodesOfEach, List.forall_mem_append] at h
      rw [emitEach]
      exact .each_cons (e.emit_balanced hsources h.1) (emitEach_balanced hsources es h.2)

end

/-- Whether an expression is a single term, once a compound one is in parentheses. -/
def Expr.isSingle (sources : List Source) : Expr → Bool
  | .row k =>
    match sources[k.toNat]? with
    | some (.table _ (some fields)) => fields.length == 1
    | _ => false
  | .call name _ _ => !isOperatorWord name.toList
  | _ => true

section Operands

variable {q : Query} {mode : NameMode}

theorem isReference_handle : ∀ s ∈ q.namedSources mode, IsReference s.handle := by
  intro s hs
  obtain ⟨source, -, k, rfl⟩ := mem_nameSources hs
  obtain ⟨letter, hletter, hhandle⟩ := source.exists_letter k
  have hreference : IsReference (source.handle k) := .handle ⟨letter, k, hletter, hhandle⟩
  cases source with
  | fragment body => exact hreference
  | table name fields =>
      cases mode with
      | select => exact hreference
      | bulk => exact .name _

/-- The fields of a row are separated by commas. -/
theorem isTerm_row_iff {s : NamedSource} (hs : IsReference s.handle) (fields : List String) :
    IsTerm (Text.joined ", " (fields.map s.column)) ↔ fields.length = 1 := by
  match fields with
  | [] => exact iff_of_false (fun hterm => hterm.ne_nil rfl) (by decide)
  | [field] => exact iff_of_true (by simpa [Text.joined] using IsTerm.column hs field) rfl
  | first :: second :: rest =>
      refine iff_of_false (fun hterm => ?_) (by simp)
      have hfirst := (IsTerm.column hs first).toBalanced
      -- The comma after the first field is outside of all quotes and parentheses.
      have hcomma : ',' ∈ outerText 0
          (visible none (Text.joined ", " ((first :: second :: rest).map s.column))) := by
        rw [Text.joined, List.map_cons, List.map_cons, List.intercalate_cons_cons,
          List.append_assoc, hfirst.visible_append, hfirst.nested.outerText_append]
        exact List.mem_append_right _ List.mem_cons_self
      exact hterm.free.1 ',' (mem_dropSign hcomma (by decide)) (by decide)

theorem isTerm_callText_iff {name : String} {args : List Expr} {distinct : Bool}
    (h : (Node.expr (.call name args distinct)).IsPlain) {ss : List Text}
    (hss : ∀ s ∈ ss, Balanced s) :
    IsTerm (callText name distinct ss) ↔ ¬ isOperatorWord name.toList := by
  have hword : ∀ c ∈ name.toList, isWordChar c := fun _ => isWordChar_of_isPlain h
  obtain ⟨list, hcall, hlist⟩ := exists_callText_eq name distinct hss
  rw [hcall, isTerm_group_iff (avoids_of_isWordChar hword) hlist, OperatorFree.word_iff hword]

theorem Expr.emit_isTerm_iff {e : Expr} (hcompound : e.isCompound = false)
    (h : ∀ node ∈ e.nodes, node.IsPlain) :
    (e.emit (q.namedSources mode)).Ensures fun _ s _ => IsTerm s ↔ e.isSingle q.sources := by
  cases e with
  | field source column =>
      rw [Expr.emit]
      refine .ofExcept_bind fun s hs => .pure fun _ => iff_of_true ?_ rfl
      exact .column (isReference_handle s (mem_of_sourceAt hs)) column
  | row source =>
      rw [Expr.emit]
      refine .ofExcept_bind fun s hs => .ofExcept fun sql hsql _ => ?_
      have hsource := source_of_sourceAt hs
      unfold NamedSource.row at hsql
      split at hsql
      · rename_i name fields htable
        cases hsql
        rw [isTerm_row_iff (isReference_handle s (mem_of_sourceAt hs))]
        simp [isSingle, hsource, htable]
      · cases hsql
  | literal value =>
      rw [Expr.emit]
      exact .pure fun _ => iff_of_true (.literal value) rfl
  | param value =>
      rw [Expr.emit]
      exact .bindValue fun i => iff_of_true (.placeholder (i + 1)) rfl
  | cast inner target =>
      rw [Expr.nodes, List.forall_mem_cons] at h
      rw [Expr.emit]
      have has : Balanced " AS ".toList := .plain (by decide)
      have htype : (Emit.ofExcept target.castTarget).Ensures fun _ s _ => Balanced s :=
        .ofExcept fun type htype _ => .castTarget h.1 htype
      refine .refuseIf_bind fun _ => (inner.emit_balanced isReference_handle h.2).map₂ htype
        fun _ s _ type _ hs ht => iff_of_true ?_ rfl
      exact (isTerm_group_iff (by decide) ((hs.append has).append ht)).mpr (by decide)
  | call name args distinct =>
      rw [Expr.nodes, List.forall_mem_cons] at h
      rw [Expr.emit]
      refine (emitEach_balanced isReference_handle args h.2).map fun _ ss _ hss => ?_
      rw [isTerm_callText_iff h.1 (Balanced.of_each hss)]
      simp [isSingle]
  | _ => cases hcompound

theorem Expr.emitOperand_isTerm_iff {e : Expr} (h : ∀ node ∈ e.nodes, node.IsPlain) :
    (e.emitOperand (q.namedSources mode)).Ensures fun _ s _ => IsTerm s ↔ e.isSingle q.sources := by
  cases hcompound : e.isCompound with
  | true =>
      have hsingle : e.isSingle q.sources := by
        cases e <;> first | rfl | cases hcompound
      refine (e.emit_balanced isReference_handle h).map fun _ s _ hs => iff_of_true ?_ hsingle
      rw [Expr.asOperand, if_pos hcompound]
      exact .parenthesized hs
  | false =>
      refine (Expr.emit_isTerm_iff hcompound h).map fun _ s _ hs => ?_
      rwa [Expr.asOperand, hcompound, if_neg (by decide)]

end Operands

/-- The quotes and parentheses of an operand are always closed. It is a single term unless it
is the row of a table that has not exactly one field, or the call of a function that has the
name of an operator. -/
theorem operand_isTerm_iff (q : Query) (mode : NameMode) (e : Expr)
    (hplain : ∀ node ∈ e.nodes, node.IsPlain) (p p' : Params) (s : Text)
    (hrun : (e.emitOperand (q.namedSources mode)).run p = .ok s p') :
    Balanced s ∧ (IsTerm s ↔ e.isSingle q.sources) := by
  have hbalanced : (e.emitOperand (q.namedSources mode)).Ensures fun _ s _ => Balanced s :=
    (e.emit_balanced isReference_handle hplain).map fun _ _ _ hs => hs.asOperand e
  obtain ⟨-, -, hs⟩ := hbalanced p s p' hrun
  obtain ⟨-, -, hterm⟩ := e.emitOperand_isTerm_iff hplain p s p' hrun
  exact ⟨hs, hterm⟩

/-- In a bulk statement, a field is written with the name of the table. -/
theorem operand_isTerm_in_sample :
    ∃ s, ((Expr.isNull (.binary .sub (.field 0 "a, b") (.literal (.int (-5))))).emitOperand
        ((Query.ofTable "posts").namedSources .bulk)).run {} = .ok s {} ∧
      s = "((\"posts\".\"a, b\" - -5) IS NULL)".toList ∧ IsTerm s := by
  let e : Expr := .isNull (.binary .sub (.field 0 "a, b") (.literal (.int (-5))))
  have hplain : ∀ node ∈ e.nodes, node.IsPlain := by
    simp [e, Expr.nodes, Node.IsPlain]
  exact ⟨_, rfl, rfl, (operand_isTerm_iff (.ofTable "posts") .bulk e hplain {} {} _ rfl).2.mpr rfl⟩

/-- The row of a table with two fields is not put in parentheses, so a test for null applies
to its last field alone. The row of a table without fields has no text. -/
theorem row_operand_not_isTerm :
    (∃ s, ((Expr.row 0).emitOperand
        ((Query.ofSource (.table "t" (some ["a", "b"]))).namedSources .select)).run {} = .ok s {} ∧
      s = "t0.\"a\", t0.\"b\"".toList ∧ ¬ IsTerm s ∧
      ((Expr.isNull (.row 0)).emit
        ((Query.ofSource (.table "t" (some ["a", "b"]))).namedSources .select)).run {} =
          .ok (s ++ " IS NULL".toList) {}) ∧
    ∃ s, ((Expr.row 0).emitOperand
        ((Query.ofSource (.table "t" (some []))).namedSources .select)).run {} = .ok s {} ∧
      s = [] ∧ ¬ IsTerm s :=
  ⟨⟨_, rfl, rfl, fun h => absurd h.free (by decide), rfl⟩, _, rfl, rfl, fun h => h.ne_nil rfl⟩

end LiteSql
